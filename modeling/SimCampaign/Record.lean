/-! Named values in the order of their declaration. A name occurs once. -/

namespace SimCampaign

structure Record (α : Type) where
  pairs : List (String × α)
  nodup : (pairs.map Prod.fst).Nodup

namespace Record
variable {α : Type}

theorem ext {r s : Record α} (h : r.pairs = s.pairs) : r = s := by
  cases r; cases s; simp_all

def empty : Record α := ⟨[], List.nodup_nil⟩

instance : Inhabited (Record α) := ⟨empty⟩

def names (r : Record α) : List String := r.pairs.map Prod.fst

def get? (r : Record α) (name : String) : Option α := r.pairs.lookup name

/-- Gives every pair of the name the value, and leaves all else. -/
def replacePairs (name : String) (a : α) (pairs : List (String × α)) : List (String × α) :=
  pairs.map fun p => if p.1 = name then (name, a) else p

theorem map_fst_replacePairs (name : String) (a : α) (pairs : List (String × α)) :
    (replacePairs name a pairs).map Prod.fst = pairs.map Prod.fst := by
  rw [replacePairs, List.map_map]
  refine List.map_congr_left fun p _ => ?_
  by_cases h : p.1 = name <;> simp [h]

theorem nodup_append_fresh {r : Record α} {name : String} (a : α) (h : name ∉ r.names) :
    ((r.pairs ++ [(name, a)]).map Prod.fst).Nodup := by
  rw [List.map_append, List.nodup_append]
  refine ⟨r.nodup, by simp, ?_⟩
  intro x hx y hy
  simp only [List.map_cons, List.map_nil, List.mem_singleton] at hy
  exact fun e => h (hy ▸ e ▸ hx)

/-- Declares a name at the end, unless it is declared. -/
def push? (r : Record α) (name : String) (a : α) : Option (Record α) :=
  if h : name ∈ r.names then none else some ⟨r.pairs ++ [(name, a)], nodup_append_fresh a h⟩

/-- Replaces the value of a declared name in its place. -/
def replace (r : Record α) (name : String) (a : α) : Record α :=
  ⟨replacePairs name a r.pairs, by rw [map_fst_replacePairs]; exact r.nodup⟩

/-- Replaces the value of a name that is declared, and declares one that is not. -/
def put (r : Record α) (name : String) (a : α) : Record α :=
  if h : name ∈ r.names then r.replace name a
  else ⟨r.pairs ++ [(name, a)], nodup_append_fresh a h⟩

/-- Puts the pairs one after another, so that the last value of a name stays. -/
def ofPairs (pairs : List (String × α)) : Record α :=
  pairs.foldl (fun r p => r.put p.1 p.2) empty

end Record
end SimCampaign
