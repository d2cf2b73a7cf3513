import SimCampaign.Param.Assignment

/-! Parameter spaces: the candidate values of each parameter, and the assignments that choose one of
each. -/

namespace SimCampaign.Param

/-- A parameter is swept over a list of values or fixed to one. -/
inductive Entry where
  | list (values : List Value)
  | single (value : Value)
  deriving Inhabited

def Entry.values : Entry → List Value
  | .list vs => vs
  | .single v => [v]

/-- A named axis with the coordinate of each index along it. -/
structure Dim where
  name : String
  coords : List Value

namespace Dim

def length (d : Dim) : Nat := d.coords.length

def isEmpty (d : Dim) : Bool := d.coords.isEmpty

/-- The first index whose coordinate is equal to the value. -/
def position? (d : Dim) (v : Value) : Option Nat := d.coords.findIdx? (· == v)

end Dim

abbrev Space := Record Entry

namespace Space

def push (s : Space) (name : String) (e : Entry) : Except Error Space :=
  match s.push? name e with
  | some s => .ok s
  | none => .error (.duplicate name)

def set (s : Space) (name : String) (e : Entry) : Except Error Space :=
  if name ∈ s.names then .ok (s.replace name e) else .error (.unknown name)

def pushAll (s : Space) : List (String × Entry) → Except Error Space
  | [] => .ok s
  | (name, e) :: rest => do (← s.push name e).pushAll rest

/-- The space of the entries in their order. Fails at the first name that is there before. -/
def ofEntries (entries : List (String × Entry)) : Except Error Space := pushAll Record.empty entries

/-- One dimension a parameter; a fixed parameter has one coordinate. -/
def dims (s : Space) : List Dim := s.pairs.map fun (name, e) => ⟨name, e.values⟩

def counts (entries : List (String × Entry)) : List Nat := entries.map fun p => p.2.values.length

/-- The product of the numbers of candidates, from the first on, modulo `UInt64.size`. -/
def size (s : Space) : UInt64 := (counts s.pairs).foldl (fun n k => n * UInt64.ofNat k) 1

/-- All choices of one value for each name. The last name varies fastest. -/
def choices : List (String × Entry) → List (List (String × Value))
  | [] => [[]]
  | (name, e) :: rest =>
    if e.values.isEmpty then []
    else
      let tails := choices rest
      e.values.flatMap fun v => tails.map ((name, v) :: ·)

theorem choices_cons (name : String) (e : Entry) (rest : List (String × Entry)) :
    choices ((name, e) :: rest) =
      e.values.flatMap fun v => (choices rest).map ((name, v) :: ·) := by
  cases h : e.values with
  | nil => simp [choices, h]
  | cons v vs => simp [choices, h]

theorem map_fst_of_mem_choices {entries : List (String × Entry)} {c : List (String × Value)}
    (h : c ∈ choices entries) : c.map Prod.fst = entries.map Prod.fst := by
  induction entries generalizing c with
  | nil => simp_all [choices]
  | cons entry rest ih =>
    obtain ⟨name, e⟩ := entry
    rw [choices_cons] at h
    obtain ⟨v, -, hc⟩ := List.mem_flatMap.1 h
    obtain ⟨c', hc', rfl⟩ := List.mem_map.1 hc
    simp [ih hc']

def assignments (s : Space) : List Assignment :=
  (choices s.pairs).attach.map fun c => ⟨c.1, by rw [map_fst_of_mem_choices c.2]; exact s.nodup⟩

end Space
end SimCampaign.Param
