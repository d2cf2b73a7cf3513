import SimCampaign.Param.Assignment
import SimCampaign.Proofs.Record

/-! Assignments that are collected of pairs, and values that are put into them. -/

namespace SimCampaign.Param.Assignment

/-- Whether an assignment is what is collected of pairs: each name once, where it stands first, with
the value that it has last. -/
structure Collects (a : Assignment) (pairs : List (String × Value)) : Prop where
  nodup : a.names.Nodup
  names_eq : a.names = (pairs.map Prod.fst).eraseDups
  mem_pairs_iff : ∀ name v, (name, v) ∈ a.pairs ↔ IsLast pairs name v
  get?_eq_some_iff : ∀ name v, a.get? name = some v ↔ IsLast pairs name v
  get?_eq_none_iff : ∀ name, a.get? name = none ↔ name ∉ pairs.map Prod.fst

theorem collects_ofPairs (pairs : List (String × Value)) : Collects (Record.ofPairs pairs) pairs where
  nodup := (Record.ofPairs pairs).nodup
  names_eq := Record.names_ofPairs pairs
  mem_pairs_iff _ _ := by rw [← Record.get?_eq_some_iff, Record.get?_ofPairs_eq_some_iff]
  get?_eq_some_iff _ _ := Record.get?_ofPairs_eq_some_iff pairs
  get?_eq_none_iff _ := Record.get?_ofPairs_eq_none_iff pairs

/-- Whether the second assignment is the first one with a value put under a name: in its place, or
at the end if the name is new. -/
structure Puts (a b : Assignment) (name : String) (v : Value) : Prop where
  names_eq : b.names = if name ∈ a.names then a.names else a.names ++ [name]
  get?_self : b.get? name = some v
  get?_of_ne : ∀ other ≠ name, b.get? other = a.get? other

theorem puts_put (a : Assignment) (name : String) (v : Value) : Puts a (a.put name v) name v where
  names_eq := Record.names_put a name v
  get?_self := Record.get?_put_self a name v
  get?_of_ne _ h := Record.get?_put_of_ne h v

/-- Pairs are collected by their names, the last value of a name counting, and the pairs of an
assignment are collected to itself. A value that is put changes no other name and no place. The
second of two values of one name stays, and values of two names are found in either order. -/
theorem ofPairs_and_put :
    (∀ pairs, Collects (Record.ofPairs pairs) pairs) ∧
    ∀ a : Assignment, Record.ofPairs a.pairs = a ∧ ∀ name v, Puts a (a.put name v) name v ∧
      (∀ w, (a.put name v).put name w = a.put name w) ∧
      ∀ other ≠ name, ∀ w key,
        ((a.put name v).put other w).get? key = ((a.put other w).put name v).get? key := by
  refine ⟨collects_ofPairs, fun a => ⟨Record.ofPairs_pairs a, fun name v => ?_⟩⟩
  refine ⟨puts_put a name v, fun w => Record.put_put a name v w, fun other h w key => ?_⟩
  exact Record.get?_put_comm h a v w key

/-- A name that repeats keeps its place, and two new names are appended in either order. -/
theorem ofPairs_and_put_repeated :
    let a : Assignment := Record.ofPairs [("x", .int 1), ("y", .bool true), ("x", .int 2)]
    a.names = ["x", "y"] ∧ a.get? "x" = some (.int 2) ∧ a.get? "z" = none ∧ "w" ≠ "z" ∧
      (a.put "y" (.int 3)).names = ["x", "y"] ∧
      ((a.put "z" (.int 4)).put "w" (.int 5)).get? "z" =
        ((a.put "w" (.int 5)).put "z" (.int 4)).get? "z" := by
  intro a
  obtain ⟨hcollects, hputs⟩ := ofPairs_and_put
  have hx : IsLast [("x", .int 1), ("y", .bool true), ("x", .int 2)] "x" (Value.int 2) :=
    ⟨[("x", .int 1), ("y", .bool true)], [], rfl, List.not_mem_nil⟩
  have hnames : a.names = ["x", "y"] := (hcollects _).names_eq
  refine ⟨hnames, ((hcollects _).get?_eq_some_iff ..).2 hx,
    ((hcollects _).get?_eq_none_iff _).2 (by decide), by decide, ?_, ?_⟩
  · rw [((hputs a).2 "y" (.int 3)).1.names_eq, hnames]
    rfl
  · exact ((hputs a).2 "z" (.int 4)).2.2 "w" (by decide) (.int 5) "z"

end SimCampaign.Param.Assignment
