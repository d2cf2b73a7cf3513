import SimCampaign.Proofs.Param.Enumeration

/-! A space with one parameter fixed to a candidate: its assignments are those of the whole space
at the index of the candidate. -/

namespace SimCampaign.Param.Space
open Grid (at? cellCount)

variable {s part : Space} {before after : List (String × Entry)} {name : String} {e : Entry}
  {w : Value} {i : Nat} {left right : List Nat}

theorem pick_fixed (hw : e.values[i]? = some w) (hl : left.length = before.length) :
    pick (before ++ (name, .single w) :: after) (left ++ 0 :: right) =
      pick (before ++ (name, e) :: after) (left ++ i :: right) := by
  induction before generalizing left with
  | nil =>
    obtain rfl := List.length_eq_zero_iff.1 hl
    rw [List.nil_append, List.nil_append, List.nil_append, List.nil_append, pick, pick, hw]
    rfl
  | cons entry before ih =>
    cases left with
    | nil => simp at hl
    | cons k left =>
      rw [List.cons_append, List.cons_append, List.cons_append, List.cons_append, pick, pick,
        ih (by simpa using hl)]

theorem at?_fixed (hs : s.pairs = before ++ (name, e) :: after)
    (hp : part.pairs = before ++ (name, .single w) :: after) (hw : e.values[i]? = some w)
    (hl : left.length = before.length) :
    at? (counts part.pairs) (left ++ 0 :: right) part.assignments =
      at? (counts s.pairs) (left ++ i :: right) s.assignments := by
  have hinj : Function.Injective (Record.pairs (α := Value)) := fun _ _ => Record.ext
  refine Option.map_injective hinj ?_
  rw [at?_assignments, at?_assignments, hs, hp, pick_fixed hw hl]

theorem mem_assignments_of_fixed (hs : s.pairs = before ++ (name, e) :: after)
    (hp : part.pairs = before ++ (name, .single w) :: after) (hw : e.values[i]? = some w)
    {a : Assignment} (ha : a ∈ part.assignments) : a ∈ s.assignments := by
  obtain ⟨choice, hc⟩ := exists_at?_of_mem ha
  have hw' := Grid.within_of_at?_eq_some hc
  rw [counts_between hp, Grid.within_append_iff] at hw'
  obtain ⟨left, tail, rfl, hl, ht⟩ := hw'
  cases ht with
  | @cons j _ right _ hj _ =>
    -- The fixed parameter has no index but zero.
    obtain rfl : j = 0 := Nat.lt_one_iff.1 hj
    rw [at?_fixed hs hp hw (length_of_within_counts hl)] at hc
    exact Grid.mem_of_at?_eq_some hc

theorem cells_pos_iff_of_fixed (hs : s.pairs = before ++ (name, e) :: after)
    (hp : part.pairs = before ++ (name, .single w) :: after) (hw : e.values[i]? = some w) :
    0 < part.cells ↔ 0 < s.cells := by
  have hn : 0 < e.values.length := Nat.zero_lt_of_lt (List.getElem?_eq_some_iff.1 hw).1
  have hpos (n) (h : 0 < n) : 0 < cellCount (counts before ++ n :: counts after) ↔
      0 < cellCount (counts before) * cellCount (counts after) := by
    rw [Grid.cellCount_append, Grid.cellCount_cons, Nat.mul_left_comm,
      Nat.mul_pos_iff_of_pos_left h]
  rw [cells_eq_cellCount, cells_eq_cellCount, counts_between hs, counts_between hp, hpos _ hn]
  exact hpos 1 Nat.one_pos

end SimCampaign.Param.Space
