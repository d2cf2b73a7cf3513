import SimCampaign.Proofs.Grid.Aggregate

/-! What is left of an aggregate after dimensions were dropped has a cell for every multi-index. -/

namespace SimCampaign
open Param (Dim Value)

namespace Grid
variable {α : Type} {g : Grid α}

theorem Full.squeezeFirst (hg : g.Full) (n : Nat) : (g.squeezeFirst n).Full := by
  induction n generalizing g with
  | zero => exact hg
  | succ n ih =>
    rw [Grid.squeezeFirst]
    split
    next hn => exact ih (hg.dropAxis hn Nat.one_pos)
    next => exact ih hg

theorem Full.squeeze (hg : g.Full) : g.squeeze.Full := hg.squeezeFirst _

end Grid

namespace Aggregate
variable {a b : Aggregate}

theorem exists_of_axis {dims : List Dim} {name : String} {i : Nat} (h : axis dims name = .ok i) :
    ∃ d, dims[i]? = some d ∧ dims.find? (·.name == name) = some d := by
  rw [axis] at h
  split at h
  next k hi =>
    obtain rfl : k = i := Except.ok.inj h
    rw [Grid.axis?] at hi
    obtain ⟨hlt, -⟩ := List.findIdx?_eq_some_iff_getElem.1 hi
    have hd : dims[k]? = some dims[k] := List.getElem?_eq_getElem hlt
    refine ⟨_, hd, ?_⟩
    rw [List.find?_eq_bind_findIdx?_getElem?, hi]
    exact hd
  next => cases h

theorem full_ofArray {m : MetricArray} (h : ofArray m = .ok a) : a.grid.Full := by
  rw [ofArray, bind_eq_ok_iff] at h
  obtain ⟨i, hi, h⟩ := h
  obtain rfl := Except.ok.inj h
  obtain ⟨d, hd, -⟩ := exists_of_axis hi
  exact Grid.full_reduceAxis (Grid.getElem?_shape_of_dims hd) _

theorem full_select (ha : a.grid.Full) {name : String} {v : Value}
    (h : a.select name v = .ok b) : b.grid.Full := by
  rw [select, bind_eq_ok_iff] at h
  obtain ⟨i, hi, h⟩ := h
  obtain ⟨d, hd, hf⟩ := exists_of_axis hi
  have hn : a.grid.shape[i]? = some d.length := Grid.getElem?_shape_of_dims hd
  have hdim : a.dim? name = some d := hf
  rw [hdim, Option.bind_some] at h
  split at h
  next k hk =>
    obtain rfl := Except.ok.inj h
    exact ha.dropAxis hn (List.findIdx?_eq_some_iff_getElem.1 hk).1
  next => cases h

/-- Whether an aggregate is what some selections and squeezes leave of a reduced array. -/
inductive Obtained : Aggregate → Prop
  | reduced {m : MetricArray} {a : Aggregate} (h : ofArray m = .ok a) : Obtained a
  | squeeze {a : Aggregate} (h : Obtained a) : Obtained a.squeeze
  | select {a b : Aggregate} {name : String} {v : Value} (h : Obtained a)
    (hb : a.select name v = .ok b) : Obtained b

theorem Obtained.full (h : a.Obtained) : a.grid.Full := by
  induction h with
  | reduced h => exact full_ofArray h
  | squeeze _ ih => exact ih.squeeze
  | select _ hb ih => exact full_select ih hb

end Aggregate
end SimCampaign
