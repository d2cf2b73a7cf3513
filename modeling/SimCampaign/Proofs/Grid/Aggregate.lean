import SimCampaign.Grid.Aggregate
import SimCampaign.Proofs.Except
import SimCampaign.Proofs.Grid.Axis

/-! Reducing and selecting by name. A name stands for the first dimension of that name. -/

namespace SimCampaign
open Param (Dim Value)
open Grid (Within)

variable {before after : List Dim} {name : String} {coords : List Value}

theorem Grid.axis?_between (h : name ∉ before.map Dim.name) :
    axis? (before ++ ⟨name, coords⟩ :: after) name = some before.length := by
  have hb : before.findIdx? (·.name == name) = none := by
    refine List.findIdx?_eq_none_iff.2 fun d hd => beq_false_of_ne fun he => h ?_
    exact List.mem_map.2 ⟨d, hd, he⟩
  rw [axis?, List.findIdx?_append, hb, List.findIdx?_cons, beq_self_eq_true, if_pos rfl,
    Option.none_or, Option.map_some, Nat.zero_add]

theorem Grid.find?_between (h : name ∉ before.map Dim.name) :
    (before ++ ⟨name, coords⟩ :: after).find? (·.name == name) = some ⟨name, coords⟩ := by
  have ha : axis? (before ++ ⟨name, coords⟩ :: after) name = some before.length :=
    axis?_between h
  rw [axis?] at ha
  rw [List.find?_eq_bind_findIdx?_getElem?, ha]
  simp

namespace Aggregate

theorem exists_ofArray {m : MetricArray} (h : m.dims = before ++ ⟨runsDim, coords⟩ :: after)
    (hb : runsDim ∉ before.map Dim.name) :
    ∃ g, ofArray m = .ok g ∧ g.dims = before ++ after ∧ g.runs = coords.length ∧ g.grid.Full ∧
      ∀ index rest, Within index (before.map Dim.length) → Within rest (after.map Dim.length) →
        g.grid.get? (index ++ rest) = some (Estimate.ofLane coords.length
          ((List.range coords.length).filterMap fun k => m.get? (index ++ k :: rest))) := by
  have hn : m.shape[before.length]? = some coords.length := Grid.getElem?_shape h
  have ho : ofArray m =
      .ok ⟨m.reduceAxis before.length (Estimate.ofLane coords.length), coords.length⟩ := by
    rw [ofArray, axis, h, Grid.axis?_between hb]
    simp only [bind, Except.bind, List.getD_eq_getElem?_getD, hn, Option.getD_some]
  refine ⟨_, ho, ?_, rfl, Grid.full_reduceAxis hn _, fun index rest hi hr => ?_⟩
  · rw [dims, Grid.reduceAxis, h, Grid.eraseIdx_length_append]
  · exact Grid.get?_reduceAxis_between h _ hi hr

theorem exists_select {a : Aggregate} (ha : a.grid.Full)
    (h : a.dims = before ++ ⟨name, coords⟩ :: after) (hb : name ∉ before.map Dim.name) {v : Value}
    {k : Nat} (hk : coords.findIdx? (· == v) = some k) :
    ∃ g, a.select name v = .ok g ∧ g.dims = before ++ after ∧ g.runs = a.runs ∧ g.grid.Full ∧
      ∀ index rest, index.length = before.length →
        g.grid.get? (index ++ rest) = a.grid.get? (index ++ k :: rest) := by
  have hd : a.dim? name = some ⟨name, coords⟩ := by
    rw [dim?, Grid.dim?, ← dims, h, Grid.find?_between hb]
  have hs : a.select name v = .ok { a with grid := a.grid.dropAxis before.length k } := by
    rw [select, axis, h, Grid.axis?_between hb, hd]
    simp only [bind, Except.bind, Option.bind, Dim.position?, hk]
  have hl : k < coords.length := (List.findIdx?_eq_some_iff_getElem.1 hk).1
  refine ⟨_, hs, ?_, rfl, ha.dropAxis (Grid.getElem?_shape h) hl, fun index rest hi => ?_⟩
  · have he : a.grid.dims = _ := h
    rw [dims, Grid.dropAxis, he, Grid.eraseIdx_length_append]
  · exact Grid.get?_dropAxis_between ha h hl hi rest

end Aggregate
end SimCampaign
