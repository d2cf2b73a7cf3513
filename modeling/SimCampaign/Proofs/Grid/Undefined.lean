import SimCampaign.Proofs.Grid.Aggregate
import SimCampaign.Proofs.Statistics

/-! Estimates from repetitions some of which are undefined. -/

namespace SimCampaign
open Param (Dim Value)
open Grid (Within)

namespace Estimate
variable {runs : ℕ} {xs : List Float}

theorem isNaN_mean_ofLane (h : ∃ x ∈ xs, x.isNaN = true) :
    (ofLane runs xs).mean.isNaN = true :=
  Statistics.isNaN_mean h

theorem isNaN_halfWidth_ofLane (hlen : 2 ≤ xs.length) (h : ∃ x ∈ xs, x.isNaN = true) :
    (ofLane runs xs).halfWidth.isNaN = true := by
  have hdeviation := Statistics.isNaN_populationDeviation hlen h
  exact Binary64.isNaN_div (.inl (Binary64.isNaN_mul (.inr hdeviation)))

/-- The interval of one repetition has no width, even if the repetition is undefined. -/
theorem halfWidth_ofLane_singleton (x : Float) : (ofLane 1 [x]).halfWidth = 0.0 := by
  have hzero : score95 * 0.0 / (Float.ofNat 1).sqrt = 0.0 := by decide +kernel
  rw [ofLane, Statistics.populationDeviation_singleton]
  exact hzero

/-- The estimate of `runs` repetitions one of which is undefined. It has no mean, and no half-width
either, unless there is no other repetition: then the half-width is zero. -/
structure Undefined (e : Estimate) (runs : ℕ) : Prop where
  mean : e.mean.isNaN = true
  halfWidth : e.halfWidth.isNaN = true ↔ runs ≠ 1
  single : runs = 1 → e.halfWidth = 0.0

theorem undefined_ofLane (hlen : xs.length = runs)
    (h : ∃ x ∈ xs, x.isNaN = true) : (ofLane runs xs).Undefined runs := by
  have hzero : (0.0 : Float).isNaN = false := rfl
  have hsingle : runs = 1 → (ofLane runs xs).halfWidth = 0.0 := by
    rintro rfl
    obtain ⟨x, rfl⟩ := List.length_eq_one_iff.1 hlen
    exact halfWidth_ofLane_singleton x
  refine ⟨isNaN_mean_ofLane h, ⟨fun hnan hone => ?_, fun hne => ?_⟩, hsingle⟩
  · rw [hsingle hone, hzero] at hnan
    cases hnan
  · have hpos : 0 < xs.length := by
      obtain ⟨x, hx, -⟩ := h
      exact List.length_pos_of_mem hx
    exact isNaN_halfWidth_ofLane (by omega) h

end Estimate

namespace Aggregate
variable {m : MetricArray} {before after : List Dim} {coords : List Value}

/-- Whatever the other dimensions are and wherever in a lane an undefined repetition is. -/
theorem ofArray_undefined (hfull : m.Full) (h : m.dims = before ++ ⟨runsDim, coords⟩ :: after)
    (hb : runsDim ∉ before.map Dim.name) :
    ∃ g, ofArray m = .ok g ∧ g.dims = before ++ after ∧
      ∀ index rest, Within index (before.map Dim.length) → Within rest (after.map Dim.length) →
        (∃ k < coords.length, ∃ x, m.get? (index ++ k :: rest) = some x ∧ x.isNaN = true) →
          ∃ e, g.grid.get? (index ++ rest) = some e ∧ e.Undefined coords.length := by
  obtain ⟨g, hg, hdims, -, -, hcell⟩ := exists_ofArray h hb
  refine ⟨g, hg, hdims, ?_⟩
  rintro index rest hi hr ⟨k, hk, x, hx, hnan⟩
  have hlane : ∀ j < coords.length, ∃ y, m.get? (index ++ j :: rest) = some y := by
    intro j hj
    have hw : Within (index ++ j :: rest) m.shape := by
      rw [Grid.shape_between h]
      exact List.rel_append hi (.cons hj hr)
    exact Grid.exists_at?_eq_some hfull hw
  obtain ⟨xs, hxs, hlen, hget⟩ := Grid.exists_lane hlane
  refine ⟨_, hcell index rest hi hr, ?_⟩
  rw [hxs]
  have hmem : x ∈ xs := List.mem_of_getElem? ((hget k hk).trans hx)
  exact Estimate.undefined_ofLane hlen ⟨x, hmem, hnan⟩

/-- The second of two repetitions is undefined. -/
theorem ofArray_undefined_secondOfTwo :
    ∃ g, ofArray ⟨[⟨runsDim, [.int 0, .int 1]⟩], [1.0, Statistics.nan]⟩ = .ok g ∧
      ∃ e, g.grid.get? [] = some e ∧ e.mean.isNaN = true ∧ e.halfWidth.isNaN = true := by
  let m : MetricArray := ⟨[⟨runsDim, [.int 0, .int 1]⟩], [1.0, Statistics.nan]⟩
  have hfull : m.Full := rfl
  have hdims : m.dims = [] ++ ⟨runsDim, [.int 0, .int 1]⟩ :: [] := rfl
  obtain ⟨g, hg, -, hcell⟩ := ofArray_undefined hfull hdims List.not_mem_nil
  obtain ⟨e, he, hundefined⟩ := hcell [] [] .nil .nil ⟨1, by decide, _, rfl, rfl⟩
  exact ⟨g, hg, e, he, hundefined.mean, hundefined.halfWidth.2 (by decide)⟩

/-- The only repetition is undefined, and the half-width is zero. -/
theorem ofArray_singleRepetition :
    ∃ g, ofArray ⟨[⟨runsDim, [.int 0]⟩], [Statistics.nan]⟩ = .ok g ∧
      ∃ e, g.grid.get? [] = some e ∧ e.mean.isNaN = true ∧ e.halfWidth.isNaN = false := by
  refine ⟨_, rfl, _, rfl, ?_, ?_⟩
  · exact Statistics.isNaN_mean ⟨Statistics.nan, List.mem_singleton_self _, rfl⟩
  · exact congrArg Float.isNaN (Estimate.halfWidth_ofLane_singleton Statistics.nan)

end Aggregate
end SimCampaign
