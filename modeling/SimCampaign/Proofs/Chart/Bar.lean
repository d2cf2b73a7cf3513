import SimCampaign.Chart.Bar
import SimCampaign.Proofs.Chart.Fixing
import SimCampaign.Proofs.Except

/-! The group of a bar chart, its series, and the chart that is drawn of them. -/

namespace SimCampaign.Chart
open Aggregate (Named)
open Grid (placeAt)
open Param (Dim Value)

variable {a : Aggregate} {group metrics : Dim}

/-- The bars of the value `v`, at the index `j` of the group: the cells along the metrics. -/
def HoldsBars (a : Aggregate) (group metrics : Dim) (j : Nat) (v : Value) (s : BarSeries) : Prop :=
  s.name = group.name ++ "=" ++ v.display ∧
    a.ReadsAt metrics.length (fun k => placeAt metrics.name group.name k j) s.values s.errors

/-- The metrics, a group, and no other dimension of more or less than one coordinate. -/
structure Groups (a : Aggregate) (group metrics : Dim) : Prop where
  named : a.Named
  group_mem : group ∈ a.dims
  metrics_mem : metrics ∈ a.dims
  metrics_name : metrics.name = metricsDim
  ne : metricsDim ≠ group.name
  others : ∀ d ∈ a.dims, d.name ≠ group.name → d.name ≠ metricsDim → d.length = 1

theorem groupDim_eq_ok_iff (ha : a.Named) {name : String} :
    groupDim a = .ok name ↔ ∃ d ∈ a.dims, d.name = name ∧ name ≠ metricsDim ∧ 1 < d.length ∧
      ∀ e ∈ a.dims, e.name ≠ metricsDim → 1 < e.length → e.name = name := by
  have hmem (e : Dim) : e ∈ a.dims.filter (fun d => d.name != metricsDim && decide (1 < d.length)) ↔
      e ∈ a.dims ∧ e.name ≠ metricsDim ∧ 1 < e.length := by
    simp only [List.mem_filter, Bool.and_eq_true, bne_iff_ne, decide_eq_true_eq]
  constructor
  · intro h
    rw [groupDim] at h
    split at h
    · next d hd =>
      obtain rfl : d.name = name := Except.ok.inj h
      obtain ⟨hdm, hdn, hdl⟩ := (hmem d).1 (hd ▸ List.mem_singleton_self d)
      refine ⟨d, hdm, rfl, hdn, hdl, fun e he hn hl => ?_⟩
      have hed : e ∈ [d] := hd ▸ (hmem e).2 ⟨he, hn, hl⟩
      rw [List.mem_singleton.1 hed]
    · cases h
  · rintro ⟨d, hd, rfl, hn, hl, huniq⟩
    have hf := ha.filter_eq_singleton hd
      (p := fun d => d.name != metricsDim && decide (1 < d.length)) fun e he => ?_
    · rw [groupDim, hf]
    · rw [Bool.and_eq_true, bne_iff_ne, decide_eq_true_eq]
      constructor
      · exact fun ⟨hen, hel⟩ => huniq e he hen hel
      · intro hed
        obtain rfl := ha.eq_of_name_eq he hd hed
        exact ⟨hn, hl⟩

namespace Groups

theorem exists_fixed (h : Groups a group metrics) :
    ∃ g, fixSingles (fun d => d.name != group.name && d.name != metricsDim) a.dims a = .ok g ∧
      g.Named ∧ group ∈ g.dims ∧ (g.dims.map Dim.name).filter (· != metricsDim) = [group.name] ∧
      g.dims.filter (·.name != group.name) = [metrics] ∧
      ∀ k j, g.grid.cell? (placeAt metrics.name group.name k j) =
        a.grid.cell? (placeAt metrics.name group.name k j) := by
  obtain ⟨g, hg, hd, hn, hc⟩ :=
    exists_fixSingles h.named fun d => d.name != group.name && d.name != metricsDim
  -- Only the group and the metrics are not fixed, since every other dimension is single.
  have hkept (d) (hd : d ∈ a.dims) :
      (!single (fun d => d.name != group.name && d.name != metricsDim) d) = true ↔
        d.name = group.name ∨ d.name = metricsDim := by
    by_cases hg : d.name = group.name
    · simp [single, hg]
    · by_cases hm : d.name = metricsDim
      · simp [single, hm]
      · simp [single, hg, hm, h.others d hd hg hm]
  have hm := h.metrics_name
  have hne := h.ne
  refine ⟨g, hg, hn, ?_, ?_, ?_, fun k j => hc _ fun d hdm hs => ?_⟩
  · rw [hd]
    exact List.mem_filter.2 ⟨h.group_mem, (hkept _ h.group_mem).2 (.inl rfl)⟩
  · rw [hd, List.filter_map, List.filter_filter,
      h.named.filter_eq_singleton h.group_mem fun e he => ?_, List.map_singleton]
    rw [Bool.and_eq_true, hkept e he, Function.comp_apply, bne_iff_ne]
    constructor
    · rintro ⟨hen, hen' | hen'⟩
      · exact hen'
      · exact absurd hen' hen
    · exact fun he => ⟨he ▸ hne.symm, .inl he⟩
  · rw [hd, List.filter_filter]
    refine h.named.filter_eq_singleton h.metrics_mem fun e he => ?_
    rw [Bool.and_eq_true, hkept e he, bne_iff_ne, hm]
    constructor
    · rintro ⟨hen, hen' | hen'⟩
      · exact absurd hen' hen
      · exact hen'
    · exact fun he => ⟨he ▸ hne, .inr he⟩
  · have hf := (Bool.and_eq_true_iff.1 hs).1
    simp only [Bool.and_eq_true, bne_iff_ne] at hf
    exact Grid.placeAt_of_ne (hm ▸ hf.2) hf.1

/-- One series for each value of the group, at the first coordinate equal to the value. -/
theorem exists_barGroups (h : Groups a group metrics) :
    ∃ ss, barGroups a group.name = .ok ss ∧ List.Forall₂ (fun v s =>
      ∃ j, group.position? v = some j ∧ HoldsBars a group metrics j v s) group.coords ss := by
  obtain ⟨g, hg, hn, hgm, hrest, hdims, hc⟩ := h.exists_fixed
  have hne : metrics.name ≠ group.name := h.metrics_name ▸ h.ne
  have hseries (v) (hv : v ∈ group.coords) : ∃ s, groupSeries g group.name v = .ok s ∧
      ∃ j, group.position? v = some j ∧ HoldsBars a group metrics j v s := by
    obtain ⟨j, hj⟩ := Dim.exists_position? hv
    obtain ⟨values, errors, hs, hr⟩ := hn.exists_select_series hgm hdims hj
    refine ⟨⟨seriesName group.name v, values, errors⟩, ?_, j, hj, rfl, ?_⟩
    · rw [groupSeries, ofAggregate, hs]
      rfl
    · exact (hr _ fun k => ⟨Grid.placeAt_right hne, Grid.placeAt_left⟩).congr fun k => hc k j
  obtain ⟨ss, hss⟩ := exists_forall₂ hseries
  refine ⟨ss, ?_, hss.imp fun _ _ hs => hs.2⟩
  have hmetrics : (a.dim? metricsDim).isNone = false := by
    rw [← h.metrics_name, h.named.dim? h.metrics_mem]
    rfl
  have hall : group.coords.mapM (groupSeries g group.name) = .ok ss :=
    mapM_eq_ok_iff.2 (hss.imp fun _ _ hs => hs.1)
  rw [barGroups, hmetrics]
  simp only [hg, bind, Except.bind, hrest, ne_eq, not_true_eq_false, if_false, hn.dim? hgm]
  exact hall

end Groups

theorem BarPlot.render_of_lengths {p : BarPlot} {ss : List BarSeries}
    (h : ∀ s ∈ ss, s.values.length = p.ticks.length ∧ s.errors.length = p.ticks.length) :
    ∃ f, p.render ss = .ok f ∧ f.traces = ss.map fun s => .bar s.name p.ticks s.values s.errors := by
  have ht : ss.mapM (trace p.ticks) =
      .ok (ss.map fun s => .bar s.name p.ticks s.values s.errors) := by
    refine mapM_eq_ok_iff.2 (List.forall₂_map_right_iff.2 (List.forall₂_same.2 fun s hs => ?_))
    rw [trace, if_neg (not_not.2 (h s hs).1), if_neg (not_not.2 (h s hs).2)]
  rw [render, ht]
  exact ⟨_, rfl, rfl⟩

theorem groups_of_groupDim (ha : a.Named) (hm : a.dim? metricsDim = some metrics)
    (hpos : ∀ d ∈ a.dims, 0 < d.length) {name : String} (h : groupDim a = .ok name) :
    ∃ group, a.dim? name = some group ∧ group.name = name ∧ Groups a group metrics := by
  obtain ⟨hmm, hmn⟩ := Aggregate.mem_of_dim? hm
  obtain ⟨group, hg, rfl, hne, hl, huniq⟩ := (groupDim_eq_ok_iff ha).1 h
  refine ⟨group, ha.dim? hg, rfl, ha, hg, hmm, hmn, hne.symm, fun d hd hdg hdm => ?_⟩
  have hle : ¬1 < d.length := fun hl => hdg (huniq d hd hdm hl)
  have hp : 0 < d.length := hpos d hd
  omega

/-- The group is told if and only if it is the only one. Then its series hold the cells of its
coordinates, in whatever order the dimensions stand, and fit the ticks. -/
theorem groupDim_and_bars (ha : a.Named) (hm : a.dim? metricsDim = some metrics)
    (hpos : ∀ d ∈ a.dims, 0 < d.length) (name : String) :
    (groupDim a = .ok name ↔ ∃ d ∈ a.dims, d.name = name ∧ name ≠ metricsDim ∧ 1 < d.length ∧
      ∀ e ∈ a.dims, e.name ≠ metricsDim → 1 < e.length → e.name = name) ∧
    (groupDim a = .ok name → ∃ group, a.dim? name = some group ∧ (group.Distinct →
      ∃ ss, barGroups a name = .ok ss ∧ ss.length = group.length ∧
        (∀ j v, group.coords[j]? = some v →
          ∃ s, ss[j]? = some s ∧ HoldsBars a group metrics j v s) ∧
        ∀ p : BarPlot, p.ticks = metrics.coords.map Value.display → ∃ f, p.render ss = .ok f ∧
          f.traces = ss.map fun s => .bar s.name p.ticks s.values s.errors)) := by
  refine ⟨groupDim_eq_ok_iff ha, fun h => ?_⟩
  obtain ⟨group, hg, rfl, hgs⟩ := groups_of_groupDim ha hm hpos h
  obtain ⟨ss, hb, hss⟩ := hgs.exists_barGroups
  refine ⟨group, hg, fun hdist => ⟨ss, hb, hss.length_eq.symm, fun j v hv => ?_, fun p hp => ?_⟩⟩
  · obtain ⟨s, hs, k, hk, hbars⟩ := getElem?_of_forall₂ hss hv
    obtain rfl := Option.some.inj (hk.symm.trans (hdist.position? hv))
    exact ⟨s, hs, hbars⟩
  · refine BarPlot.render_of_lengths fun s hs => ?_
    obtain ⟨v, -, j, -, hbars⟩ := exists_of_mem_forall₂ hss hs
    rw [hp, List.length_map]
    exact ⟨hbars.2.1, hbars.2.2.1⟩

/-- Metrics before a group of two values, with a dimension of length one between them. -/
def stations : Aggregate :=
  ⟨⟨[⟨metricsDim, [.text "total", .text "station"]⟩, ⟨"load", [.int 3]⟩,
      ⟨"mode", [.bool false, .bool true]⟩],
    [⟨1, 0⟩, ⟨2, 0⟩, ⟨3, 0⟩, ⟨4, 0⟩]⟩, 1⟩

theorem stations_bars :
    groupDim stations = .ok "mode" ∧ ∃ ss, barGroups stations "mode" = .ok ss ∧ ss.length = 2 ∧
      ∃ s, ss[1]? = some s ∧ HoldsBars stations ⟨"mode", [.bool false, .bool true]⟩
        ⟨metricsDim, [.text "total", .text "station"]⟩ 1 (.bool true) s := by
  have hp : ∀ d ∈ stations.dims, 0 < d.length := by decide
  have hb := (groupDim_and_bars (a := stations) ⟨rfl, by decide⟩ rfl hp "mode").2 rfl
  obtain ⟨group, hg, hd⟩ := hb
  obtain rfl := Option.some.inj hg
  obtain ⟨ss, hss, hl, hbars, -⟩ := hd (List.pairwise_pair.2 rfl)
  exact ⟨rfl, ss, hss, hl, hbars 1 _ rfl⟩

end SimCampaign.Chart
