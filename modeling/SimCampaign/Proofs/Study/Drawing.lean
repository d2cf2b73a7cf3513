import SimCampaign.Proofs.Chart.Bar
import SimCampaign.Proofs.Chart.Line
import SimCampaign.Proofs.Study.Keeping
import SimCampaign.Proofs.Study.Supply
import SimCampaign.Proofs.Study.Sweep

/-! The charts of a sweep, one by one: what each of them shows, and that it can be drawn. -/

namespace SimCampaign.Study
open Campaign (Results)
open Chart (Groups)
open Grid (placeAt)
open Param (Dim Entry Space Value)
open Param.Space (outline)
open Sweep (candidates)

def axisOf (space : Space) (name : String) : Dim := ⟨name, candidates space name⟩

/-- The line of the value `v`, at the index `j` of the hue: the cells along the x axis, at their
positions on it. -/
def DrawsLine (s : Sweep) (a : Aggregate) (j : Nat) (v : Value) (t : Chart.Trace) : Prop :=
  ∃ y errors, t = .line (some (s.hue ++ "=" ++ v.display)) (.ofValues s.xValues) y errors ∧
    a.ReadsAt (candidates s.space s.x).length (fun i => placeAt s.x s.hue i j) y errors

/-- A line chart of the sweep, with a line for each value of the hue. -/
structure LineDrawn (results : Results) (runs : Nat) (s : Sweep) (l : Layout)
    (m : String × Metric.Reducer) (d : Drawing) : Prop where
  place : d.folder = l.lineFolder ∧ d.file = m.1
  table : aggregate results runs s.space m.2 = .ok d.table
  lines : List.Forall₂ (fun v t => ∃ j, (axisOf s.space s.hue).position? v = some j ∧
    DrawsLine s d.table j v t) (candidates s.space s.hue) d.figure.traces

/-- The bars of the value `v`, at the index `j` of the group: one at each tick, for the cells along
the metrics. -/
def DrawsBars (a : Aggregate) (group metrics : Dim) (j : Nat) (v : Value) (t : Chart.Trace) : Prop :=
  ∃ values errors,
    t = .bar (group.name ++ "=" ++ v.display) (metrics.coords.map Value.display) values errors ∧
    a.ReadsAt metrics.length (fun k => placeAt metrics.name group.name k j) values errors

/-- A bar chart of one folder of the sweep, with a series of bars for each value of the parameter
that is swept besides. -/
structure BarDrawn (results : Results) (runs : Nat) (s : Sweep) (l : Layout)
    (m : String × Metric.Reducer) (folder : String × Value) (d : Drawing) : Prop where
  place : d.folder = l.barFolder folder.1 ∧ d.file = m.1
  table : ∃ part, s.space.set s.forEach (.single folder.2) = .ok part ∧
    aggregate results runs part m.2 = .ok d.table
  bars : ∃ group metrics, (group = s.x ∨ group = s.hue) ∧ group ≠ s.forEach ∧
    d.table.dim? metricsDim = some metrics ∧
    List.Forall₂ (fun v t => ∃ j, (axisOf s.space group).position? v = some j ∧
      DrawsBars d.table (axisOf s.space group) metrics j v t)
      (candidates s.space group) d.figure.traces

section Axes
variable {space : Space} {name : String}

theorem axisOf_mem (h : name ∈ space.names) : axisOf space name ∈ space.dims := by
  obtain ⟨e, he⟩ := Record.exists_mem_pairs h
  rw [axisOf, candidates_of_mem he]
  exact List.mem_map_of_mem (f := fun p : String × Entry => (⟨p.1, p.2.values⟩ : Dim)) he

theorem mem_outline_of_mem_dims {d : Dim} (h : d ∈ space.dims) :
    (d.name, d.length) ∈ outline space.pairs := by
  obtain ⟨p, hp, rfl⟩ := List.mem_map.1 h
  exact Space.mem_outline hp

theorem mem_names_iff : name ∈ space.names ↔ name ∈ (outline space.pairs).map Prod.fst := by
  rw [Space.map_fst_outline]
  rfl

end Axes

section Line
variable {results : Results} {runs : Nat} {s : Sweep} {n : Normalization}

theorem Charted.cells_pos {space : Space} {x hue forEach : String}
    (h : Charted (outline space.pairs) x hue forEach) : 0 < space.cells := by
  rw [Space.cells_eq_cellCount, Nat.pos_iff_ne_zero]
  intro hz
  obtain ⟨p, hp, h0⟩ := List.mem_map.1 (Grid.cellCount_eq_zero.1 hz)
  have hm : (p.1, p.2.values.length) ∈ outline space.pairs := Space.mem_outline hp
  by_cases hs : p.1 = x ∨ p.1 = hue
  · have := h.swept _ hm hs
    omega
  · have := h.fixed _ hm (fun hx => hs (.inl hx)) fun hh => hs (.inr hh)
    omega

theorem Plottable.spans (h : Plottable s) {a : Aggregate} (hd : a.dims = s.space.dims)
    (hn : a.Named) : Chart.LinePlot.Spans a (axisOf s.space s.x) (axisOf s.space s.hue) where
  named := hn
  x_mem := hd ▸ axisOf_mem (mem_names_iff.2 h.charted.x_mem)
  hue_mem := hd ▸ axisOf_mem (mem_names_iff.2 h.charted.hue_mem)
  ne := h.charted.ne
  extra := by
    refine List.filter_eq_nil_iff.2 fun d hdm hf => ?_
    simp only [List.contains_cons, List.contains_nil, Bool.or_false, Bool.not_or, Bool.and_eq_true,
      Bool.not_eq_true', beq_eq_false_iff_ne, bne_iff_ne] at hf
    exact hf.2 (h.charted.fixed _ (mem_outline_of_mem_dims (hd ▸ hdm)) hf.1.1 hf.1.2)

theorem exists_lineDrawn (h : Plottable s) (hr : 0 < runs) (hsup : Supplies results s.space runs n)
    (l : Layout) {c : LineChart} (hc : (c.file, c.reducer) ∈ lineMetrics n) :
    ∃ d, LineDrawn results runs s l (c.file, c.reducer) d ∧ lineFigure s c d.table = .ok d.figure := by
  obtain ⟨a, ha, hd, hn⟩ := exists_aggregate (hsup.uniform_line hc) hr h.charted.cells_pos
    (Option.some_ne_none _).symm (fun hm => h.charted.runs (mem_names_iff.1 hm))
    fun hm => h.charted.metrics (mem_names_iff.1 hm)
  have hspans := h.spans (hd.trans (List.append_nil _)) hn
  have hfits : (linePlot s c).FitsValues (axisOf s.space s.x) := fun vs hvs => by
    obtain rfl := Option.some.inj hvs
    exact h.xValues
  obtain ⟨ts, hts, hlines⟩ := hspans.exists_render (p := linePlot s c) rfl rfl hfits
  refine ⟨⟨l.lineFolder, c.file, (linePlot s c).figure ts, a⟩, ⟨⟨rfl, rfl⟩, ha, hlines⟩, ?_⟩
  rw [lineFigure, hts]
  rfl

end Line

section Bar
variable {results : Results} {runs : Nat} {s : Sweep} {n : Normalization} {v : Value}

theorem Charted.exists_group {entries : List (String × Nat)} {x hue forEach : String}
    (h : Charted entries x hue forEach) :
    ∃ g ∈ entries.map Prod.fst, (g = x ∨ g = hue) ∧ g ≠ forEach ∧
      (∀ p ∈ entries, p.1 = g → 1 < p.2) ∧
      ∀ p ∈ entries, p.1 ≠ g → p.1 ≠ forEach → p.2 = 1 := by
  rcases h.folder with rfl | rfl
  · exact ⟨hue, h.hue_mem, .inr rfl, h.ne.symm, fun p hp hg => h.swept p hp (.inr hg),
      fun p hp hg hf => h.fixed p hp hf hg⟩
  · exact ⟨x, h.x_mem, .inl rfl, h.ne, fun p hp hg => h.swept p hp (.inl hg), h.fixed⟩

theorem Charted.length_stations {space : Space} {x hue forEach : String} {e : Entry}
    (h : Charted (outline space.pairs) x hue forEach) (hne : Metric.Name.stations ≠ forEach)
    (he : (Metric.Name.stations, e) ∈ space.pairs) : e.values.length = 1 := by
  refine h.fixed _ (Space.mem_outline he) (fun hx => hne ?_) fun hh => hne ?_
  · exact h.stations (.inl hx)
  · exact h.stations (.inr hh)

/-- The space of a bar chart, which has the one value for its folder. -/
structure IsPart (s : Sweep) (v : Value) (part : Space) : Prop where
  set : s.space.set s.forEach (.single v) = .ok part
  built : barSpace s v = .ok part
  cells_pos : 0 < part.cells
  names : part.names = s.space.names
  folder : ∀ e, (s.forEach, e) ∈ part.pairs → e = .single v
  others : ∀ name e, name ≠ s.forEach → ((name, e) ∈ part.pairs ↔ (name, e) ∈ s.space.pairs)
  stations : ∃ e w, (Metric.Name.stations, e) ∈ part.pairs ∧ e.values = [w]
  assignments : ∀ a ∈ part.assignments, a ∈ s.space.assignments

theorem Plottable.exists_isPart (h : Plottable s) (hv : v ∈ candidates s.space s.forEach) :
    ∃ part, IsPart s v part := by
  have hf : s.forEach ∈ s.space.names := by
    rcases h.charted.folder with hf | hf
    · exact mem_names_iff.2 (hf ▸ h.charted.x_mem)
    · exact mem_names_iff.2 (hf ▸ h.charted.hue_mem)
  obtain ⟨e, he⟩ := Record.exists_mem_pairs hf
  rw [candidates_of_mem he] at hv
  obtain ⟨i, hi⟩ := List.mem_iff_getElem?.1 hv
  -- The space of the folder is the one of the sweep with this one entry replaced.
  obtain ⟨before, after, hs⟩ := List.append_of_mem he
  have hp := Record.pairs_replace hs (.single v)
  have hpart := Record.mem_pairs_replace hf (.single v)
  have hother (name : String) (e : Entry) (hn : name ≠ s.forEach) :
      (name, e) ∈ (s.space.replace s.forEach (.single v)).pairs ↔ (name, e) ∈ s.space.pairs :=
    Record.mem_replacePairs_of_ne hn
  have hst : ∃ e w, (Metric.Name.stations, e) ∈ (s.space.replace s.forEach (.single v)).pairs ∧
      e.values = [w] := by
    by_cases hne : Metric.Name.stations = s.forEach
    · exact ⟨.single v, v, hne ▸ hpart, rfl⟩
    · obtain ⟨e, he⟩ := Record.exists_mem_pairs (mem_names_iff.2 h.charted.stations_mem)
      obtain ⟨w, hw⟩ := List.length_eq_one_iff.1 (h.charted.length_stations hne he)
      exact ⟨e, w, (hother _ _ hne).2 he, hw⟩
  refine ⟨s.space.replace s.forEach (.single v), Space.set_of_mem hf _, ?_, ?_,
    Space.names_replace .., fun e he => ?_,
    hother, hst, fun a ha => Space.mem_assignments_of_fixed hs hp hi ha⟩
  · obtain ⟨e, w, he, hw⟩ := hst
    rw [barSpace, Space.set_of_mem hf]
    simp only [Except.mapError, bind, Except.bind, Record.get?_eq_some_iff.2 he, Option.map_some, hw,
      List.length_singleton, if_true]
  · exact (Space.cells_pos_iff_of_fixed hs hp hi).2 h.charted.cells_pos
  · exact Option.some.inj
      ((Record.get?_eq_some_iff.2 he).symm.trans (Record.get?_eq_some_iff.2 hpart))

theorem Plottable.exists_groups (h : Plottable s) {part : Space} (hpart : IsPart s v part)
    {a : Aggregate} {metrics : Dim} (hd : a.dims = part.dims ++ [metrics]) (hn : a.Named)
    (hm : metrics.name = metricsDim) :
    ∃ g, (g = s.x ∨ g = s.hue) ∧ g ≠ s.forEach ∧ 1 < (axisOf s.space g).length ∧
      Groups a (axisOf s.space g) metrics := by
  obtain ⟨g, hg, hswept, hne, hlong, hshort⟩ := h.charted.exists_group
  obtain ⟨e, he⟩ := Record.exists_mem_pairs (mem_names_iff.2 hg)
  have haxis : axisOf s.space g ∈ part.dims := by
    rw [axisOf, candidates_of_mem he]
    exact List.mem_map_of_mem (f := Space.dim) ((hpart.others g e hne).2 he)
  have hfree : metricsDim ≠ g := fun he => h.charted.metrics (he ▸ hg)
  refine ⟨g, hswept, hne, ?_, hn, ?_, ?_, hm, hfree, fun d hdm hdg hdf => ?_⟩
  · rw [axisOf, candidates_of_mem he]
    exact hlong _ (Space.mem_outline he) rfl
  · exact hd ▸ List.mem_append_left _ haxis
  · exact hd ▸ List.mem_append_right _ (List.mem_singleton_self _)
  · rw [hd, List.mem_append, List.mem_singleton] at hdm
    rcases hdm with hdm | rfl
    · obtain ⟨p, hp, rfl⟩ := List.mem_map.1 hdm
      by_cases hpf : p.1 = s.forEach
      · have hs := hpart.folder p.2 (hpf ▸ hp)
        exact congrArg (fun e : Entry => e.values.length) hs
      · exact hshort _ (Space.mem_outline ((hpart.others p.1 p.2 hpf).1 hp)) hdg hpf
    · exact absurd hm hdf

theorem exists_barFigure {a : Aggregate} {group metrics : Dim} (h : Groups a group metrics)
    (hl : 1 < group.length) (c : BarChart) :
    ∃ f, a.dim? metricsDim = some metrics ∧ barFigure c a = .ok f ∧
      List.Forall₂ (fun v t => ∃ j, group.position? v = some j ∧ DrawsBars a group metrics j v t)
        group.coords f.traces := by
  have hgroup : Chart.groupDim a = .ok group.name := by
    refine (Chart.groupDim_eq_ok_iff h.named).2 ⟨_, h.group_mem, rfl, h.ne.symm, hl, ?_⟩
    intro d hdm hdf hdl
    by_contra hdg
    exact Nat.ne_of_gt hdl (h.others d hdm hdg hdf)
  have hmetrics : a.dim? metricsDim = some metrics :=
    h.metrics_name ▸ h.named.dim? h.metrics_mem
  have hticks : ticks a = metrics.coords.map Value.display := by
    rw [ticks, hmetrics, Option.map_some, Option.getD_some]
  obtain ⟨ss, hss, hbars⟩ := h.exists_barGroups
  obtain ⟨f, hf, htraces⟩ := Chart.BarPlot.render_of_lengths
    (p := { xLabel := "Node ID", yLabel := c.yLabel, ticks := ticks a }) fun b hb => by
      obtain ⟨v, -, j, -, hb⟩ := exists_of_mem_forall₂ hbars hb
      rw [hticks, List.length_map]
      exact ⟨hb.2.1, hb.2.2.1⟩
  refine ⟨f, hmetrics, ?_, ?_⟩
  · rw [barFigure, hgroup]
    simp only [bind, Except.bind, hss]
    exact hf
  · rw [htraces, List.forall₂_map_right_iff]
    refine hbars.imp fun v b ⟨j, hj, hname, hreads⟩ => ⟨j, hj, b.values, b.errors, ?_, hreads⟩
    rw [hname, hticks]

theorem exists_barDrawn (h : Plottable s) (hr : 0 < runs) (hsup : Supplies results s.space runs n)
    (l : Layout) {c : BarChart} (hc : (c.file, c.reducer) ∈ barMetrics n) {folder : String × Value}
    (hf : folder.2 ∈ candidates s.space s.forEach) :
    ∃ d part, BarDrawn results runs s l (c.file, c.reducer) folder d ∧
      barSpace s folder.2 = .ok part ∧ aggregate results runs part c.reducer = .ok d.table ∧
      barFigure c d.table = .ok d.figure := by
  obtain ⟨part, hpart⟩ := h.exists_isPart hf
  obtain ⟨e, w, he, hw⟩ := hpart.stations
  obtain ⟨k, hu⟩ := (hsup.mono hpart.assignments).exists_uniform_bar hr hpart.cells_pos he hw hc
  have hfree (name : String) (hn : name ∉ (outline s.space.pairs).map Prod.fst) :
      name ∉ part.names := fun hm => hn (mem_names_iff.1 (hpart.names ▸ hm))
  obtain ⟨a, ha, hd, hn⟩ := exists_aggregate hu hr hpart.cells_pos (by simp)
    (hfree _ h.charted.runs) (hfree _ h.charted.metrics)
  obtain ⟨g, hswept, hne, hlong, hgroups⟩ := h.exists_groups hpart hd hn rfl
  obtain ⟨f, hmetrics, hf, hbars⟩ := exists_barFigure hgroups hlong c
  exact ⟨⟨l.barFolder folder.1, c.file, f, a⟩, part, ⟨⟨rfl, rfl⟩, ⟨part, hpart.set, ha⟩, g, _,
    hswept, hne, hmetrics, hbars⟩, hpart.built, ha, hf⟩

end Bar

end SimCampaign.Study
