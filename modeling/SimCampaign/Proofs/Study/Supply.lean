import SimCampaign.Archive.Basic
import SimCampaign.Proofs.Campaign.Repetition
import SimCampaign.Proofs.Grid.Named
import SimCampaign.Proofs.Metric.Shape
import SimCampaign.Proofs.Param.Restriction
import SimCampaign.Study.Plots

/-! Campaigns with all results of a space, and the aggregates of the metrics that are plotted. -/

namespace SimCampaign.Study
open Campaign (Results Uniform knownLength)
open SimCampaign.Metric (CountsEntities YieldsScalar)
open Param (Assignment Dim Entry Space Value)
open Param.Space (counts)

/-- What the line charts show, by the names of their files. Compared with the application rate,
throughput is shown in itself too. -/
def lineMetrics (n : Normalization) : List (String × Metric.Reducer) :=
  (match n.load with
    | .physicalShare => [("thr", Metric.normalizedThroughput n.window n.load)]
    | .applicationRate => [
      ("norm_thr", Metric.normalizedThroughput n.window n.load),
      ("aggr_thr", Metric.throughput n.window)]) ++ [
    ("avg_delay", Metric.delay), ("avg_delay_100ms", Metric.delay),
    ("delay_stdev", Metric.delayDeviation), ("avg_delay_variation", Metric.delayVariation),
    ("jain_fairness", Metric.fairness n.window)]

/-- What the two bar charts of a folder show. -/
def barMetrics (n : Normalization) : List (String × Metric.Reducer) :=
  [("user_thr", Metric.entityThroughput n.window), ("user_delay", Metric.entityDelay)]

theorem map_lineCharts (n : Normalization) :
    (lineCharts n).map (fun c => (c.file, c.reducer)) = lineMetrics n := by
  rw [lineCharts, lineMetrics]
  cases n.load <;> rfl

theorem map_barCharts (n : Normalization) :
    (barCharts n).map (fun c => (c.file, c.reducer)) = barMetrics n := rfl

/-- Every metric that is plotted has a value. -/
def Measurable (n : Normalization) (run : Run) : Prop :=
  ∀ m ∈ lineMetrics n ++ barMetrics n, ∃ v, m.2.compute run = .ok v

instance decidableExistsOk {ε α : Type} (x : Except ε α) : Decidable (∃ v, x = .ok v) :=
  match x with
  | .ok v => .isTrue ⟨v, rfl⟩
  | .error _ => .isFalse fun ⟨_, h⟩ => nomatch h

instance (n : Normalization) (run : Run) : Decidable (Measurable n run) :=
  inferInstanceAs (Decidable (∀ m ∈ lineMetrics n ++ barMetrics n, _))

/-- There are as many results of every assignment as were asked for. A result has the parameters
that were assigned, and a random stream, and every metric that is plotted has a value on it. -/
def Supplies (results : Results) (space : Space) (runs : Nat) (n : Normalization) : Prop :=
  ∀ a ∈ space.assignments, ∃ found, results a runs = .ok found ∧ found.length = runs ∧
    ∀ run ∈ found, (∃ v, run.params = a.put randomStream v) ∧ Measurable n run

variable {results : Results} {space part : Space} {runs : Nat} {n : Normalization}
  {reducer : Metric.Reducer} {m : String × Metric.Reducer}

theorem Supplies.mono (h : Supplies results space runs n)
    (hs : ∀ a ∈ part.assignments, a ∈ space.assignments) : Supplies results part runs n :=
  fun a ha => h a (hs a ha)

theorem yieldsScalar_of_mem (h : m ∈ lineMetrics n) (r : Run) : YieldsScalar (m.2.compute r) := by
  rw [lineMetrics, List.mem_append] at h
  rcases h with h | h
  · cases hn : n.load with
    | physicalShare =>
      rw [hn, List.mem_singleton] at h
      exact h ▸ Metric.yieldsScalar_normalizedThroughput r _ _
    | applicationRate =>
      rw [hn, List.mem_cons, List.mem_singleton] at h
      rcases h with rfl | rfl
      · exact Metric.yieldsScalar_normalizedThroughput r _ _
      · exact Metric.yieldsScalar_throughput r _
  · simp only [List.mem_cons, List.not_mem_nil, or_false] at h
    rcases h with rfl | rfl | rfl | rfl | rfl
    · exact Metric.yieldsScalar_delay r
    · exact Metric.yieldsScalar_delay r
    · exact Metric.yieldsScalar_delayDeviation r
    · exact Metric.yieldsScalar_delayVariation r
    · exact Metric.yieldsScalar_fairness r _

theorem countsEntities_of_mem (h : m ∈ barMetrics n) : CountsEntities m.2 := by
  simp only [barMetrics, List.mem_cons, List.not_mem_nil, or_false] at h
  rcases h with rfl | rfl
  · exact Metric.countsEntities_entityThroughput _
  · exact Metric.countsEntities_entityDelay

theorem Supplies.uniform_line (h : Supplies results space runs n) (hm : m ∈ lineMetrics n) :
    Uniform results m.2 space runs none where
  values a ha := by
    obtain ⟨found, hf, hl, hr⟩ := h a ha
    refine ⟨found, hf, hl, fun run hrun => ?_⟩
    obtain ⟨v, hv⟩ := (hr run hrun).2 m (List.mem_append_left _ hm)
    exact ⟨v, hv, yieldsScalar_of_mem hm run v hv⟩
  labels _ hn := nomatch hn

theorem get?_of_single {name : String} {e : Entry} {w : Value} (hs : (name, e) ∈ space.pairs)
    (he : e.values = [w]) {a : Assignment} (ha : a ∈ space.assignments) :
    a.get? name = some w := by
  obtain ⟨k, hk⟩ := List.mem_iff_getElem?.1 ha
  obtain ⟨j, hj⟩ := List.mem_iff_getElem?.1 hs
  obtain ⟨i, v, -, hv, ha⟩ := Space.getElem?_of_pick (Space.pick_of_getElem? hk) hj
  have hw : v ∈ [w] := he ▸ List.mem_of_getElem? hv
  rw [List.mem_singleton.1 hw] at ha
  exact Record.get?_eq_some_iff.2 (List.mem_of_getElem? ha)

/-- With a single number of stations, each result has a value for the access point and for as many
stations. -/
theorem Supplies.exists_uniform_bar (h : Supplies results space runs n) (hr : 0 < runs)
    (hs : 0 < space.cells) {e : Entry} {w : Value}
    (hstations : (Metric.Name.stations, e) ∈ space.pairs) (he : e.values = [w])
    (hm : m ∈ barMetrics n) : ∃ k, Uniform results m.2 space runs (some (k + 1)) := by
  obtain ⟨hlabels, hshape⟩ := countsEntities_of_mem hm
  have hplotted : m ∈ lineMetrics n ++ barMetrics n := List.mem_append_right _ hm
  have hcount (a) (ha : a ∈ space.assignments) (run : Run)
      (hp : ∃ v, run.params = a.put randomStream v) :
      run.params.get? Metric.Name.stations = some w := by
    obtain ⟨v, hp⟩ := hp
    rw [hp, Record.get?_put_of_ne (by decide), get?_of_single hstations he ha]
  -- The first result tells how many stations there are.
  rw [← Space.length_assignments] at hs
  obtain ⟨a₀, ha₀⟩ := List.exists_mem_of_length_pos hs
  obtain ⟨found₀, -, hl₀, hr₀⟩ := h a₀ ha₀
  obtain ⟨run₀, hrun₀⟩ := List.exists_mem_of_length_pos (hl₀.symm ▸ hr)
  obtain ⟨v₀, hv₀⟩ := (hr₀ run₀ hrun₀).2 m hplotted
  obtain ⟨k, hk, -⟩ := hshape run₀ v₀ hv₀
  refine ⟨k, fun a ha => ?_, fun count _ => hlabels count⟩
  obtain ⟨found, hf, hl, hrs⟩ := h a ha
  refine ⟨found, hf, hl, fun run hrun => ?_⟩
  obtain ⟨v, hv⟩ := (hrs run hrun).2 m hplotted
  obtain ⟨count, hcounted, hlen⟩ := hshape run v hv
  have hsame : run.params.count Metric.Name.stations = run₀.params.count Metric.Name.stations :=
    Metric.count_congr <| (hcount a ha run (hrs run hrun).1).trans
      (hcount a₀ ha₀ run₀ (hr₀ run₀ hrun₀).1).symm
  rw [hcounted, hk] at hsame
  cases hsame
  exact ⟨v, hv, hlen⟩

theorem exists_aggregate {length? : Option Nat} (h : Uniform results reducer space runs length?)
    (hr : 0 < runs) (hs : 0 < space.cells) (hl : length? ≠ some 0) (hf : runsDim ∉ space.names)
    (hm : metricsDim ∉ space.names) :
    ∃ a, aggregate results runs space reducer = .ok a ∧
      a.dims = space.dims ++ Campaign.labelDims reducer length? ∧ a.Named := by
  have hk : knownLength space runs length? = length? := if_pos ⟨hs, hr⟩
  have hz : 0 ∉ counts space.pairs ++ runs :: length?.toList := by
    rw [Space.cells_eq_cellCount] at hs
    rw [List.mem_append, List.mem_cons, Option.mem_toList, not_or, not_or]
    exact ⟨fun h0 => Nat.ne_of_gt hs (Grid.cellCount_eq_zero.2 h0), Nat.ne_of_lt hr, hl⟩
  obtain ⟨m, he, ht⟩ := h.exists_evaluate (hk.symm ▸ fun h0 => absurd h0 hz)
  obtain ⟨a, ha, hd, -, hfull, -⟩ := ht.exists_ofArray hf
  rw [hk] at hd
  refine ⟨a, ?_, hd, hfull, ?_⟩
  · rw [aggregate, he]
    simp only [Except.mapError, bind, Except.bind, ha]
  · have hn : (space.dims.map Dim.name).Nodup := by
      rw [Space.dims_eq_map, Space.map_name_dim]
      exact space.nodup
    have hfree : metricsDim ∉ space.dims.map Dim.name := by
      rwa [Space.dims_eq_map, Space.map_name_dim]
    rw [hd, List.map_append]
    cases length? with
    | none => exact (List.append_nil _).symm ▸ hn
    | some k =>
      refine List.nodup_append.2 ⟨hn, List.nodup_singleton _, ?_⟩
      rintro x hx y hy rfl
      obtain rfl : x = metricsDim := List.mem_singleton.1 hy
      exact hfree hx

end SimCampaign.Study
