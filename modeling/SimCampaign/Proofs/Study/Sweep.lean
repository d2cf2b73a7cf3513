import SimCampaign.Grid.Aggregate
import SimCampaign.Proofs.Param.Building
import SimCampaign.Proofs.Storage.Path
import SimCampaign.Study.ParamSet

/-! The predefined sweeps: their spaces are built, and have the dimensions that their charts need. -/

namespace SimCampaign.Study
open Param (Entry Space Value)
open Param.Space (outline overlay)
open Sweep (candidates folderName)

/-- Two parameters are swept, one of them with a bar chart for each value. Every other parameter has
one value, so has the number of stations on a bar chart, and no parameter has a reserved name. -/
structure Charted (entries : List (String × Nat)) (x hue forEach : String) : Prop where
  x_mem : x ∈ entries.map Prod.fst
  hue_mem : hue ∈ entries.map Prod.fst
  ne : x ≠ hue
  swept : ∀ p ∈ entries, p.1 = x ∨ p.1 = hue → 1 < p.2
  fixed : ∀ p ∈ entries, p.1 ≠ x → p.1 ≠ hue → p.2 = 1
  folder : forEach = x ∨ forEach = hue
  stations_mem : Metric.Name.stations ∈ entries.map Prod.fst
  stations : Metric.Name.stations = x ∨ Metric.Name.stations = hue → Metric.Name.stations = forEach
  runs : runsDim ∉ entries.map Prod.fst
  metrics : metricsDim ∉ entries.map Prod.fst

instance (entries : List (String × Nat)) (x hue forEach : String) :
    Decidable (Charted entries x hue forEach) :=
  decidable_of_iff
    (x ∈ entries.map Prod.fst ∧ hue ∈ entries.map Prod.fst ∧ x ≠ hue ∧
      (∀ p ∈ entries, p.1 = x ∨ p.1 = hue → 1 < p.2) ∧
      (∀ p ∈ entries, p.1 ≠ x → p.1 ≠ hue → p.2 = 1) ∧ (forEach = x ∨ forEach = hue) ∧
      Metric.Name.stations ∈ entries.map Prod.fst ∧
      (Metric.Name.stations = x ∨ Metric.Name.stations = hue → Metric.Name.stations = forEach) ∧
      runsDim ∉ entries.map Prod.fst ∧ metricsDim ∉ entries.map Prod.fst)
    ⟨fun ⟨h₁, h₂, h₃, h₄, h₅, h₆, h₇, h₈, h₉, h₁₀⟩ => ⟨h₁, h₂, h₃, h₄, h₅, h₆, h₇, h₈, h₉, h₁₀⟩,
      fun h => ⟨h.1, h.2, h.3, h.4, h.5, h.6, h.7, h.8, h.9, h.10⟩⟩

/-- Every chart of the sweep has its dimensions, and every bar folder a name of its own. -/
structure Plottable (s : Sweep) : Prop where
  charted : Charted (outline s.space.pairs) s.x s.hue s.forEach
  xValues : s.xValues.length = (candidates s.space s.x).length
  folders : (s.barFolders.map Prod.fst).Nodup
  plain : ∀ f ∈ s.barFolders, Path.Plain f.1
  values : s.barFolders.map Prod.snd = candidates s.space s.forEach

section Candidates
variable {s t : Space} {changes : List (String × Entry)} {name : String} {e : Entry}

theorem candidates_of_mem (h : (name, e) ∈ s.pairs) : candidates s name = e.values := by
  rw [candidates, Record.get?_eq_some_iff.2 h]
  rfl

theorem candidates_overlay (ht : t.pairs = overlay changes s.pairs) (h : (name, e) ∈ s.pairs) :
    candidates t name = ((changes.lookup name).getD e).values :=
  candidates_of_mem (ht ▸ List.mem_map.2 ⟨_, h, rfl⟩)

theorem exists_setAll (hs : ∀ c ∈ changes, c.1 ∈ s.names) (hn : (changes.map Prod.fst).Nodup) :
    ∃ t, ParamSet.setAll s changes = .ok t ∧ t.pairs = overlay changes s.pairs := by
  induction changes generalizing s with
  | nil => exact ⟨s, rfl, by simp [overlay]⟩
  | cons c rest ih =>
    obtain ⟨name, e⟩ := c
    obtain ⟨hc, hn⟩ := List.nodup_cons.1 hn
    have hm : name ∈ s.names := hs _ (List.mem_cons_self ..)
    have hr : ∀ c ∈ rest, c.1 ∈ (s.replace name e).names := fun c hc => by
      rw [Space.names_replace]
      exact hs c (List.mem_cons_of_mem _ hc)
    obtain ⟨t, ht, hp⟩ := ih hr hn
    refine ⟨t, ?_, hp.trans (Space.overlay_replacePairs hc _)⟩
    rw [ParamSet.setAll, Space.set_of_mem hm]
    exact ht

end Candidates

theorem Sweep.folders_of_aliases {s : Sweep} {name : String} {aliases : List Value}
    (ha : s.alias?.getD (s.forEach, candidates s.space s.forEach) = (name, aliases))
    (hl : aliases.length = (candidates s.space s.forEach).length)
    (hn : (aliases.map (folderName name)).Nodup)
    (hp : ∀ a ∈ aliases, Path.Plain (folderName name a)) :
    (s.barFolders.map Prod.fst).Nodup ∧ (∀ f ∈ s.barFolders, Path.Plain f.1) ∧
      s.barFolders.map Prod.snd = candidates s.space s.forEach := by
  have hb : s.barFolders = ((candidates s.space s.forEach).zip aliases).map
      fun p => (folderName name p.2, p.1) := by
    simp only [barFolders, ha]
  rw [hb, List.map_map, List.map_map]
  refine ⟨?_, fun f hf => ?_, List.map_fst_zip (Nat.le_of_eq hl.symm)⟩
  · have hf := List.map_snd_zip (Nat.le_of_eq hl)
    rw [← hf, List.map_map] at hn
    exact hn
  · obtain ⟨p, hm, rfl⟩ := List.mem_map.1 hf
    exact hp p.2 (List.of_mem_zip hm).2

section Baseline
variable (b : Baseline) {load : String}

/-- The parameters of a baseline: one value of each, but two periods of allocation. -/
def baselineOutline (load : String) (count : Nat) : List (String × Nat) := [
  (Name.applicationType, 1), (load, count), (Name.socketType, 1), (Name.aggregationSize, 1),
  (Metric.Name.scheme, 1), (Metric.Name.simulationTime, 1), (Metric.Name.stations, 1),
  (Metric.Name.allocationPeriod, 2), (Name.accessIfAllocated, 1), (Metric.Name.beaconInterval, 1),
  (Name.periodMean, 1), (Name.periodDeviation, 1), (Name.smartStart, 1)]

def loadNames : List String := [Metric.Name.normalizedLoad, Metric.Name.applicationRate]

theorem nodup_baselineOutline (hl : load ∈ loadNames) (count : Nat) :
    ((baselineOutline load count).map Prod.fst).Nodup := by
  change ((baselineOutline load 1).map Prod.fst).Nodup
  revert load
  decide

theorem exists_spaceWithLoad (hl : load ∈ loadNames) (e : Entry) :
    ∃ s, b.spaceWithLoad load e = .ok s ∧
      outline s.pairs = baselineOutline load e.values.length ∧
      (Metric.Name.allocationPeriod, sweptInts [0, 1]) ∈ s.pairs := by
  refine Exists.imp (fun s h => ⟨h.1, ?_, ?_⟩) (Space.exists_ofEntries ?_)
  · rw [h.2]
    rfl
  · rw [h.2]
    simp
  · exact nodup_baselineOutline hl 1

end Baseline

section Changed
variable {s : Space} {changes changes' : List (String × Entry)} {load : String} {count : Nat}

theorem exists_changed (ho : outline s.pairs = baselineOutline load count)
    (hp : (Metric.Name.allocationPeriod, sweptInts [0, 1]) ∈ s.pairs)
    (hs : outline changes = outline changes')
    (hm : ∀ name ∈ (outline changes').map Prod.fst,
      name ∈ (baselineOutline load count).map Prod.fst)
    (hn : ((outline changes').map Prod.fst).Nodup) :
    ∃ t, ParamSet.setAll s changes = .ok t ∧
      outline t.pairs = overlay (outline changes') (baselineOutline load count) ∧
      (∀ c ∈ changes, candidates t c.1 = c.2.values) ∧
      (Metric.Name.allocationPeriod ∉ (outline changes').map Prod.fst →
        candidates t Metric.Name.allocationPeriod = [.int 0, .int 1]) := by
  have hnames : s.names = (baselineOutline load count).map Prod.fst := by
    rw [← ho, Space.map_fst_outline]
    rfl
  rw [← hs, Space.map_fst_outline] at hn hm
  have hin (c) (hc : c ∈ changes) : c.1 ∈ s.names :=
    hnames ▸ hm c.1 (List.mem_map_of_mem hc)
  obtain ⟨t, ht, hpairs⟩ := exists_setAll hin hn
  refine ⟨t, ht, ?_, fun c hc => ?_, fun hfree => ?_⟩
  · rw [hpairs, outline, Space.map_overlay, ← hs, ← ho]
    rfl
  · obtain ⟨e, he⟩ := Record.exists_mem_pairs (hin c hc)
    have hl : changes.lookup c.1 = some c.2 :=
      (Record.get?_eq_some_iff (r := ⟨changes, hn⟩)).2 hc
    rw [candidates_overlay hpairs he, hl]
    rfl
  · rw [← hs, Space.map_fst_outline] at hfree
    have hl : changes.lookup Metric.Name.allocationPeriod = none := lookup_eq_none_iff.2 hfree
    rw [candidates_overlay hpairs hp, hl]
    rfl

end Changed

namespace ParamSet
variable (set : ParamSet) (b : Baseline) (t : Space)

theorem outline_changes : outline (set.changes b) = outline (set.changes {}) := by
  cases set <;> simp [outline, changes, sweptFloats, fixed, Entry.values]

theorem changes_names (name : String) (h : name ∈ (outline (set.changes {})).map Prod.fst) :
    name ∈ (baselineOutline Metric.Name.normalizedLoad 1).map Prod.fst := by
  revert name
  cases set <;> decide

theorem nodup_changes : ((outline (set.changes {})).map Prod.fst).Nodup := by
  cases set <;> decide

theorem axes_plotted : (set.plotted t).x = (set.plotted Record.empty).x ∧
    (set.plotted t).hue = (set.plotted Record.empty).hue ∧
    (set.plotted t).forEach = (set.plotted Record.empty).forEach ∧ (set.plotted t).space = t := by
  cases set <;> exact ⟨rfl, rfl, rfl, rfl⟩

/-- The name and the values that tell the bar folders of a set apart. -/
def folderValues : ParamSet → String × List Value
  | .basic | .onoff => (Metric.Name.normalizedLoad, loads.map .float)
  | .onoffDeviation => ("onOffPeriodDeviationRatio", deviationRatios.map .float)
  | .servicePeriodicity => (Name.applicationType, applications.map .text)
  | .onoffPeriodicity => (Metric.Name.allocationPeriod, [.int 0, .int 2])
  | .modulation => (Metric.Name.scheme, Modulation.schemes.map .text)
  | .stations => (Metric.Name.stations, [.int 2, .int 4, .int 6, .int 8, .int 10])
  | .smartStart | .accessIfAllocated => (Metric.Name.allocationPeriod, [.int 0, .int 1])

theorem nodup_folderValues :
    ((set.folderValues.2).map (folderName set.folderValues.1)).Nodup := by
  cases set <;> decide +kernel

theorem plain_folderValues :
    ∀ v ∈ set.folderValues.2, Path.Plain (folderName set.folderValues.1 v) := by
  cases set <;> decide +kernel

theorem charted :
    Charted (overlay (outline (set.changes {})) (baselineOutline Metric.Name.normalizedLoad 1))
      (set.plotted Record.empty).x (set.plotted Record.empty).hue
      (set.plotted Record.empty).forEach := by
  cases set <;> decide

theorem exists_space : ∃ t, set.sweep b = .ok (set.plotted t) ∧
    outline t.pairs = overlay (outline (set.changes {}))
      (baselineOutline Metric.Name.normalizedLoad 1) ∧
    (∀ c ∈ set.changes b, candidates t c.1 = c.2.values) ∧
    (Metric.Name.allocationPeriod ∉ (outline (set.changes {})).map Prod.fst →
      candidates t Metric.Name.allocationPeriod = [.int 0, .int 1]) := by
  have hl : Metric.Name.normalizedLoad ∈ loadNames := List.mem_cons_self ..
  obtain ⟨s, hs, ho, hp⟩ := exists_spaceWithLoad b hl (fixed (.float b.normalizedLoad))
  obtain ⟨t, ht, h⟩ := exists_changed ho hp (set.outline_changes b) set.changes_names
    set.nodup_changes
  refine ⟨t, ?_, h⟩
  rw [sweep, Baseline.space, hs]
  simp only [bind, Except.bind, ht]

section Space
variable {set b t} (hc : ∀ c ∈ set.changes b, candidates t c.1 = c.2.values)
include hc

theorem length_xValues :
    (set.plotted t).xValues.length = (candidates t (set.plotted t).x).length := by
  cases set with
  | onoffDeviation =>
    have hx : candidates t Name.periodDeviation = (deviationRatios.map (· * b.periodMean)).map _ :=
      hc (_, sweptFloats _) (.tail _ (.head _))
    change deviationRatios.length = (candidates t Name.periodDeviation).length
    rw [hx, List.length_map, List.length_map]
  | onoffPeriodicity =>
    have hx : candidates t Name.periodMean =
        (periodRatios.map (· * (Float.ofInt b.beaconInterval.toInt / 1e6))).map _ :=
      hc (_, sweptFloats _) (.tail _ (.tail _ (.head _)))
    change periodRatios.length = (candidates t Name.periodMean).length
    rw [hx, List.length_map, List.length_map]
  | _ => rfl

/-- The values of the bar folders. Those of a set that is drawn for each period of allocation, and
does not sweep the periods, are the baseline's. -/
theorem aliases_plotted
    (hp : Metric.Name.allocationPeriod ∉ (outline (set.changes {})).map Prod.fst →
      candidates t Metric.Name.allocationPeriod = [.int 0, .int 1]) :
    (set.plotted t).alias?.getD ((set.plotted t).forEach, candidates t (set.plotted t).forEach) =
        set.folderValues ∧
      set.folderValues.2.length = (candidates t (set.plotted t).forEach).length := by
  -- All but one set have no alias: their folders are told apart by what they are drawn for.
  have hplain (hf : (set.plotted t).forEach = set.folderValues.1)
      (hv : candidates t set.folderValues.1 = set.folderValues.2) :
      ((set.plotted t).forEach, candidates t (set.plotted t).forEach) = set.folderValues ∧
        set.folderValues.2.length = (candidates t (set.plotted t).forEach).length := by
    rw [hf, hv]
    exact ⟨rfl, rfl⟩
  cases set with
  | basic => exact hplain rfl (hc (_, sweptFloats _) (.tail _ (.tail _ (.head _))))
  | onoff => exact hplain rfl (hc (_, sweptFloats _) (.tail _ (.head _)))
  | onoffDeviation => exact ⟨rfl, length_xValues hc⟩
  | servicePeriodicity => exact hplain rfl (hc (_, sweptTexts _) (.head _))
  | onoffPeriodicity => exact hplain rfl (hc (_, sweptInts _) (.tail _ (.head _)))
  | modulation => exact hplain rfl (hc (_, sweptTexts _) (.tail _ (.head _)))
  | stations => exact hplain rfl (hc (_, sweptInts _) (.tail _ (.head _)))
  | smartStart => exact hplain rfl (hp (by decide))
  | accessIfAllocated => exact hplain rfl (hp (by decide))

end Space

theorem exists_plottable : ∃ s, set.sweep b = .ok s ∧ Plottable s := by
  obtain ⟨t, ht, ho, hc, hp⟩ := set.exists_space b
  obtain ⟨hx, hh, hf, hs⟩ := set.axes_plotted t
  obtain ⟨ha, hl⟩ := aliases_plotted hc hp
  have halias : (set.plotted t).alias?.getD ((set.plotted t).forEach,
      candidates (set.plotted t).space (set.plotted t).forEach) = set.folderValues := by
    rwa [hs]
  obtain ⟨hnames, hplain, hvalues⟩ :=
    Sweep.folders_of_aliases halias (by rwa [hs]) set.nodup_folderValues set.plain_folderValues
  refine ⟨_, ht, ?_, ?_, hnames, hplain, hvalues⟩
  · rw [hx, hh, hf, hs, ho]
    exact set.charted
  · rw [hs]
    exact length_xValues hc

end ParamSet

section FixedRate

/-- What is swept and fixed of the baseline. -/
def rateChanges (smartStart access : Bool) : List (String × Entry) := [
  (Metric.Name.stations, sweptInts [1, 2, 3, 4, 5, 6, 7, 8, 9, 10]),
  (Name.smartStart, fixed (.bool smartStart)), (Name.accessIfAllocated, fixed (.bool access))]

theorem outline_rateChanges (smartStart access : Bool) :
    outline (rateChanges smartStart access) = outline (rateChanges true true) := rfl

theorem charted_fixedRate :
    Charted (overlay (outline (rateChanges true true))
        (baselineOutline Metric.Name.applicationRate 1))
      Metric.Name.stations Metric.Name.allocationPeriod Metric.Name.stations := by
  decide

theorem nodup_stationFolders :
    ((sweptInts [1, 2, 3, 4, 5, 6, 7, 8, 9, 10]).values.map
      (folderName Metric.Name.stations)).Nodup := by
  decide +kernel

theorem plain_stationFolders :
    ∀ v ∈ (sweptInts [1, 2, 3, 4, 5, 6, 7, 8, 9, 10]).values,
      Path.Plain (folderName Metric.Name.stations v) := by
  decide +kernel

theorem exists_plottable_fixedRate (b : Baseline) (rate : String) (smartStart access : Bool) :
    ∃ s, fixedRate b rate smartStart access = .ok s ∧ Plottable s := by
  have hl : Metric.Name.applicationRate ∈ loadNames := .tail _ (.head _)
  obtain ⟨base, hbase, ho, hp⟩ := exists_spaceWithLoad b hl (fixed (.text rate))
  change outline base.pairs = baselineOutline Metric.Name.applicationRate 1 at ho
  obtain ⟨t, ht, hto, hc, -⟩ := exists_changed ho hp (outline_rateChanges smartStart access)
    (by decide) (by decide)
  have hvalues := hc _ (.head _)
  have hs : fixedRate b rate smartStart access = .ok (Sweep.ofSpace t Metric.Name.stations
      Metric.Name.allocationPeriod Metric.Name.stations Metric.Name.stations) := by
    rw [rateChanges] at ht
    rw [fixedRate, hbase]
    simp only [bind, Except.bind, ht]
  have hnames : ((candidates t Metric.Name.stations).map (folderName Metric.Name.stations)).Nodup :=
    hvalues ▸ nodup_stationFolders
  have hplain : ∀ v ∈ candidates t Metric.Name.stations,
      Path.Plain (folderName Metric.Name.stations v) := hvalues ▸ plain_stationFolders
  obtain ⟨hfolders, hfree, hall⟩ := Sweep.folders_of_aliases
    (s := Sweep.ofSpace t Metric.Name.stations Metric.Name.allocationPeriod Metric.Name.stations
      Metric.Name.stations) rfl rfl hnames hplain
  exact ⟨_, hs, hto ▸ charted_fixedRate, rfl, hfolders, hfree, hall⟩

end FixedRate
end SimCampaign.Study
