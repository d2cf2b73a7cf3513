import SimCampaign.Metric.Reducer
import SimCampaign.Proofs.Campaign.Values
import SimCampaign.Proofs.Grid.Shape

/-! When the evaluation of a metric over a space succeeds, and what its array holds. -/

namespace SimCampaign.Campaign
open Param (Assignment Dim Space)
open Param.Space (counts pick)
open Grid (at? cellCount Addressable Within)

/-- Every repetition of every assignment has a value. All values are scalars or vectors of one
length, which the labels have too. -/
structure Uniform (results : Results) (reducer : Metric.Reducer) (space : Space) (runs : Nat)
    (length? : Option Nat) : Prop where
  values : ∀ a ∈ space.assignments, ∃ found, results a runs = .ok found ∧ found.length = runs ∧
    ∀ run ∈ found, ∃ v, reducer.compute run = .ok v ∧ v.length? = length?
  labels : ∀ n, length? = some n → (reducer.labels n).length = n

/-- The length of the vectors, if there is a value. -/
def knownLength (space : Space) (runs : Nat) (length? : Option Nat) : Option Nat :=
  if 0 < space.cells ∧ 0 < runs then length? else none

/-- The array has the cells of all values under the dimensions of the space, the repetitions and
the labels. -/
structure Tabulates (results : Results) (reducer : Metric.Reducer) (space : Space) (runs : Nat)
    (length? : Option Nat) (m : MetricArray) : Prop where
  dims : m.dims = arrayDims reducer space runs (knownLength space runs length?)
  shape : m.shape = counts space.pairs ++ runs :: (knownLength space runs length?).toList
  full : m.Full
  get? : ∀ choice a, at? (counts space.pairs) choice space.assignments = some a → ∀ r rest,
    m.get? (choice ++ r :: rest) = (value? results reducer runs a r).bind (·.component? rest)

theorem arrayDims_eq (reducer : Metric.Reducer) (space : Space) (runs : Nat)
    (length? : Option Nat) :
    arrayDims reducer space runs length? =
      space.dims ++ ⟨runsDim, (List.range runs).map .ofNat⟩ ::
        length?.toList.map fun n => ⟨metricsDim, (reducer.labels n).map .text⟩ := by
  cases length? <;> rfl

theorem map_length_dims (space : Space) : space.dims.map Dim.length = counts space.pairs := by
  rw [Space.dims_eq_map, Space.map_length_dim]

section
variable {results : Results} {reducer : Metric.Reducer} {space : Space} {runs : Nat}
  {length? : Option Nat}

theorem map_length_arrayDims (space : Space) (runs : Nat)
    (h : ∀ n, length? = some n → (reducer.labels n).length = n) :
    (arrayDims reducer space runs length?).map Dim.length =
      counts space.pairs ++ runs :: length?.toList := by
  rw [arrayDims_eq, List.map_append, map_length_dims, List.map_cons]
  cases length? with
  | none => simp [Dim.length]
  | some n => simp [Dim.length, h n rfl]

theorem cells_pos_of_mem {a : Assignment} (h : a ∈ space.assignments) : 0 < space.cells := by
  rw [← Space.length_assignments]
  exact List.length_pos_of_mem h

theorem knownLength_knownLength :
    knownLength space runs (knownLength space runs length?) = knownLength space runs length? := by
  unfold knownLength
  split_ifs <;> rfl

theorem Uniform.known (h : Uniform results reducer space runs length?) :
    Uniform results reducer space runs (knownLength space runs length?) where
  values a ha := by
    obtain ⟨found, hr, hl, hv⟩ := h.values a ha
    refine ⟨found, hr, hl, fun run hrun => ?_⟩
    -- A run at hand has a value, so the length is known.
    have hpos : 0 < space.cells ∧ 0 < runs :=
      ⟨cells_pos_of_mem ha, hl ▸ List.length_pos_of_mem hrun⟩
    rw [knownLength, if_pos hpos]
    exact hv run hrun
  labels n hn := by
    rw [knownLength] at hn
    split at hn
    · exact h.labels n hn
    · cases hn

theorem Uniform.mono {part : Space} (h : Uniform results reducer space runs length?)
    (hs : ∀ a ∈ part.assignments, a ∈ space.assignments) :
    Uniform results reducer part runs length? :=
  ⟨fun a ha => h.values a (hs a ha), h.labels⟩

theorem values_eq_ok_iff {vs : List (String × Metric.Value)} :
    values results reducer space runs = .ok vs ↔
      ∃ vss, List.Forall₂ (fun a vs => valuesOf results reducer runs a = .ok vs)
        space.assignments vss ∧ vss.flatten = vs := by
  rw [values, bind_eq_ok_iff]
  simp only [mapM_eq_ok_iff, Except.ok.injEq]

theorem Uniform.exists_values (h : Uniform results reducer space runs length?) :
    ∃ vss, List.Forall₂ (fun a vs => valuesOf results reducer runs a = .ok vs)
      space.assignments vss ∧ ∀ vs ∈ vss, ∀ p ∈ vs, p.2.length? = length? := by
  have hex (a) (ha : a ∈ space.assignments) : ∃ vs, valuesOf results reducer runs a = .ok vs ∧
      ∀ p ∈ vs, p.2.length? = length? := by
    obtain ⟨found, hr, hl, hv⟩ := h.values a ha
    have hp (run) (hrun : run ∈ found) :
        ∃ p, valueOf reducer run = .ok p ∧ p.2.length? = length? := by
      obtain ⟨v, hc, hv⟩ := hv run hrun
      exact ⟨(run.id, v), valueOf_eq_ok_iff.2 ⟨rfl, hc⟩, hv⟩
    obtain ⟨vs, hvs⟩ := exists_forall₂ hp
    refine ⟨vs, valuesOf_eq_ok_iff.2 ⟨found, hr, hl, hvs.imp fun _ _ h => h.1⟩, fun p hp => ?_⟩
    obtain ⟨_, -, h⟩ := exists_of_mem_forall₂ hvs hp
    exact h.2
  obtain ⟨vss, hvss⟩ := exists_forall₂ hex
  refine ⟨vss, hvss.imp fun _ _ h => h.1, fun vs hvs => ?_⟩
  obtain ⟨_, -, h⟩ := exists_of_mem_forall₂ hvss hvs
  exact h.2

theorem length_values {vss : List (List (String × Metric.Value))}
    (h : List.Forall₂ (fun a vs => valuesOf results reducer runs a = .ok vs)
      space.assignments vss) : vss.flatten.length = space.cells * runs := by
  have hl (vs) (hvs : vs ∈ vss) : (id vs).length = runs := by
    obtain ⟨a, -, ha⟩ := exists_of_mem_forall₂ h hvs
    exact length_valuesOf ha
  rw [List.flatten_eq_flatMap, Grid.length_flatMap_of_const hl, ← h.length_eq,
    Space.length_assignments]

theorem vectorLength?_eq {vs : List (String × Metric.Value)} (hn : vs.length = space.cells * runs)
    (hl : ∀ p ∈ vs, p.2.length? = length?) : vectorLength? vs = knownLength space runs length? := by
  cases vs with
  | nil =>
    have h0 : ¬ (0 < space.cells ∧ 0 < runs) := fun h => Nat.ne_of_lt (Nat.mul_pos h.1 h.2) hn
    rw [knownLength, if_neg h0]
    rfl
  | cons p vs =>
    have hpos : 0 < space.cells * runs := hn ▸ Nat.succ_pos _
    rw [knownLength, if_pos ⟨Nat.pos_of_mul_pos_right hpos, Nat.pos_of_mul_pos_left hpos⟩]
    exact hl p (List.mem_cons_self ..)

theorem oddShape?_eq_none_iff {vs : List (String × Metric.Value)} :
    oddShape? length? vs = none ↔ ∀ p ∈ vs, p.2.length? = length? := by
  simp [oddShape?]

theorem assemble_of_addressable {dims : List Dim} {cells : List Float}
    (hl : cells.length = cellCount (dims.map Dim.length)) (ha : Addressable (dims.map Dim.length)) :
    assemble dims cells = .ok ⟨dims, cells⟩ := by
  simp only [assemble, hl, Grid.misfit?_of_addressable ha, MetricArray.ofShape, if_true]
  rfl

theorem assemble_of_not_addressable {dims : List Dim} {cells : List Float}
    (hl : cells.length = cellCount (dims.map Dim.length))
    (ha : ¬ Addressable (dims.map Dim.length)) :
    assemble dims cells = .error (.misshapen .overflow) := by
  simp only [assemble, hl, Grid.misfit?_of_not_addressable ha]

theorem of_assemble_eq_ok {dims : List Dim} {cells : List Float} {m : MetricArray}
    (h : assemble dims cells = .ok m) :
    cells.length = cellCount (dims.map Dim.length) ∧ Addressable (dims.map Dim.length) := by
  rw [assemble] at h
  split at h
  · cases h
  · exact ⟨Grid.eq_cellCount_of_misfit?_eq_none ‹_›, Grid.addressable_of_misfit?_eq_none ‹_›⟩

theorem evaluate_of_values {vs : List (String × Metric.Value)}
    (h : values results reducer space runs = .ok vs) :
    evaluate results reducer space runs =
      match oddShape? (vectorLength? vs) vs with
      | some e => .error e
      | none => assemble (arrayDims reducer space runs (vectorLength? vs))
          (vs.flatMap (·.2.toList)) := by
  rw [evaluate, h]
  rfl

theorem Uniform.evaluate_eq_assemble (h : Uniform results reducer space runs length?) :
    ∃ cells, evaluate results reducer space runs =
        assemble (arrayDims reducer space runs (knownLength space runs length?)) cells ∧
      cells.length = cellCount (counts space.pairs ++
        runs :: (knownLength space runs length?).toList) ∧
      ∀ choice a, at? (counts space.pairs) choice space.assignments = some a → ∀ r rest,
        at? (counts space.pairs ++ runs :: (knownLength space runs length?).toList)
            (choice ++ r :: rest) cells =
          (value? results reducer runs a r).bind (·.component? rest) := by
  obtain ⟨vss, hvss, hl⟩ := h.known.exists_values
  have hflat (p) (hp : p ∈ vss.flatten) : p.2.length? = knownLength space runs length? := by
    obtain ⟨vs, hvs, hp⟩ := List.mem_flatten.1 hp
    exact hl vs hvs p hp
  have hn := length_values hvss
  have hv : vectorLength? vss.flatten = knownLength space runs length? := by
    rw [vectorLength?_eq hn hflat, knownLength_knownLength]
  refine ⟨vss.flatten.flatMap (·.2.toList), ?_, ?_, ?_⟩
  · rw [evaluate_of_values (values_eq_ok_iff.2 ⟨vss, hvss, rfl⟩), hv,
      oddShape?_eq_none_iff.2 hflat]
  · have hc (p) (hp : p ∈ vss.flatten) :
        p.2.toList.length = cellCount (knownLength space runs length?).toList := by
      rw [Metric.Value.length_toList, hflat p hp]
    rw [Grid.length_flatMap_of_const hc, hn, Grid.cellCount_append, Grid.cellCount_cons,
      Nat.mul_assoc, Space.cells_eq_cellCount]
  · intro choice a ha r rest
    exact at?_values hvss hl ha r rest

theorem Uniform.exists_evaluate (h : Uniform results reducer space runs length?)
    (ha : Addressable (counts space.pairs ++ runs :: (knownLength space runs length?).toList)) :
    ∃ m, evaluate results reducer space runs = .ok m ∧
      Tabulates results reducer space runs length? m := by
  obtain ⟨cells, he, hn, hc⟩ := h.evaluate_eq_assemble
  have hs := map_length_arrayDims space runs h.known.labels
  rw [← hs] at ha hn hc
  exact ⟨⟨_, cells⟩, he.trans (assemble_of_addressable hn ha), rfl, hs, hn, hc⟩

theorem Uniform.evaluate_eq_overflow (h : Uniform results reducer space runs length?)
    (ha : ¬ Addressable (counts space.pairs ++ runs :: (knownLength space runs length?).toList)) :
    evaluate results reducer space runs = .error (.misshapen .overflow) := by
  obtain ⟨cells, he, hn, -⟩ := h.evaluate_eq_assemble
  rw [← map_length_arrayDims space runs h.known.labels] at ha hn
  exact he.trans (assemble_of_not_addressable hn ha)

theorem labels_of_length {n : Nat} {vs : List (String × Metric.Value)} (h0 : vs ≠ [])
    (hn : vs.length = space.cells * runs) (hl : ∀ p ∈ vs, p.2.length? = some n)
    (hc : (vs.flatMap (·.2.toList)).length =
      cellCount ((arrayDims reducer space runs (some n)).map Dim.length)) :
    (reducer.labels n).length = n := by
  have hv (p) (hp : p ∈ vs) : p.2.toList.length = n := by
    rw [Metric.Value.length_toList, hl p hp]
    exact Nat.mul_one n
  rw [Grid.length_flatMap_of_const hv, arrayDims_eq, List.map_append, map_length_dims,
    Grid.cellCount_append, ← Space.cells_eq_cellCount] at hc
  simp only [List.map_cons, cellCount, Option.toList_some, List.map_nil, Dim.length,
    List.length_map, List.length_range, Nat.mul_one] at hc
  rw [← Nat.mul_assoc, ← hn] at hc
  exact (Nat.eq_of_mul_eq_mul_left (List.length_pos_iff.2 h0) hc).symm

theorem exists_found {vss : List (List (String × Metric.Value))}
    (hvss : List.Forall₂ (fun a vs => valuesOf results reducer runs a = .ok vs)
      space.assignments vss) (hl : ∀ p ∈ vss.flatten, p.2.length? = length?) {a : Assignment}
    (ha : a ∈ space.assignments) :
    ∃ found, results a runs = .ok found ∧ found.length = runs ∧
      ∀ run ∈ found, ∃ v, reducer.compute run = .ok v ∧ v.length? = length? := by
  obtain ⟨i, hi⟩ := List.mem_iff_getElem?.1 ha
  obtain ⟨vs, hvs, hv⟩ := getElem?_of_forall₂ hvss hi
  obtain ⟨found, hr, hf, hp⟩ := valuesOf_eq_ok_iff.1 hv
  refine ⟨found, hr, hf, ?_⟩
  intro run hrun
  obtain ⟨j, hj⟩ := List.mem_iff_getElem?.1 hrun
  obtain ⟨p, hj, hv⟩ := getElem?_of_forall₂ hp hj
  have hmem : p ∈ vss.flatten :=
    List.mem_flatten.2 ⟨vs, List.mem_of_getElem? hvs, List.mem_of_getElem? hj⟩
  exact ⟨p.2, (valueOf_eq_ok_iff.1 hv).2, hl p hmem⟩

theorem uniform_of_evaluate {m : MetricArray} (h : evaluate results reducer space runs = .ok m) :
    ∃ length?, Uniform results reducer space runs length? ∧
      Addressable (counts space.pairs ++ runs :: (knownLength space runs length?).toList) := by
  obtain ⟨vs, hvs, -⟩ := bind_eq_ok_iff.1 h
  rw [evaluate_of_values hvs] at h
  obtain ⟨vss, hvss, rfl⟩ := values_eq_ok_iff.1 hvs
  split at h
  · cases h
  have hl := oddShape?_eq_none_iff.1 ‹_›
  have hn := length_values hvss
  obtain ⟨hc, ha⟩ := of_assemble_eq_ok h
  have hu : Uniform results reducer space runs (vectorLength? vss.flatten) := by
    refine ⟨fun a ha => exists_found hvss hl ha, ?_⟩
    intro n hk
    rw [hk] at hl hc
    -- A known length is that of a first value.
    have h0 : vss.flatten ≠ [] := by
      intro h0
      rw [h0] at hk
      cases hk
    exact labels_of_length h0 hn hl hc
  refine ⟨_, hu, ?_⟩
  rw [map_length_arrayDims space runs hu.labels] at ha
  rwa [← vectorLength?_eq hn hl]

theorem tabulates_of_evaluate {m : MetricArray}
    (h : evaluate results reducer space runs = .ok m) :
    ∃ length?, Uniform results reducer space runs length? ∧ Addressable m.shape ∧
      Tabulates results reducer space runs length? m := by
  obtain ⟨length?, hu, ha⟩ := uniform_of_evaluate h
  obtain ⟨_, he, ht⟩ := hu.exists_evaluate ha
  cases h.symm.trans he
  exact ⟨length?, hu, ht.shape ▸ ha, ht⟩

namespace Tabulates
variable {m : MetricArray}

theorem exists_assignment {choice : List Nat} (h : Within choice (counts space.pairs)) :
    ∃ a, at? (counts space.pairs) choice space.assignments = some a ∧
      pick space.pairs choice = some a.pairs := by
  have hl := (Space.length_assignments space).trans (Space.cells_eq_cellCount space)
  obtain ⟨a, ha⟩ := Grid.exists_at?_eq_some hl h
  refine ⟨a, ha, ?_⟩
  rw [← Space.at?_assignments, ha]
  rfl

theorem exists_value (h : Tabulates results reducer space runs length? m) {choice rest : List Nat}
    {a : Assignment} {r : Nat} (ha : at? (counts space.pairs) choice space.assignments = some a)
    (hr : r < runs) (hrest : Within rest (knownLength space runs length?).toList) :
    ∃ v x, value? results reducer runs a r = some v ∧ v.component? rest = some x ∧
      m.get? (choice ++ r :: rest) = some x := by
  have hw : Within (choice ++ r :: rest) m.shape :=
    h.shape ▸ List.rel_append (Grid.within_of_at?_eq_some ha) (.cons hr hrest)
  obtain ⟨x, hx⟩ := Grid.exists_at?_eq_some h.full hw
  have hg := h.get? choice a ha r rest
  obtain ⟨v, hv, he⟩ := Option.bind_eq_some_iff.1 (hg.symm.trans hx)
  exact ⟨v, x, hv, he, hx⟩

end Tabulates

/-- With values of one shape, an evaluation tabulates them, unless an empty dimension stands beside
dimensions that no index can address. -/
theorem evaluate_of_uniform (h : Uniform results reducer space runs length?) {dims : List Dim}
    (hd : dims = space.dims ++ ⟨runsDim, (List.range runs).map .ofNat⟩ ::
      if 0 < space.cells ∧ 0 < runs then
        length?.toList.map fun n => ⟨metricsDim, (reducer.labels n).map .text⟩
      else []) :
    (Addressable (dims.map Dim.length) →
      ∃ m, evaluate results reducer space runs = .ok m ∧ m.dims = dims ∧ m.Full ∧
        ∀ index, Within index m.shape →
          ∃ choice r rest a v x, index = choice ++ r :: rest ∧
            pick space.pairs choice = some a.pairs ∧
            value? results reducer runs a r = some v ∧ v.component? rest = some x ∧
            m.get? index = some x) ∧
    (¬ Addressable (dims.map Dim.length) →
      evaluate results reducer space runs = .error (.misshapen .overflow)) := by
  have hd' : dims = arrayDims reducer space runs (knownLength space runs length?) := by
    rw [hd, arrayDims_eq, knownLength]
    split <;> rfl
  rw [hd', map_length_arrayDims space runs h.known.labels]
  refine ⟨fun ha => ?_, h.evaluate_eq_overflow⟩
  obtain ⟨m, he, ht⟩ := h.exists_evaluate ha
  refine ⟨m, he, ht.dims, ht.full, ?_⟩
  intro index hw
  rw [ht.shape, Grid.within_append_iff] at hw
  obtain ⟨choice, tail, rfl, hc, htail⟩ := hw
  cases htail with
  | @cons r _ rest _ hr hrest =>
    obtain ⟨a, ha, hp⟩ := Tabulates.exists_assignment hc
    obtain ⟨v, x, hv, hx, hg⟩ := ht.exists_value ha hr hrest
    exact ⟨choice, r, rest, a, v, x, rfl, hp, hv, hx, hg⟩

end

section Samples

/-- A campaign that has a run for every request. -/
def tireless : Results := fun a runs => .ok ((List.range runs).map fun r => ⟨"run", r, a, []⟩)

/-- The repetition itself, and half of it. -/
def repetitionPair : Metric.Reducer where
  name := "repetition"
  labels := Metric.numberLabels
  compute r := .ok (.vector [Float.ofNat r.repetition, Float.ofNat r.repetition / 2])
  warnings := Metric.noWarnings

theorem uniform_tireless (space : Space) (runs : Nat) :
    Uniform tireless repetitionPair space runs (some 2) where
  values a _ := ⟨_, rfl, by simp, fun run _ => ⟨_, rfl, rfl⟩⟩
  labels n hn := by
    obtain rfl := Option.some.inj hn
    rfl

def twoSpeeds : Space :=
  ⟨[("speed", .list [.int 1, .int 2]), ("height", .single (.int 5))], by simp⟩

theorem evaluate_of_uniform_twoSpeeds :
    Uniform tireless repetitionPair twoSpeeds 3 (some 2) ∧
      ∃ m, evaluate tireless repetitionPair twoSpeeds 3 = .ok m ∧ m.shape = [2, 1, 3, 2] ∧
        m.cells.length = 12 := by
  have h := uniform_tireless twoSpeeds 3
  obtain ⟨m, he, hd, hf, -⟩ := (evaluate_of_uniform h rfl).1 (by decide)
  have hs : m.shape = [2, 1, 3, 2] := congrArg (List.map Dim.length) hd
  exact ⟨h, m, he, hs, by rw [hf, hs]; rfl⟩

/-- No assignment, beside ten dimensions of 128 coordinates. -/
def crowded : Space :=
  ⟨("a", .list []) :: ["b", "c", "d", "e", "f", "g", "h", "i", "j", "k"].map fun name =>
    (name, .list (List.replicate 128 (.int 0))), by simp⟩

/-- Without any value to compute, an evaluation can still fail. -/
theorem evaluate_crowded :
    Uniform tireless Metric.delay crowded 1 none ∧
      evaluate tireless Metric.delay crowded 1 = .error (.misshapen .overflow) := by
  have h : Uniform tireless Metric.delay crowded 1 none :=
    ⟨fun a ha => absurd ha List.not_mem_nil, fun n hn => nomatch hn⟩
  exact ⟨h, h.evaluate_eq_overflow (by decide +kernel)⟩

end Samples

end SimCampaign.Campaign
