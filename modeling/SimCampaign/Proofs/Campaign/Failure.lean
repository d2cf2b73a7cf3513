import SimCampaign.Proofs.Campaign.Evaluation
import SimCampaign.Proofs.First

/-! How the evaluation of a metric over a space fails. -/

namespace SimCampaign.Campaign
open Param (Assignment Dim Space)
open Grid (Addressable cellCount)

/-- Why an assignment has no values: its runs cannot be had, there are not as many as asked for, or
the metric fails, first on one of them. -/
inductive Fault (results : Results) (reducer : Metric.Reducer) (runs : Nat) (a : Assignment) :
    Error → Prop
  | results {e : Error} (h : results a runs = .error e) : Fault results reducer runs a e
  | notRun {found : List Run} (h : results a runs = .ok found) (hl : found.length ≠ runs) :
    Fault results reducer runs a (.notRun a.display runs found.length)
  | metric {found : List Run} {r : Nat} {run : Run} {cause : Metric.Error}
    (h : results a runs = .ok found) (hl : found.length = runs)
    (hr : First (fun run => ∃ cause, reducer.compute run = .error cause) found r run)
    (hc : reducer.compute run = .error cause) :
    Fault results reducer runs a (.metric run.id reducer.name cause)

/-- The run of a repetition of an assignment, both by their positions, and its value. -/
def ValueAt (results : Results) (reducer : Metric.Reducer) (space : Space) (runs i r : Nat)
    (run : Run) (v : Metric.Value) : Prop :=
  ∃ a found, space.assignments[i]? = some a ∧ results a runs = .ok found ∧
    found[r]? = some run ∧ reducer.compute run = .ok v

/-- The lengths of the dimensions of an evaluation to values of one shape. -/
def shapeOf (reducer : Metric.Reducer) (space : Space) (runs : Nat) (length? : Option Nat) :
    List Nat :=
  (arrayDims reducer space runs (knownLength space runs length?)).map Dim.length

/-- Whether vectors have as many labels as numbers, and indices address the dimensions. -/
structure Placeable (reducer : Metric.Reducer) (space : Space) (runs : Nat) (length? : Option Nat) :
    Prop where
  labels : ∀ n, knownLength space runs length? = some n → (reducer.labels n).length = n
  addressable : Addressable (shapeOf reducer space runs length?)

/-- How an evaluation fails. A fault of any assignment comes before values of several shapes, and
these before dimensions that do not fit the values. -/
inductive Failure (results : Results) (reducer : Metric.Reducer) (space : Space) (runs : Nat) :
    Error → Prop
  | fault {i : Nat} {a : Assignment} {e : Error}
    (hf : First (fun a => ∃ e, Fault results reducer runs a e) space.assignments i a)
    (he : Fault results reducer runs a e) : Failure results reducer space runs e
  | shape {i r : Nat} {run₀ run : Run} {v₀ v : Metric.Value}
    (hn : ∀ a ∈ space.assignments, ∀ e, ¬ Fault results reducer runs a e)
    (h₀ : ValueAt results reducer space runs 0 0 run₀ v₀)
    (h : ValueAt results reducer space runs i r run v) (hne : v.length? ≠ v₀.length?)
    (hf : ∀ i' r' run' v', i' < i ∨ i' = i ∧ r' < r →
      ValueAt results reducer space runs i' r' run' v' → v'.length? = v₀.length?) :
    Failure results reducer space runs (.shape run.id v₀.length? v.length?)
  | misfit {length? : Option Nat} {cause : Grid.Misfit}
    (hn : ∀ a ∈ space.assignments, ∀ e, ¬ Fault results reducer runs a e)
    (hs : ∀ i r run v, ValueAt results reducer space runs i r run v → v.length? = length?)
    (h : Grid.misfit? (shapeOf reducer space runs length?)
      (space.cells * runs * (knownLength space runs length?).getD 1) = some cause) :
    Failure results reducer space runs (.misshapen cause)

variable {results : Results} {reducer : Metric.Reducer} {space : Space} {runs : Nat}
  {a : Assignment} {e : Error} {length? : Option Nat} {vss : List (List (String × Metric.Value))}

section Fault

theorem valueOf_eq_error_iff {run : Run} : valueOf reducer run = .error e ↔
    ∃ cause, reducer.compute run = .error cause ∧ e = .metric run.id reducer.name cause := by
  rw [valueOf]
  cases reducer.compute run with
  | ok v => simp
  | error cause => simp [eq_comm]

theorem fails_valueOf_iff (run : Run) : (∃ e, valueOf reducer run = .error e) ↔
    ∃ cause, reducer.compute run = .error cause := by
  simp only [valueOf_eq_error_iff]
  exact ⟨fun ⟨_, cause, hc, _⟩ => ⟨cause, hc⟩, fun ⟨cause, hc⟩ => ⟨_, cause, hc, rfl⟩⟩

theorem valuesOf_of_fault (h : Fault results reducer runs a e) :
    valuesOf results reducer runs a = .error e := by
  cases h with
  | results h =>
    rw [valuesOf, runsOf, h]
    rfl
  | notRun h hl =>
    simp only [valuesOf, runsOf, h, bind, Except.bind, if_neg hl]
  | @metric found r run cause h hl hr hc =>
    have hfirst := hr.congr fun run _ => (fails_valueOf_iff run).symm
    have hm := hfirst.mapM_eq_error (valueOf_eq_error_iff.2 ⟨cause, hc, rfl⟩)
    simp only [valuesOf, runsOf, h, bind, Except.bind, if_pos hl, hm]

theorem exists_fault (h : valuesOf results reducer runs a = .error e) :
    ∃ e, Fault results reducer runs a e := by
  cases hr : results a runs with
  | error e => exact ⟨e, .results hr⟩
  | ok found =>
    by_cases hl : found.length = runs
    · simp only [valuesOf, runsOf, hr, bind, Except.bind, if_pos hl] at h
      obtain ⟨r, run, hfirst, he⟩ := mapM_eq_error_iff.1 h
      obtain ⟨cause, hc, -⟩ := valueOf_eq_error_iff.1 he
      exact ⟨_, .metric hr hl (hfirst.congr fun run _ => fails_valueOf_iff run) hc⟩
    · exact ⟨_, .notRun hr hl⟩

theorem valuesOf_eq_error_iff :
    valuesOf results reducer runs a = .error e ↔ Fault results reducer runs a e := by
  refine ⟨fun h => ?_, valuesOf_of_fault⟩
  obtain ⟨e', he⟩ := exists_fault h
  obtain rfl : e' = e := Except.error.inj ((valuesOf_of_fault he).symm.trans h)
  exact he

theorem values_of_first_fault {i : Nat}
    (hf : First (fun a => ∃ e, Fault results reducer runs a e) space.assignments i a)
    (he : Fault results reducer runs a e) : values results reducer space runs = .error e := by
  simp only [← valuesOf_eq_error_iff] at hf he
  rw [values, hf.mapM_eq_error he]
  rfl

theorem exists_values_of_no_fault
    (hn : ∀ a ∈ space.assignments, ∀ e, ¬ Fault results reducer runs a e) :
    ∃ vss, List.Forall₂ (fun a vs => valuesOf results reducer runs a = .ok vs)
      space.assignments vss := by
  refine exists_forall₂ fun a ha => ?_
  cases hv : valuesOf results reducer runs a with
  | ok vs => exact ⟨vs, rfl⟩
  | error e => exact absurd (valuesOf_eq_error_iff.1 hv) (hn a ha e)

end Fault

section Shape
variable (hvss : List.Forall₂ (fun a vs => valuesOf results reducer runs a = .ok vs)
  space.assignments vss) {i r : Nat} {run : Run} {v : Metric.Value}
include hvss

theorem ValueAt.exists_getElem? (h : ValueAt results reducer space runs i r run v) :
    ∃ vs, vss[i]? = some vs ∧ vs[r]? = some (run.id, v) := by
  obtain ⟨a, found, ha, hr, hrun, hc⟩ := h
  obtain ⟨vs, hvs, hv⟩ := getElem?_of_forall₂ hvss ha
  obtain ⟨found', hr', -, hp⟩ := valuesOf_eq_ok_iff.1 hv
  obtain rfl : found' = found := Except.ok.inj (hr'.symm.trans hr)
  obtain ⟨⟨id, w⟩, hw, hval⟩ := getElem?_of_forall₂ hp hrun
  obtain ⟨rfl, hc'⟩ := valueOf_eq_ok_iff.1 hval
  obtain rfl : w = v := Except.ok.inj (hc'.symm.trans hc)
  exact ⟨vs, hvs, hw⟩

theorem exists_valueAt {vs : List (String × Metric.Value)} {p : String × Metric.Value}
    (hi : vss[i]? = some vs) (hr : vs[r]? = some p) :
    ∃ run, run.id = p.1 ∧ ValueAt results reducer space runs i r run p.2 := by
  obtain ⟨a, ha, hv⟩ := getElem?_of_forall₂ hvss.flip hi
  obtain ⟨found, hfound, -, hp⟩ := valuesOf_eq_ok_iff.1 hv
  obtain ⟨run, hrun, hval⟩ := getElem?_of_forall₂ hp.flip hr
  obtain ⟨hid, hc⟩ := valueOf_eq_ok_iff.1 hval
  exact ⟨run, hid.symm, a, found, ha, hfound, hrun, hc⟩

theorem forall_flatten_iff {P : Metric.Value → Prop} : (∀ p ∈ vss.flatten, P p.2) ↔
    ∀ i r run v, ValueAt results reducer space runs i r run v → P v := by
  constructor
  · intro h i r run v hv
    obtain ⟨vs, hvs, hp⟩ := hv.exists_getElem? hvss
    exact h _ (List.mem_flatten.2 ⟨vs, List.mem_of_getElem? hvs, List.mem_of_getElem? hp⟩)
  · intro h p hp
    obtain ⟨vs, hvs, hp⟩ := List.mem_flatten.1 hp
    obtain ⟨i, hi⟩ := List.mem_iff_getElem?.1 hvs
    obtain ⟨r, hr⟩ := List.mem_iff_getElem?.1 hp
    obtain ⟨run, -, hv⟩ := exists_valueAt hvss hi hr
    exact h i r run p.2 hv

theorem exists_first_valueAt (hne : vss.flatten ≠ []) :
    ∃ run v, ValueAt results reducer space runs 0 0 run v := by
  have hpos : 0 < space.cells * runs := length_values hvss ▸ List.length_pos_iff.2 hne
  cases vss with
  | nil => exact absurd rfl hne
  | cons vs vss =>
    obtain ⟨a, -, hv⟩ := exists_of_mem_forall₂ hvss (List.mem_cons_self ..)
    have hlt : 0 < vs.length := length_valuesOf hv ▸ Nat.pos_of_mul_pos_left hpos
    obtain ⟨run, -, hval⟩ := exists_valueAt (i := 0) hvss rfl (List.getElem?_eq_getElem hlt)
    exact ⟨run, _, hval⟩

theorem vectorLength?_of_valueAt (h : ValueAt results reducer space runs 0 0 run v) :
    vectorLength? vss.flatten = v.length? := by
  obtain ⟨vs, hvs, hp⟩ := h.exists_getElem? hvss
  cases vss with
  | nil => cases hvs
  | cons ws vss =>
    obtain rfl := Option.some.inj hvs
    cases ws with
    | nil => cases hp
    | cons p ws =>
      obtain rfl := Option.some.inj hp
      rfl

theorem oddShape?_of_valueAt (h : ValueAt results reducer space runs i r run v)
    (hne : v.length? ≠ length?)
    (hf : ∀ i' r' run' v', i' < i ∨ i' = i ∧ r' < r →
      ValueAt results reducer space runs i' r' run' v' → v'.length? = length?) :
    oddShape? length? vss.flatten = some (.shape run.id length? v.length?) := by
  obtain ⟨vs, hvs, hp⟩ := h.exists_getElem? hvss
  have hinner : First (fun p => decide (p.2.length? ≠ length?) = true) vs r (run.id, v) := by
    refine ⟨hp, by simpa using hne, fun r' hr' p hp' => ?_⟩
    obtain ⟨run', -, hv'⟩ := exists_valueAt hvss hvs hp'
    simpa using hf i r' run' p.2 (.inr ⟨rfl, hr'⟩) hv'
  have houter : First (fun vs => ∃ p ∈ vs, decide (p.2.length? ≠ length?) = true) vss i vs := by
    refine ⟨hvs, ⟨_, hinner.mem, hinner.holds⟩, ?_⟩
    rintro i' hi' vs' hvs' ⟨p, hp, hodd⟩
    obtain ⟨r', hr'⟩ := List.mem_iff_getElem?.1 hp
    obtain ⟨run', -, hv'⟩ := exists_valueAt hvss hvs' hr'
    exact of_decide_eq_true hodd (hf i' r' run' p.2 (.inl hi') hv')
  obtain ⟨k, hk⟩ := houter.exists_flatten hinner
  rw [oddShape?, hk.find?_eq_some]
  rfl

end Shape

section Placement

theorem assemble_eq_error_iff {dims : List Dim} {cells : List Float} :
    assemble dims cells = .error e ↔
      ∃ cause, Grid.misfit? (dims.map Dim.length) cells.length = some cause ∧
        e = .misshapen cause := by
  rw [assemble]
  cases Grid.misfit? (dims.map Dim.length) cells.length with
  | some cause => simp [eq_comm]
  | none => simp [MetricArray.ofShape, Except.mapError]

theorem cellCount_shapeOf (reducer : Metric.Reducer) (space : Space) (runs : Nat)
    (length? : Option Nat) : cellCount (shapeOf reducer space runs length?) =
      space.cells * runs *
        ((knownLength space runs length?).map fun n => (reducer.labels n).length).getD 1 := by
  rw [shapeOf, arrayDims_eq, List.map_append, map_length_dims, Grid.cellCount_append,
    ← Space.cells_eq_cellCount]
  cases knownLength space runs length? with
  | none => simp [Dim.length, cellCount]
  | some n => simp [Dim.length, cellCount, Nat.mul_assoc]

theorem pos_of_knownLength {n : Nat} (h : knownLength space runs length? = some n) :
    0 < space.cells * runs := by
  rw [knownLength] at h
  split at h
  next hpos => exact Nat.mul_pos hpos.1 hpos.2
  next => cases h

theorem placeable_iff : Placeable reducer space runs length? ↔
    Grid.misfit? (shapeOf reducer space runs length?)
      (space.cells * runs * (knownLength space runs length?).getD 1) = none := by
  constructor
  · rintro ⟨hl, ha⟩
    have hc : space.cells * runs * (knownLength space runs length?).getD 1 =
        cellCount (shapeOf reducer space runs length?) := by
      rw [cellCount_shapeOf]
      cases hk : knownLength space runs length? with
      | none => rfl
      | some n => simp [hl n hk]
    rw [hc]
    exact Grid.misfit?_of_addressable ha
  · intro h
    refine ⟨fun n hk => ?_, Grid.addressable_of_misfit?_eq_none h⟩
    have hc := Grid.eq_cellCount_of_misfit?_eq_none h
    rw [cellCount_shapeOf, hk] at hc
    exact (Nat.eq_of_mul_eq_mul_left (pos_of_knownLength hk) hc).symm

end Placement

section Evaluation

theorem evaluate_eq_error_of_fault (h : values results reducer space runs = .error e) :
    evaluate results reducer space runs = .error e := by
  rw [evaluate, h]
  rfl

variable (hvss : List.Forall₂ (fun a vs => valuesOf results reducer runs a = .ok vs)
  space.assignments vss)
include hvss

theorem evaluate_of_one_shape (hs : ∀ p ∈ vss.flatten, p.2.length? = length?) :
    evaluate results reducer space runs =
      assemble (arrayDims reducer space runs (knownLength space runs length?))
        (vss.flatten.flatMap (·.2.toList)) ∧
    (vss.flatten.flatMap (·.2.toList)).length =
      space.cells * runs * (knownLength space runs length?).getD 1 := by
  have hn := length_values hvss
  have hv := vectorLength?_eq hn hs
  -- A value at hand makes the length known.
  have hk : ∀ p ∈ vss.flatten, p.2.length? = knownLength space runs length? := by
    intro p hp
    have hpos : 0 < space.cells * runs := hn ▸ List.length_pos_of_mem hp
    rw [hs p hp, knownLength,
      if_pos ⟨Nat.pos_of_mul_pos_right hpos, Nat.pos_of_mul_pos_left hpos⟩]
  constructor
  · rw [evaluate_of_values (values_eq_ok_iff.2 ⟨vss, hvss, rfl⟩), hv, oddShape?_eq_none_iff.2 hk]
  · have hc : ∀ p ∈ vss.flatten, p.2.toList.length = (knownLength space runs length?).getD 1 := by
      intro p hp
      rw [Metric.Value.length_toList, hk p hp]
      cases knownLength space runs length? <;> simp [cellCount]
    rw [Grid.length_flatMap_of_const hc, hn]

end Evaluation

theorem evaluate_of_failure (h : Failure results reducer space runs e) :
    evaluate results reducer space runs = .error e := by
  cases h with
  | fault hf he => exact evaluate_eq_error_of_fault (values_of_first_fault hf he)
  | shape hn h₀ h hne hf =>
    obtain ⟨vss, hvss⟩ := exists_values_of_no_fault hn
    rw [evaluate_of_values (values_eq_ok_iff.2 ⟨vss, hvss, rfl⟩),
      vectorLength?_of_valueAt hvss h₀, oddShape?_of_valueAt hvss h hne hf]
  | misfit hn hs h =>
    obtain ⟨vss, hvss⟩ := exists_values_of_no_fault hn
    obtain ⟨he, hl⟩ := evaluate_of_one_shape hvss
      ((forall_flatten_iff hvss (P := fun v => v.length? = _)).2 hs)
    rw [he]
    refine assemble_eq_error_iff.2 ⟨_, ?_, rfl⟩
    rw [hl]
    exact h

theorem exists_first_fault (ha : a ∈ space.assignments) (he : Fault results reducer runs a e) :
    ∃ e, Failure results reducer space runs e := by
  obtain ⟨i, a, hf⟩ := First.exists_of_mem (p := fun a => ∃ e, Fault results reducer runs a e) ha
    ⟨e, he⟩
  obtain ⟨e, he⟩ := hf.holds
  exact ⟨e, .fault hf he⟩

theorem exists_shape_failure
    (hn : ∀ a ∈ space.assignments, ∀ e, ¬ Fault results reducer runs a e) {i r : Nat}
    {run₀ run : Run} {v₀ v : Metric.Value} (h₀ : ValueAt results reducer space runs 0 0 run₀ v₀)
    (h : ValueAt results reducer space runs i r run v) (hne : v.length? ≠ v₀.length?) :
    ∃ e, Failure results reducer space runs e := by
  obtain ⟨i, r, ⟨run, v, h, hne⟩, hf⟩ := exists_first_pair (P := fun i r =>
    ∃ run v, ValueAt results reducer space runs i r run v ∧ v.length? ≠ v₀.length?)
    ⟨i, r, run, v, h, hne⟩
  refine ⟨_, .shape hn h₀ h hne fun i' r' run' v' hlt hv' => ?_⟩
  exact Decidable.of_not_not fun hne' => hf i' r' hlt ⟨run', v', hv', hne'⟩

theorem exists_failure (h : evaluate results reducer space runs = .error e) :
    ∃ e, Failure results reducer space runs e := by
  by_cases hn : ∀ a ∈ space.assignments, ∀ e, ¬ Fault results reducer runs a e
  · obtain ⟨vss, hvss⟩ := exists_values_of_no_fault hn
    by_cases hs : ∀ p ∈ vss.flatten, p.2.length? = vectorLength? vss.flatten
    · obtain ⟨he, hl⟩ := evaluate_of_one_shape hvss hs
      obtain ⟨cause, hm, -⟩ := assemble_eq_error_iff.1 (he.symm.trans h)
      rw [hl] at hm
      exact ⟨_, .misfit hn ((forall_flatten_iff hvss (P := fun v => v.length? = _)).1 hs) hm⟩
    · obtain ⟨run₀, v₀, h₀⟩ := exists_first_valueAt hvss fun hnil => hs fun p hp => by
        rw [hnil] at hp
        cases hp
      rw [vectorLength?_of_valueAt hvss h₀, forall_flatten_iff hvss
        (P := fun v => v.length? = v₀.length?)] at hs
      simp only [not_forall] at hs
      obtain ⟨i, r, run, v, hv, hne⟩ := hs
      exact exists_shape_failure hn h₀ hv hne
  · simp only [not_forall, not_not] at hn
    obtain ⟨a, ha, e, he⟩ := hn
    exact exists_first_fault ha he

theorem evaluate_eq_error_iff :
    evaluate results reducer space runs = .error e ↔ Failure results reducer space runs e := by
  refine ⟨fun h => ?_, evaluate_of_failure⟩
  obtain ⟨e', he⟩ := exists_failure h
  obtain rfl : e' = e := Except.error.inj ((evaluate_of_failure he).symm.trans h)
  exact he

/-- An evaluation fails because of a fault of an assignment, values of several shapes, or dimensions
that do not fit the values, and only then. The error is that of the first of them. -/
theorem evaluate_failures (results : Results) (reducer : Metric.Reducer) (space : Space)
    (runs : Nat) :
    (∀ e, evaluate results reducer space runs = .error e ↔
      Failure results reducer space runs e) ∧
    ((∃ e, evaluate results reducer space runs = .error e) ↔
      (∃ a ∈ space.assignments, ∃ e, Fault results reducer runs a e) ∨
      (∃ i r run₀ run v₀ v, ValueAt results reducer space runs 0 0 run₀ v₀ ∧
        ValueAt results reducer space runs i r run v ∧ v.length? ≠ v₀.length?) ∨
      ∃ length?, (∀ i r run v, ValueAt results reducer space runs i r run v →
        v.length? = length?) ∧ ¬ Placeable reducer space runs length?) := by
  refine ⟨fun e => evaluate_eq_error_iff, ?_⟩
  simp only [evaluate_eq_error_iff]
  constructor
  · rintro ⟨e, h⟩
    cases h with
    | @fault i a e hf he => exact .inl ⟨a, hf.mem, e, he⟩
    | shape hn h₀ h hne hf => exact .inr (.inl ⟨_, _, _, _, _, _, h₀, h, hne⟩)
    | misfit hn hs h =>
      refine .inr (.inr ⟨_, hs, fun hp => ?_⟩)
      rw [placeable_iff.1 hp] at h
      cases h
  · intro h
    by_cases hn : ∀ a ∈ space.assignments, ∀ e, ¬ Fault results reducer runs a e
    · rcases h with ⟨a, ha, e, he⟩ | ⟨i, r, run₀, run, v₀, v, h₀, h, hne⟩ | ⟨length?, hs, hp⟩
      · exact absurd he (hn a ha e)
      · exact exists_shape_failure hn h₀ h hne
      · obtain ⟨cause, hm⟩ := Option.ne_none_iff_exists'.1 (mt placeable_iff.2 hp)
        exact ⟨_, .misfit hn hs hm⟩
    · simp only [not_forall, not_not] at hn
      obtain ⟨a, ha, e, he⟩ := hn
      exact exists_first_fault ha he

/-- A metric of two numbers without labels. -/
def unlabelled : Metric.Reducer where
  name := "unlabelled"
  labels _ := []
  compute _ := .ok (.vector [0, 0])
  warnings := Metric.noWarnings

/-- Every value is there and all have one shape. -/
theorem evaluate_misplaced :
    ((∀ a ∈ crowded.assignments, ∀ e, ¬ Fault tireless Metric.delay 1 a e) ∧
      (∀ i r run v, ¬ ValueAt tireless Metric.delay crowded 1 i r run v) ∧
      evaluate tireless Metric.delay crowded 1 = .error (.misshapen .overflow)) ∧
    ((∀ a ∈ twoSpeeds.assignments, ∀ e, ¬ Fault tireless unlabelled 1 a e) ∧
      (∀ i r run v, ValueAt tireless unlabelled twoSpeeds 1 i r run v → v.length? = some 2) ∧
      evaluate tireless unlabelled twoSpeeds 1 = .error (.misshapen .incompatible)) := by
  have hnone : ∀ a, a ∉ crowded.assignments := fun a ha => absurd ha List.not_mem_nil
  have huniform : Uniform tireless Metric.delay crowded 1 none :=
    ⟨fun a ha => absurd ha (hnone a), fun n hn => nomatch hn⟩
  refine ⟨⟨fun a ha => absurd ha (hnone a), ?_, huniform.evaluate_eq_overflow (by decide +kernel)⟩,
    ?_, ?_, rfl⟩
  · rintro i r run v ⟨a, found, ha, -⟩
    exact hnone a (List.mem_of_getElem? ha)
  · intro a ha e he
    cases he with
    | results h => cases h
    | notRun h hl => exact hl (by rw [← Except.ok.inj h]; rfl)
    | metric h hl hr hc => cases hc
  · rintro i r run v ⟨a, found, -, -, -, hc⟩
    rw [← Except.ok.inj hc]
    rfl

end SimCampaign.Campaign
