import SimCampaign.Campaign.Evaluation
import SimCampaign.Proofs.Except
import SimCampaign.Proofs.Param.Enumeration

/-! The values of a metric over a space, and where their numbers stand in one row of cells. -/

namespace SimCampaign.Metric.Value
open Grid (at? cellCount)

def component? : Value → List Nat → Option Float
  | .scalar x, [] => some x
  | .vector xs, [i] => xs[i]?
  | _, _ => none

theorem length_toList (v : Value) : v.toList.length = cellCount v.length?.toList := by
  cases v with
  | scalar x => rfl
  | vector xs => exact (Nat.mul_one _).symm

theorem at?_toList (v : Value) (rest : List Nat) :
    at? v.length?.toList rest v.toList = v.component? rest := by
  cases v with
  | scalar x => cases rest <;> rfl
  | vector xs =>
    match rest with
    | [] => rfl
    | [i] =>
      change at? [xs.length] [i] xs = xs[i]?
      by_cases hi : i < xs.length
      · rw [Grid.at?_eq_getElem? (.cons hi .nil)]
        exact congrArg (xs[·]?) (Nat.mul_one i)
      · rw [at?, if_neg hi, List.getElem?_eq_none (Nat.le_of_not_lt hi)]
    | i :: j :: rest =>
      change at? [xs.length] (i :: j :: rest) xs = none
      rw [at?]
      split <;> rfl

end SimCampaign.Metric.Value

namespace SimCampaign.Campaign
open Param (Assignment Space)
open Param.Space (counts)
open Grid (at? cellCount)

def value? (results : Results) (reducer : Metric.Reducer) (runs : Nat) (a : Assignment) (r : Nat) :
    Option Metric.Value :=
  match results a runs with
  | .ok found => found[r]?.bind fun run => (reducer.compute run).toOption
  | .error _ => none

section Assignment
variable {results : Results} {reducer : Metric.Reducer} {runs : Nat} {a : Assignment}

theorem runsOf_eq_ok_iff {found : List Run} :
    runsOf results runs a = .ok found ↔ results a runs = .ok found ∧ found.length = runs := by
  rw [runsOf, bind_eq_ok_iff]
  constructor
  · rintro ⟨_, hr, h⟩
    split at h
    · cases h
      exact ⟨hr, ‹_›⟩
    · cases h
  · rintro ⟨hr, hl⟩
    exact ⟨found, hr, if_pos hl⟩

theorem valueOf_eq_ok_iff {run : Run} {p : String × Metric.Value} :
    valueOf reducer run = .ok p ↔ p.1 = run.id ∧ reducer.compute run = .ok p.2 := by
  obtain ⟨id, v⟩ := p
  rw [valueOf]
  cases reducer.compute run with
  | error e => simp
  | ok w => simp [eq_comm]

theorem valuesOf_eq_ok_iff {vs : List (String × Metric.Value)} :
    valuesOf results reducer runs a = .ok vs ↔
      ∃ found, results a runs = .ok found ∧ found.length = runs ∧
        List.Forall₂ (fun run p => valueOf reducer run = .ok p) found vs := by
  rw [valuesOf, bind_eq_ok_iff]
  simp only [runsOf_eq_ok_iff, mapM_eq_ok_iff, and_assoc]

variable {vs : List (String × Metric.Value)}

theorem length_valuesOf (h : valuesOf results reducer runs a = .ok vs) : vs.length = runs := by
  obtain ⟨found, -, rfl, hvs⟩ := valuesOf_eq_ok_iff.1 h
  exact hvs.length_eq.symm

theorem getElem?_valuesOf (h : valuesOf results reducer runs a = .ok vs) (r : Nat) :
    vs[r]?.map Prod.snd = value? results reducer runs a r := by
  obtain ⟨found, hr, hl, hvs⟩ := valuesOf_eq_ok_iff.1 h
  simp only [value?, hr]
  cases hf : found[r]? with
  | none =>
    have hn : vs.length ≤ r := hvs.length_eq ▸ List.getElem?_eq_none_iff.1 hf
    rw [List.getElem?_eq_none hn]
    rfl
  | some run =>
    obtain ⟨p, hp, hv⟩ := getElem?_of_forall₂ hvs hf
    rw [hp]
    change some p.2 = (reducer.compute run).toOption
    rw [(valueOf_eq_ok_iff.1 hv).2]
    rfl

/-- The cells of one assignment: the repetitions, each with the numbers of its value. -/
theorem at?_valuesOf {length? : Option Nat} (h : valuesOf results reducer runs a = .ok vs)
    (hl : ∀ p ∈ vs, p.2.length? = length?) (r : Nat) (rest : List Nat) :
    at? (runs :: length?.toList) (r :: rest) (vs.flatMap (·.2.toList)) =
      (value? results reducer runs a r).bind (·.component? rest) := by
  have hv (p) (hp : p ∈ vs) : p.2.toList.length = cellCount length?.toList := by
    rw [Metric.Value.length_toList, hl p hp]
  rw [← getElem?_valuesOf h, at?]
  split
  · have hr : r < vs.length := length_valuesOf h ▸ ‹r < runs›
    rw [Grid.block_flatMap_of_getElem? hv (List.getElem?_eq_getElem hr),
      List.getElem?_eq_getElem hr, ← hl _ (List.getElem_mem hr), Metric.Value.at?_toList]
    rfl
  · rw [List.getElem?_eq_none (length_valuesOf h ▸ Nat.le_of_not_lt ‹_›)]
    rfl

theorem length_flatMap_valuesOf {length? : Option Nat}
    (h : valuesOf results reducer runs a = .ok vs) (hl : ∀ p ∈ vs, p.2.length? = length?) :
    (vs.flatMap (·.2.toList)).length = cellCount (runs :: length?.toList) := by
  rw [Grid.cellCount_cons, ← length_valuesOf h]
  exact Grid.length_flatMap_of_const fun p hp => by rw [Metric.Value.length_toList, hl p hp]

end Assignment

theorem at?_values {results : Results} {reducer : Metric.Reducer} {runs : Nat} {space : Space}
    {length? : Option Nat} {vss : List (List (String × Metric.Value))}
    (h : List.Forall₂ (fun a vs => valuesOf results reducer runs a = .ok vs) space.assignments vss)
    (hl : ∀ vs ∈ vss, ∀ p ∈ vs, p.2.length? = length?) {choice : List Nat} {a : Assignment}
    (ha : at? (counts space.pairs) choice space.assignments = some a) (r : Nat)
    (rest : List Nat) :
    at? (counts space.pairs ++ runs :: length?.toList) (choice ++ r :: rest)
        (vss.flatten.flatMap (·.2.toList)) =
      (value? results reducer runs a r).bind (·.component? rest) := by
  have hw := Grid.within_of_at?_eq_some ha
  have hx : vss.length = cellCount (counts space.pairs) := by
    rw [← h.length_eq, Space.length_assignments, Space.cells_eq_cellCount]
  have hf (vs) (hvs : vs ∈ vss) :
      (vs.flatMap (·.2.toList)).length = cellCount (runs :: length?.toList) := by
    obtain ⟨b, -, hb⟩ := exists_of_mem_forall₂ h hvs
    exact length_flatMap_valuesOf hb (hl vs hvs)
  rw [Grid.at?_eq_getElem? hw] at ha
  obtain ⟨vs, hvs, hv⟩ := getElem?_of_forall₂ h ha
  have hflat : vss.flatten.flatMap (·.2.toList) =
      vss.flatMap fun vs => vs.flatMap (·.2.toList) := by
    rw [List.flatten_eq_flatMap, List.flatMap_assoc]
    rfl
  rw [hflat, Grid.at?_append_flatMap hx hf hw.length_eq, Grid.at?_eq_getElem? hw, hvs]
  exact at?_valuesOf hv (hl vs (List.mem_of_getElem? hvs)) r rest

end SimCampaign.Campaign
