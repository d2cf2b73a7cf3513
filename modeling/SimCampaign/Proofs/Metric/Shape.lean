import SimCampaign.Metric.Reducer
import SimCampaign.Proofs.Except

/-! The shapes of metric values: one number, or one for the access point and for each station. -/

namespace SimCampaign.Metric
open Param (Assignment)

section Scalar

/-- A value, if there is one, is one number. -/
def YieldsScalar (x : Except Error Value) : Prop := ∀ v, x = .ok v → v.length? = none

theorem yieldsScalar_ok (x : Float) : YieldsScalar (.ok (.scalar x)) := by
  rintro v ⟨⟩
  rfl

theorem yieldsScalar_bind {α : Type} {x : Except Error α} {f : α → Except Error Value}
    (h : ∀ a, YieldsScalar (f a)) : YieldsScalar (x >>= f) := by
  intro v hv
  obtain ⟨a, -, ha⟩ := bind_eq_ok_iff.1 hv
  exact h a v ha

variable (r : Run) (w : Window)

theorem yieldsScalar_throughput : YieldsScalar ((throughput w).compute r) :=
  yieldsScalar_bind fun _ => yieldsScalar_bind fun _ => yieldsScalar_ok _

theorem yieldsScalar_normalizedThroughput (o : OfferedLoad) :
    YieldsScalar ((normalizedThroughput w o).compute r) :=
  yieldsScalar_bind fun _ => yieldsScalar_bind fun _ => yieldsScalar_bind fun _ =>
    yieldsScalar_ok _

theorem yieldsScalar_delay : YieldsScalar (delay.compute r) :=
  yieldsScalar_bind fun _ => yieldsScalar_ok _

theorem yieldsScalar_delayDeviation : YieldsScalar (delayDeviation.compute r) :=
  yieldsScalar_bind fun _ => yieldsScalar_ok _

theorem yieldsScalar_delayVariation : YieldsScalar (delayVariation.compute r) :=
  yieldsScalar_bind fun _ => yieldsScalar_ok _

theorem yieldsScalar_fairness : YieldsScalar ((fairness w).compute r) :=
  yieldsScalar_bind fun _ => yieldsScalar_bind fun _ => yieldsScalar_bind fun _ =>
    yieldsScalar_bind fun _ => yieldsScalar_ok _

end Scalar

section Entities
variable {params : Assignment} {t : PacketTrace} {r : Run} {v : Value}

theorem entities_eq_ok_iff {es : List Entity} :
    entities params = .ok es ↔ ∃ k, params.count Name.stations = .ok k ∧ Entity.upTo k = es := by
  rw [entities, bind_eq_ok_iff]
  simp only [ofParam, mapError_eq_ok_iff, Except.ok.injEq]

theorem entities_of_count {k : Nat} (h : params.count Name.stations = .ok k) :
    entities params = .ok (Entity.upTo k) :=
  entities_eq_ok_iff.2 ⟨k, h, rfl⟩

theorem length_upTo (k : Nat) : (Entity.upTo k).length = k + 1 := by
  rw [Entity.upTo, List.length_map, List.length_range]

/-- One number for each entity of the network of a run. -/
def CountsEntities (reducer : Reducer) : Prop :=
  (∀ n, (reducer.labels n).length = n) ∧ ∀ r v, reducer.compute r = .ok v →
    ∃ k, r.params.count Name.stations = .ok k ∧ v.length? = some (k + 1)

theorem length_entityLabels (n : Nat) : (entityLabels n).length = n := by
  rw [entityLabels, List.length_map, List.length_range]

theorem countsEntities_entityThroughput (w : Window) : CountsEntities (entityThroughput w) := by
  refine ⟨length_entityLabels, fun r v hv => ?_⟩
  obtain ⟨t, -, hv⟩ := bind_eq_ok_iff.1 hv
  obtain ⟨xs, hxs, hv⟩ := bind_eq_ok_iff.1 hv
  obtain ⟨es, hes, hxs⟩ := bind_eq_ok_iff.1 hxs
  obtain ⟨k, hk, rfl⟩ := entities_eq_ok_iff.1 hes
  obtain rfl := Except.ok.inj hv
  refine ⟨k, hk, congrArg some ?_⟩
  rw [← (mapM_eq_ok_iff.1 hxs).length_eq, length_upTo]

theorem countsEntities_entityDelay : CountsEntities entityDelay := by
  refine ⟨length_entityLabels, fun r v hv => ?_⟩
  obtain ⟨t, -, hv⟩ := bind_eq_ok_iff.1 hv
  obtain ⟨xs, hxs, hv⟩ := bind_eq_ok_iff.1 hv
  obtain ⟨es, hes, hxs⟩ := bind_eq_ok_iff.1 hxs
  obtain ⟨k, hk, rfl⟩ := entities_eq_ok_iff.1 hes
  obtain rfl := Except.ok.inj hxs
  obtain rfl := Except.ok.inj hv
  refine ⟨k, hk, congrArg some ?_⟩
  rw [List.length_map, length_upTo]

theorem count_congr {a b : Assignment} {name : String} (h : a.get? name = b.get? name) :
    a.count name = b.count name := by
  simp only [Assignment.count, Assignment.int, Assignment.require, h]

end Entities

end SimCampaign.Metric
