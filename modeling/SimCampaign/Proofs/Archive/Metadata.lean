import SimCampaign.Archive.Metadata
import SimCampaign.Proofs.Json.Members
import SimCampaign.Proofs.Param.Rereading

/-! The record of a run as it is read again. -/

namespace SimCampaign.Archive.RunRecord
open Json (reread?)
open Param (Assignment)

variable {r s : RunRecord}

theorem parseMembers?_renderIndented (r : RunRecord) :
    Json.parseMembers? memberNames r.toJson.renderIndented = reread? r.toJson := by
  refine Json.parseMembers?_renderIndented (by simp [memberNames]) ?_
  simp [Json.nesting, Json.nestingFields, Assignment.nesting_toJson, Json.maxDepth]

/-- A record as it is read again, its numbers and texts through their own texts. -/
def again? (r : RunRecord) : Option RunRecord := (reread? r.toJson).bind ofJson?

theorem read?_toJson (r : RunRecord) : read? r.toJson.renderIndented = r.again? := by
  rw [read?, parseMembers?_renderIndented, again?]

theorem reread?_toJson {j : Json} (h : reread? r.toJson = some j) :
    ∃ params repetition start seconds,
      j = .object [("id", .string r.id), ("params", params), ("repetition", repetition),
        ("start", start), ("elapsed_secs", seconds)] ∧
      reread? r.params.toJson = some params ∧
      reread? (.integer r.repetition) = some repetition := by
  rw [toJson, reread?] at h
  obtain ⟨fields, hf, rfl⟩ := Option.map_eq_some_iff.1 h
  replace hf := Json.rereadFields?_eq_some_iff.1 hf
  cases hf with | @cons _ id _ _ hid hf =>
  cases hf with | @cons _ params _ _ hparams hf =>
  cases hf with | @cons _ repetition _ _ hrepetition hf =>
  cases hf with | @cons _ start _ _ hstart hf =>
  cases hf with | @cons _ seconds _ _ hseconds hf =>
  cases hf
  have hid' : id = ("id", .string r.id) := by
    refine Prod.ext hid.1.symm ?_
    have hs := hid.2
    rw [reread?] at hs
    exact (Option.some.inj hs).symm
  have hnamed : ∀ (p : String × Json) {name}, name = p.1 → p = (name, p.2) := by
    rintro p _ rfl
    rfl
  refine ⟨params.2, repetition.2, start.2, seconds.2, ?_, hparams.2, hrepetition.2⟩
  rw [hid', hnamed params hparams.1, hnamed repetition hrepetition.1, hnamed start hstart.1,
    hnamed seconds hseconds.1]

theorem members?_toJson (id params repetition start seconds : Json) :
    Json.members? memberNames
      (.object [("id", id), ("params", params), ("repetition", repetition), ("start", start),
        ("elapsed_secs", seconds)]) = some [id, params, repetition, start, seconds] := by
  rfl

theorem eq_of_reread?_nat {n m : Nat} (h : reread? (.integer n) = some (.integer (.ofNat m))) :
    m = n := by
  rw [Json.reread?_integer] at h
  rcases Json.eq_or_float_of_value? h with he | ⟨x, he⟩
  · cases he
    rfl
  · cases he

theorem of_read? (h : read? r.toJson.renderIndented = some s) :
    s.id = r.id ∧ s.repetition = r.repetition ∧ r.params.RereadAs s.params := by
  rw [read?_toJson] at h
  obtain ⟨j, hj, hs⟩ := Option.bind_eq_some_iff.1 h
  obtain ⟨params, repetition, start, seconds, rfl, hparams, hrepetition⟩ := reread?_toJson hj
  rw [ofJson?, members?_toJson, Option.bind_eq_bind, Option.bind_some] at hs
  split at hs
  next he =>
    simp only [List.cons.injEq, Json.string.injEq, and_true] at he
    obtain ⟨rfl, rfl, rfl, rfl, rfl⟩ := he
    obtain ⟨a, ha, hs⟩ := Option.bind_eq_some_iff.1 hs
    obtain ⟨x, -, hs⟩ := Option.bind_eq_some_iff.1 hs
    split at hs
    next =>
      cases hs
      refine ⟨rfl, eq_of_reread?_nat hrepetition, ?_⟩
      exact Assignment.rereadAs_of_reread? (Option.bind_eq_some_iff.2 ⟨_, hparams, ha⟩)
    next => cases hs
  next => cases hs

end SimCampaign.Archive.RunRecord
