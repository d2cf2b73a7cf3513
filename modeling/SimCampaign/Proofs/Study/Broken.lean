import SimCampaign.Proofs.Archive.Invariant
import SimCampaign.Proofs.Archive.Provenance
import SimCampaign.Study.Completion

/-! Which runs of a space are flagged as broken: those that wrote errors, each under its own id, if
all runs of the space can be read. -/

namespace SimCampaign.Study
open Archive
open Param (Assignment Space)

variable {a : Archive} {t : FileTree} {id : String} {run : Run} {params : Assignment}
  {space : Space} {runs : Nat} {w : World}

section Errors

/-- Whether the text that a run left as standard error is not empty. -/
def wroteErrors (a : Archive) (t : FileTree) (id : String) : Bool :=
  match t.node? (a.runFolder id ++ [Run.standardError]) with
  | some (.file doc) =>
    match FileTree.documentText doc with
    | .ok text => text != ""
    | .error _ => false
  | some .folder | none => false

theorem wroteErrors_iff : wroteErrors a t id = true ↔
    ∃ text, Holds t (a.runFolder id) Run.standardError text ∧ text ≠ "" := by
  have hne : Run.standardError ≠ recordName := by decide
  simp only [Holds, and_iff_right hne]
  rw [wroteErrors]
  cases hn : t.node? (a.runFolder id ++ [Run.standardError]) with
  | none => simp
  | some n =>
    cases n with
    | folder => simp
    | file doc => cases ht : FileTree.documentText doc <;> simp [ht]

theorem isBroken_of_loadRun (h : a.loadRun t id = .ok run) : run.isBroken = wroteErrors a t id := by
  rw [Bool.eq_iff_iff, wroteErrors_iff, Run.isBroken]
  cases hr : run.artifact? Run.standardError with
  | none =>
    refine iff_of_false Bool.false_ne_true ?_
    rintro ⟨text, ht, -⟩
    rw [← artifact?_of_loadRun h, hr] at ht
    cases ht
  | some text =>
    have ht := (artifact?_of_loadRun h).1 hr
    rw [bne_iff_ne]
    constructor
    · exact fun hne => ⟨text, ht, hne⟩
    · rintro ⟨text', ht', hne⟩
      rw [← artifact?_of_loadRun h, hr] at ht'
      rwa [Option.some.inj ht']

def failing (a : Archive) (t : FileTree) (space : Space) (runs : Nat) : List PendingRun :=
  (allRuns space runs).filter fun r => wroteErrors a t r.id

def failingIds (a : Archive) (t : FileTree) (space : Space) (runs : Nat) : List String :=
  (failing a t space runs).map PendingRun.id

def idsOf (runs : Nat) (params : Assignment) : List String :=
  (List.range runs).map fun i => (PendingRun.of params i).id

theorem failingIds_eq (a : Archive) (t : FileTree) (space : Space) (runs : Nat) :
    failingIds a t space runs =
      (space.assignments.map fun params => (idsOf runs params).filter (wroteErrors a t)).flatten := by
  rw [failingIds, failing, allRuns, List.filter_flatMap, List.map_flatMap, List.flatMap]
  refine congrArg List.flatten (List.map_congr_left fun params _ => ?_)
  rw [idsOf, List.filter_map, List.filter_map, List.map_map]
  rfl

theorem mem_failingIds_iff {r : PendingRun} (hr : r ∈ allRuns space runs) :
    r.id ∈ failingIds a t space runs ↔ wroteErrors a t r.id = true := by
  rw [failingIds, List.mem_map]
  constructor
  · rintro ⟨s, hs, he⟩
    rw [← he]
    exact (List.mem_filter.1 hs).2
  · intro h
    exact ⟨r, List.mem_filter.2 ⟨hr, h⟩, rfl⟩

theorem plain_of_mem_failingIds (h : id ∈ failingIds a t space runs) : Path.Plain id := by
  obtain ⟨r, hr, rfl⟩ := List.mem_map.1 h
  exact plain_id_of_mem_allRuns (List.mem_filter.1 hr).1

end Errors

section Read

/-- Whether every run of a space can be read. -/
def AllLoad (a : Archive) (t : FileTree) (space : Space) (runs : Nat) : Prop :=
  ∀ r ∈ allRuns space runs, ∃ run, a.loadRun t r.id = .ok run

def reportOf (e : Archive.Error) : Report := Report.ofCampaign (Campaign.Error.ofArchive e)

/-- The ids of the broken runs of an assignment, as they are read. -/
def brokenIds (a : Archive) (t : FileTree) (runs : Nat) (params : Assignment) :
    Except Report (List String) := do
  let found ← (archived a t params runs).mapError Report.ofCampaign
  return (Run.flagBroken found).1

theorem reads_brokenOf (a : Archive) (t : FileTree) (runs : Nat) (params : Assignment) :
    Session.Reads t (brokenOf a runs params) (brokenIds a t runs params) := by
  rintro w rfl
  rw [brokenOf, Session.outcome_files_bind, brokenIds]
  generalize (archived a w.files params runs).mapError Report.ofCampaign = x
  cases x with
  | error e => exact ⟨w.log, Session.outcome_bind_of_error rfl⟩
  | ok found =>
    refine ⟨w.log ++ (Run.flagBroken found).2, ?_⟩
    rw [Session.outcome_ofExcept_bind rfl, Session.outcome_logAll_bind, Session.outcome_pure]
    rfl

def readBroken (a : Archive) (t : FileTree) (space : Space) (runs : Nat) :
    Except Report (List String) := do
  return (← space.assignments.mapM (brokenIds a t runs)).flatten

theorem reads_brokenRuns (a : Archive) (t : FileTree) (space : Space) (runs : Nat) :
    Session.Reads t (brokenRuns a space runs) (readBroken a t space runs) :=
  (Session.reads_mapM fun params _ => reads_brokenOf a t runs params).bind fun ids =>
    Session.reads_pure t ids.flatten

section Done
variable (hd : ∀ r ∈ allRuns space runs, a.isDone t r.id = true)
include hd

theorem results_of_done (hp : params ∈ space.assignments) :
    a.results t params runs = (idsOf runs params).mapM (a.loadRun t) := by
  rw [results, doneIds, idsOf, List.takeWhile_eq_self_iff.2]
  intro id hid
  obtain ⟨i, hi, rfl⟩ := List.mem_map.1 hid
  exact hd _ (of_mem_allRuns hp (List.mem_range.1 hi))

theorem id_of_loadRun (hs : Sound a t) (hid : id ∈ idsOf runs params)
    (hp : params ∈ space.assignments) (h : a.loadRun t id = .ok run) : run.id = id := by
  obtain ⟨i, hi, rfl⟩ := List.mem_map.1 hid
  have hr := of_mem_allRuns hp (List.mem_range.1 hi)
  obtain ⟨r, hr, hk⟩ := hs _ (plain_id_of_mem_allRuns hr) (hd _ hr)
  exact (of_loadRun hk h).1.trans hr

theorem flagBroken_of_loaded (hs : Sound a t) (hp : params ∈ space.assignments) {found : List Run}
    (h : (idsOf runs params).mapM (a.loadRun t) = .ok found) :
    (Run.flagBroken found).1 = (idsOf runs params).filter (wroteErrors a t) := by
  -- The id comes from the record that was read, the flag from the folder that was asked for.
  have hids : ∀ id ∈ idsOf runs params, ∀ run, a.loadRun t id = .ok run → run.id = id :=
    fun id hid run hrun => id_of_loadRun hd hs hid hp hrun
  have hall := mapM_eq_ok_iff.1 h
  clear h
  generalize idsOf runs params = ids at hids hall ⊢
  have hflag (found : List Run) :
      (Run.flagBroken found).1 = (found.filter Run.isBroken).map Run.id := rfl
  rw [hflag]
  induction hall with
  | nil => rfl
  | @cons id run ids found hrun hruns ih =>
    have ih := ih fun j hj => hids j (List.mem_cons_of_mem _ hj)
    rw [List.filter_cons, List.filter_cons, isBroken_of_loadRun hrun]
    split
    · rw [List.map_cons, ih, hids id (List.mem_cons_self ..) run hrun]
    · exact ih

theorem brokenIds_of_allLoad (hs : Sound a t) (hl : AllLoad a t space runs)
    (hp : params ∈ space.assignments) :
    brokenIds a t runs params = .ok ((idsOf runs params).filter (wroteErrors a t)) := by
  have hload : ∀ id ∈ idsOf runs params, ∃ run, a.loadRun t id = .ok run := by
    intro id hid
    obtain ⟨i, hi, rfl⟩ := List.mem_map.1 hid
    exact hl _ (of_mem_allRuns hp (List.mem_range.1 hi))
  obtain ⟨found, hfound⟩ := exists_forall₂ hload
  have hfound := mapM_eq_ok_iff.2 hfound
  rw [brokenIds, archived, results_of_done hd hp, hfound, ← flagBroken_of_loaded hd hs hp hfound]
  rfl

theorem readBroken_of_allLoad (hs : Sound a t) (hl : AllLoad a t space runs) :
    readBroken a t space runs = .ok (failingIds a t space runs) := by
  have hm : space.assignments.mapM (brokenIds a t runs) =
      .ok (space.assignments.map fun params =>
        (idsOf runs params).filter (wroteErrors a t)) := by
    rw [mapM_eq_ok_iff, List.forall₂_map_right_iff, List.forall₂_same]
    exact fun params hp => brokenIds_of_allLoad hd hs hl hp
  rw [readBroken, hm, failingIds_eq]
  rfl

theorem exists_loadRun_error (hp : params ∈ space.assignments) {report : Report}
    (h : brokenIds a t runs params = .error report) :
    ∃ r ∈ allRuns space runs, ∃ e, a.loadRun t r.id = .error e ∧ report = reportOf e := by
  rw [brokenIds, archived, results_of_done hd hp] at h
  cases hm : (idsOf runs params).mapM (a.loadRun t) with
  | ok found =>
    rw [hm] at h
    cases h
  | error e =>
    rw [hm] at h
    obtain ⟨id, hid, he⟩ := exists_of_mapM_eq_error hm
    obtain ⟨i, hi, rfl⟩ := List.mem_map.1 hid
    exact ⟨_, of_mem_allRuns hp (List.mem_range.1 hi), e, he, (Except.error.inj h).symm⟩

theorem loaded_of_brokenIds (hp : params ∈ space.assignments) {ids : List String}
    (h : brokenIds a t runs params = .ok ids) {id : String} (hid : id ∈ idsOf runs params) :
    ∃ run, a.loadRun t id = .ok run := by
  obtain ⟨found, hfound, -⟩ := bind_eq_ok_iff.1 h
  rw [mapError_eq_ok_iff, archived, mapError_eq_ok_iff, results_of_done hd hp] at hfound
  exact exists_of_mapM_eq_ok hfound hid

theorem exists_readBroken_error (hl : ¬ AllLoad a t space runs) :
    ∃ r ∈ allRuns space runs, ∃ e, a.loadRun t r.id = .error e ∧
      readBroken a t space runs = .error (reportOf e) := by
  rw [readBroken]
  cases hm : space.assignments.mapM (brokenIds a t runs) with
  | ok ids =>
    refine absurd (fun r hr => ?_) hl
    obtain ⟨params, hp, hr⟩ := List.mem_flatMap.1 hr
    obtain ⟨i, hi, rfl⟩ := List.mem_map.1 hr
    obtain ⟨ids, hids⟩ := exists_of_mapM_eq_ok hm hp
    exact loaded_of_brokenIds hd hp hids (List.mem_map_of_mem hi)
  | error report =>
    obtain ⟨params, hp, he⟩ := exists_of_mapM_eq_error hm
    obtain ⟨r, hr, e, hload, rfl⟩ := exists_loadRun_error hd hp he
    exact ⟨r, hr, e, hload, rfl⟩

end Done

end Read

section Flagged
variable (hd : ∀ r ∈ allRuns space runs, a.isDone w.files r.id = true)
include hd

theorem exists_outcome_brokenRuns_of_not_allLoad (hl : ¬ AllLoad a w.files space runs) :
    ∃ r ∈ allRuns space runs, ∃ e log, a.loadRun w.files r.id = .error e ∧
      (brokenRuns a space runs).outcome w = (.error (reportOf e), { w with log }) := by
  obtain ⟨r, hr, e, he, hread⟩ := exists_readBroken_error hd hl
  obtain ⟨log, hlog⟩ := reads_brokenRuns a w.files space runs w rfl
  exact ⟨r, hr, e, log, he, hread ▸ hlog⟩

theorem exists_outcome_brokenRuns_of_allLoad (hs : Sound a w.files)
    (hl : AllLoad a w.files space runs) :
    ∃ log, (brokenRuns a space runs).outcome w =
      (.ok (failingIds a w.files space runs), { w with log }) := by
  obtain ⟨log, hlog⟩ := reads_brokenRuns a w.files space runs w rfl
  exact ⟨log, readBroken_of_allLoad hd hs hl ▸ hlog⟩

end Flagged

end SimCampaign.Study
