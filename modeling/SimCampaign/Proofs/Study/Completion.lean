import SimCampaign.Proofs.Archive.Leftovers
import SimCampaign.Proofs.Archive.Success
import SimCampaign.Proofs.Study.Broken

/-! Completing an archive: what is missing of a space is executed, then what has written errors
once more, and nothing else changes. -/

namespace SimCampaign.Study
open Archive
open Param (Space)

variable {a : Archive} {tools : Archive.Tools} {t : FileTree} {space : Space} {runs : Nat}
  {w w₁ : World} {removes : Bool} {x : Except Archive.Error Unit} {rs : List PendingRun}

section Passes

/-- What a pass over a space does that is to execute given runs, with its result: it starts them, each
at most once, and all of them if it succeeds, and one worker does so in order. Then all runs of the
space are done. The files of all other runs and of the owner stay. -/
structure Pass (a : Archive) (tools : Archive.Tools) (space : Space) (runs : Nat)
    (rs : List PendingRun) (x : Except Archive.Error Unit) (w w' : World) : Prop where
  once : (rs.map PendingRun.id).Nodup
  started : ∃ starts, w'.started = w.started ++ starts ∧ (starts.map Start.run).Subperm rs ∧
    (x = .ok () → (starts.map Start.run).Perm rs) ∧
    (a.workers tools = 1 → starts.map Start.run <+: rs)
  done : x = .ok () → ∀ r ∈ allRuns space runs, a.isDone w'.files r.id = true
  kept : ∀ id, Path.Plain id → id ∉ rs.map PendingRun.id →
    ∀ p, w'.files.node? (a.runFolder id ++ p) = w.files.node? (a.runFolder id ++ p)
  owner : w'.files.node? a.ownerFile = w.files.node? a.ownerFile
  unchanged : rs = [] → w'.files = w.files

theorem pass_runMissing (hs : Settled a w.files)
    (hn : ((allRuns space runs).map PendingRun.id).Nodup)
    (h : (a.runMissing tools space runs).outcome w = (x, w₁)) :
    Pass a tools space runs (a.missingRuns w.files space runs) x w w₁ where
  once := nodup_id_missingRuns hn
  started := by
    obtain ⟨starts, hstarted, hsub, hok⟩ := exists_started h
    refine ⟨starts, hstarted, hsub, hok, fun hone => ?_⟩
    obtain ⟨starts', hstarted', hprefix⟩ := exists_started_prefix hone h
    rwa [List.append_cancel_left (hstarted.symm.trans hstarted')]
  done hx := isDone_of_ok (hx ▸ h)
  kept _ hi hm := (within_runMissing h).node?_runFolder hs
    (List.forall_mem_map.2 (plain_of_mem_missingRuns rfl)) hi hm
  owner := node?_ownerFile_runMissing hs h
  unchanged hnil := by
    obtain ⟨log, hlog⟩ := @outcome_runMissing_of_none a tools w space runs hnil
    cases hlog.symm.trans h
    rfl

theorem pass_nil (hd : ∀ r ∈ allRuns space runs, a.isDone w.files r.id = true)
    (log : List Message) : Pass a tools space runs [] (.ok ()) w { w with log } where
  once := List.nodup_nil
  started := ⟨[], (List.append_nil _).symm, List.Subperm.refl _, fun _ => .refl _,
    fun _ => List.prefix_refl _⟩
  done _ := hd
  kept _ _ _ _ := rfl
  owner := rfl
  unchanged _ := rfl

theorem nodup_failingIds (hn : ((allRuns space runs).map PendingRun.id).Nodup) :
    (failingIds a t space runs).Nodup :=
  hn.sublist (List.filter_sublist.map PendingRun.id)

theorem forall_plain_failingIds (a : Archive) (t : FileTree) (space : Space) (runs : Nat) :
    ∀ id ∈ failingIds a t space runs, Path.Plain id := fun _ => plain_of_mem_failingIds

section Again
variable (hd : ∀ r ∈ allRuns space runs, a.isDone t r.id = true)
include hd

theorem missingRuns_again (hdirect : Direct a) :
    a.missingRuns (removed a (failingIds a t space runs) t) space runs =
      failing a t space runs := by
  rw [missingRuns_removed hdirect (forall_plain_failingIds a t space runs) hd, failing]
  refine List.filter_congr fun r hr => ?_
  rw [Bool.eq_iff_iff, decide_eq_true_iff, mem_failingIds_iff hr]

theorem isDone_of_mem_failingIds {id : String} (hid : id ∈ failingIds a t space runs) :
    a.isDone t id = true := by
  obtain ⟨r, hr, rfl⟩ := List.mem_map.1 hid
  exact hd r (List.mem_filter.1 hr).1

end Again

theorem clear_removed (hdirect : Direct a)
    (hd : ∀ r ∈ allRuns space runs, a.isDone t r.id = true)
    (hprogram : HasProgram a (removed a (failingIds a t space runs) t)) :
    Clear a (failing a t space runs) (removed a (failingIds a t space runs) t) := by
  have hp := forall_plain_failingIds a t space runs
  have hgone {r : PendingRun} (hr : r ∈ failing a t space runs) (p : Location) :
      (removed a (failingIds a t space runs) t).node? (a.runFolder r.id ++ p) = none :=
    node?_removed_of_below (hp _ (List.mem_map_of_mem hr)) (List.mem_map_of_mem hr) p
  refine ⟨hprogram, fun r hr q hq hf => ?_, fun r hr name _ hf => ?_⟩
  · rcases (mem_way_runPath (hp _ (List.mem_map_of_mem hr))).1 hq with hq | rfl
    · -- The way to the runs is that of a run that was done.
      have hfolder := (isDone_iff.1 (hd r (List.mem_filter.1 hr).1)).1 q
        ((mem_way_runPath (hp _ (List.mem_map_of_mem hr))).2 (.inl hq))
      refine FileTree.not_isFile_of_isFolder (t := removed a _ t) ?_ hf
      rwa [FileTree.isFolder_iff, node?_removed_of_outside fun id hid => hdirect id (hp id hid) q hq,
        ← FileTree.isFolder_iff]
    · obtain ⟨doc, hdoc⟩ := FileTree.isFile_iff.1 hf
      have hnone := hgone hr []
      rw [List.append_nil, hdoc] at hnone
      cases hnone
  · rw [FileTree.isFolder_iff, hgone hr] at hf
    cases hf

theorem pass_again (hdirect : Direct a) (hs : Settled a w.files)
    (hd : ∀ r ∈ allRuns space runs, a.isDone w.files r.id = true)
    (hn : ((allRuns space runs).map PendingRun.id).Nodup) {clock : Nat} {log : List Message}
    (h : (a.runMissing tools space runs).outcome
      { w with files := removed a (failingIds a w.files space runs) w.files, clock, log } =
        (x, w₁)) :
    Pass a tools space runs (failing a w.files space runs) x w w₁ := by
  have hp := forall_plain_failingIds a w.files space runs
  have hpass := pass_runMissing (hs.removed hdirect hp) hn h
  rw [missingRuns_again hd hdirect] at hpass
  refine { hpass with kept := fun id hi hnot p => ?_, owner := ?_, unchanged := fun hnil => ?_ }
  · exact (hpass.kept id hi hnot p).trans (node?_removed_of_not_mem hp hi hnot p)
  · refine hpass.owner.trans ?_
    exact node?_removed_of_outside fun id hid => not_runFolder_above_ownerFile (hp id hid)
  · have hids : failingIds a w.files space runs = [] := by
      rw [failingIds, hnil]
      rfl
    have hremoved : removed a (failingIds a w.files space runs) w.files = w.files := by
      rw [hids]
      rfl
    exact (hpass.unchanged hnil).trans hremoved

/-- Nothing hinders the runs that were deleted if they were not hindered before. -/
theorem unhindered_removed (hdirect : Direct a)
    (hd : ∀ r ∈ allRuns space runs, a.isDone w.files r.id = true)
    (hserved : Served a tools (failing a w.files space runs) w)
    (hprogram : HasProgram a (removed a (failingIds a w.files space runs) w.files))
    (hw : w₁.files = removed a (failingIds a w.files space runs) w.files)
    (hdisk : w₁.disk = w.disk) (hc : w.clock ≤ w₁.clock) :
    Unhindered a tools (a.missingRuns w₁.files space runs) w₁ := by
  rw [hw, missingRuns_again hd hdirect]
  exact ⟨hserved.later hdisk hc, hw ▸ clear_removed hdirect hd hprogram⟩

end Passes

section Outcome

theorem outcome_complete_of_error {e : Archive.Error}
    (h : (a.runMissing tools space runs).outcome w = (.error e, w₁)) :
    (complete a tools space runs removes).outcome w = (.error (reportOf e), w₁) := by
  have hr : (reportArchive (a.runMissing tools space runs)).outcome w =
      (.error (reportOf e), w₁) := by
    rw [reportArchive, Session.outcome_mapError, h]
    rfl
  exact Session.outcome_bind_of_error hr

theorem outcome_complete_of_ok (h : (a.runMissing tools space runs).outcome w = (.ok (), w₁)) :
    (complete a tools space runs removes).outcome w =
      (brokenRuns a space runs >>= fun broken =>
        if broken ≠ [] then
          if removes then do
            (a.removeRuns broken).mapError Report.ofArchive
            reportArchive (a.runMissing tools space runs)
          else Session.log (brokenSummary broken.length)
        else pure ()).outcome w₁ := by
  have hr : (reportArchive (a.runMissing tools space runs)).outcome w = (.ok (), w₁) := by
    rw [reportArchive, Session.outcome_mapError, h]
    rfl
  exact Session.outcome_bind_of_ok hr

/-- What is done about the runs that wrote errors in the first pass, if they are to be removed: they
are deleted and executed again, unless a fault of the disk stops their deletion. -/
structure Again (a : Archive) (tools : Archive.Tools) (space : Space) (runs : Nat) (w w₁ : World) :
    Prop where
  outcome :
    (∃ e w₂, (complete a tools space runs true).outcome w = (.error (Report.ofArchive e), w₂) ∧
      Clears a (failingIds a w₁.files space runs) w₁ w₂ ∧
      ∃ moment ≥ w₁.clock, w₁.disk moment ≠ none) ∨
    ∃ y w₂, (complete a tools space runs true).outcome w = (y.mapError reportOf, w₂) ∧
      Pass a tools space runs (failing a w₁.files space runs) y w₁ w₂
  succeeds : Served a tools (failing a w₁.files space runs) w₁ →
    HasProgram a (removed a (failingIds a w₁.files space runs) w₁.files) →
    ∃ w₂, (complete a tools space runs true).outcome w = (.ok (), w₂)

structure Continues (a : Archive) (tools : Archive.Tools) (space : Space) (runs : Nat)
    (removes : Bool) (x : Except Archive.Error Unit) (w w₁ : World) : Prop where
  failed : ∀ e, x = .error e →
    (complete a tools space runs removes).outcome w = (.error (reportOf e), w₁)
  unread : x = .ok () → ¬ AllLoad a w₁.files space runs →
    ∃ r ∈ allRuns space runs, ∃ e log, a.loadRun w₁.files r.id = .error e ∧
      (complete a tools space runs removes).outcome w = (.error (reportOf e), { w₁ with log })
  left : x = .ok () → AllLoad a w₁.files space runs → removes = false →
    ∃ log, (complete a tools space runs removes).outcome w = (.ok (), { w₁ with log })
  again : x = .ok () → AllLoad a w₁.files space runs → removes = true →
    Again a tools space runs w w₁

section Loaded
variable (hs : Settled a w₁.files) (hsound : Sound a w₁.files)
  (hl : AllLoad a w₁.files space runs)
  (h : (a.runMissing tools space runs).outcome w = (.ok (), w₁))
include hsound hl h

theorem exists_outcome_complete_of_left :
    ∃ log, (complete a tools space runs false).outcome w = (.ok (), { w₁ with log }) := by
  obtain ⟨log, hbroken⟩ := exists_outcome_brokenRuns_of_allLoad (isDone_of_ok h) hsound hl
  rw [outcome_complete_of_ok h, Session.outcome_bind_of_ok hbroken]
  by_cases hnil : failingIds a w₁.files space runs = []
  · rw [hnil]
    exact ⟨log, rfl⟩
  · rw [if_pos hnil]
    exact ⟨_, rfl⟩

include hs

theorem again_complete (hdirect : Direct a) (hn : ((allRuns space runs).map PendingRun.id).Nodup) :
    Again a tools space runs w w₁ := by
  have hd := isDone_of_ok h
  obtain ⟨log, hbroken⟩ := exists_outcome_brokenRuns_of_allLoad hd hsound hl
  have ho : (complete a tools space runs true).outcome w = _ :=
    (outcome_complete_of_ok h).trans (Session.outcome_bind_of_ok hbroken)
  by_cases hnil : failingIds a w₁.files space runs = []
  · -- Without broken runs only the log differs from the first pass.
    have hfailing : failing a w₁.files space runs = [] := List.map_eq_nil_iff.1 hnil
    rw [hnil] at ho
    exact ⟨.inr ⟨.ok (), _, ho, hfailing ▸ pass_nil hd log⟩, fun _ _ => ⟨_, ho⟩⟩
  rw [if_pos hnil, if_pos rfl] at ho
  have hp := forall_plain_failingIds a w₁.files space runs
  have hclears := clears_removeRuns a (failingIds a w₁.files space runs) { w₁ with log }
  obtain ⟨e, w₂, hr, hfault⟩ | ⟨clock, hc, log', hr⟩ := outcome_removeRuns_of_isDone
    (w := { w₁ with log }) hdirect hp (nodup_failingIds hn)
    (fun id hid => isDone_of_mem_failingIds hd hid)
  · rw [hr] at hclears
    have hm : ((a.removeRuns (failingIds a w₁.files space runs)).mapError
        Report.ofArchive).outcome { w₁ with log } = (.error (Report.ofArchive e), w₂) := by
      rw [Session.outcome_mapError, hr]
      rfl
    rw [Session.outcome_bind_of_error hm] at ho
    refine ⟨.inl ⟨e, w₂, ho, ?_, hfault⟩, fun hserved _ => ?_⟩
    · exact ⟨hclears.node?_or, hclears.started, hclears.disk, hclears.clock⟩
    · obtain ⟨moment, hmoment, hdisk⟩ := hfault
      exact absurd (hserved.disk moment hmoment) hdisk
  · obtain ⟨w₂, hw₂⟩ : ∃ w₂ : World, w₂ = { w₁ with
        files := removed a (failingIds a w₁.files space runs) w₁.files
        clock, log := log' } := ⟨_, rfl⟩
    have hm : ((a.removeRuns (failingIds a w₁.files space runs)).mapError
        Report.ofArchive).outcome { w₁ with log } = (.ok (), w₂) := by
      rw [Session.outcome_mapError, hr, hw₂]
      rfl
    rw [Session.outcome_bind_of_ok hm, reportArchive, Session.outcome_mapError] at ho
    cases hagain : (a.runMissing tools space runs).outcome w₂ with
    | mk y w₃ =>
      rw [hagain] at ho
      refine ⟨.inr ⟨y, w₃, ho, ?_⟩, fun hserved hprogram => ⟨w₃, ?_⟩⟩
      · rw [hw₂] at hagain
        exact pass_again hdirect hs hd hn hagain
      · have hfiles : w₂.files = removed a (failingIds a w₁.files space runs) w₁.files :=
          by rw [hw₂]
        have hs₂ : Settled a w₂.files := hfiles ▸ hs.removed hdirect hp
        have hu₂ := unhindered_removed hdirect hd hserved hprogram hfiles
          (by rw [hw₂]) (by rw [hw₂]; exact hc)
        obtain rfl := runMissing_of_unhindered hs₂ hu₂ hagain
        exact ho

end Loaded

/-- What is missing is executed. If all runs of the space can be read then, those that wrote errors
are executed once more if broken ones are to be removed, and all else stays. If an execution fails
or a run cannot be read, nothing more happens. -/
theorem complete_executes_missing_then_failing (a : Archive) (tools : Archive.Tools)
    (space : Space) (runs : Nat) (removes : Bool) (w w₁ : World) (x : Except Archive.Error Unit)
    (hreach : Reachable a w.files) (hdirect : Direct a)
    (hn : ((allRuns space runs).map PendingRun.id).Nodup)
    (h : (a.runMissing tools space runs).outcome w = (x, w₁)) :
    Pass a tools space runs (a.missingRuns w.files space runs) x w w₁ ∧
      (Unhindered a tools (a.missingRuns w.files space runs) w → x = .ok ()) ∧
      Continues a tools space runs removes x w w₁ := by
  refine ⟨pass_runMissing hreach.settled hn h,
    fun hu => runMissing_of_unhindered hreach.settled hu h, ?_, ?_, ?_, ?_⟩
  · rintro e rfl
    exact outcome_complete_of_error h
  · rintro rfl hl
    obtain ⟨r, hr, e, log, hload, hbroken⟩ :=
      exists_outcome_brokenRuns_of_not_allLoad (isDone_of_ok h) hl
    refine ⟨r, hr, e, log, hload, ?_⟩
    rw [outcome_complete_of_ok h, Session.outcome_bind_of_error hbroken]
  · rintro rfl hl rfl
    exact exists_outcome_complete_of_left (Reachable.call hreach h (.inl rfl)).sound hl h
  · rintro rfl hl rfl
    have hreach₁ := Reachable.call hreach h (.inl rfl)
    exact again_complete hreach₁.settled hreach₁.sound hl h hdirect hn

end Outcome

section Warning

/-- A simulator that says something, and leaves the same in every folder. -/
def saying (output : ByteArray) (errors : String) (effects : List Effect) : Archive.Tools :=
  { leaving [] with
    simulator.run _ _ _ :=
      .ok { effects, output, errors := Text.encode errors, status := .exited 0 } }

def warning : Archive.Tools := saying .empty "warn" []

def firstPass (a : Archive) (tools : Archive.Tools) (space : Space) (runs : Nat) (w : World) :
    World :=
  ((a.runMissing tools space runs).outcome w).2

theorem reachable_readyWorld : Reachable oneScript readyWorld.files := by
  refine .fresh (settled_oneScript _) fun id hi => Bool.eq_false_iff.2 fun hd => ?_
  have he := (isDone_iff.1 hd).2
  rw [FileTree.exists?, node?_readyWorld hi] at he
  cases he

theorem direct_oneScript : Direct oneScript := by
  have hn : ".." ∉ Path.pieces oneScript.directory := by decide
  exact direct_of_plain hn

def programPath : String := "ns-3/build/optimized/scratch/ns3-dev-sim-optimized"

theorem hasProgram_of_isFile {t : FileTree}
    (h : (t.find programPath).toOption.map Node.isFile = some true) : HasProgram oneScript t := by
  intro path hpath
  have hprogram : oneScript.program? = some programPath := by decide +kernel
  obtain rfl := Option.some.inj (hprogram.symm.trans hpath)
  cases hf : t.find programPath with
  | error e =>
    rw [hf] at h
    cases h
  | ok n =>
    rw [hf] at h
    cases n with
    | folder => cases h
    | file doc => exact ⟨doc, rfl⟩

theorem served_warning {w : World} (hdisk : w.disk = fun _ => none) :
    Served oneScript warning [onlyRun] w where
  pool _ _ := rfl
  disk _ _ := by rw [hdisk]
  speakable r hr := by
    rw [List.mem_singleton.1 hr]
    decide +kernel
  starts _ _ _ := ⟨_, rfl, fun _ _ => List.not_mem_nil⟩

def warnedWorld : World := firstPass oneScript warning Record.empty 1 readyWorld

/-- The only run of an archive warns, so it is executed twice. -/
theorem complete_warning :
    ∃ w, (complete oneScript warning Record.empty 1 true).outcome readyWorld = (.ok (), w) ∧
      w.started.map Start.id = [onlyRun.id, onlyRun.id] := by
  have hn : ((allRuns Record.empty 1).map PendingRun.id).Nodup := List.nodup_singleton _
  have hmissing : oneScript.missingRuns readyWorld.files Record.empty 1 = [onlyRun] := by
    have hd : oneScript.isDone readyWorld.files onlyRun.id = false := by decide +kernel
    exact List.filter_eq_self.2 fun r hr => List.mem_singleton.1 hr ▸ congrArg not hd
  have hclear : Clear oneScript [onlyRun] readyWorld.files := by
    refine ⟨hasProgram_of_isFile (by decide +kernel), fun r hr => ?_, fun r hr => ?_⟩
    · rw [List.mem_singleton.1 hr]
      decide +kernel
    · rw [List.mem_singleton.1 hr]
      decide +kernel
  have hwarned : wroteErrors oneScript warnedWorld.files onlyRun.id = true ∧
      (oneScript.loadRun warnedWorld.files onlyRun.id).isOk = true ∧
      ((warnedWorld.files.remove (oneScript.runFolder onlyRun.id)).find
        programPath).toOption.map Node.isFile = some true := by
    decide +kernel
  obtain ⟨herrors, hload, hprogram⟩ := hwarned
  have hfailing : failing oneScript warnedWorld.files Record.empty 1 = [onlyRun] :=
    List.filter_eq_self.2 fun r hr => List.mem_singleton.1 hr ▸ herrors
  have hids : failingIds oneScript warnedWorld.files Record.empty 1 = [onlyRun.id] := by
    rw [failingIds, hfailing]
    rfl
  have hall : AllLoad oneScript warnedWorld.files Record.empty 1 := by
    intro r hr
    obtain rfl : r = onlyRun := List.mem_singleton.1 hr
    cases ho : oneScript.loadRun warnedWorld.files onlyRun.id with
    | ok run => exact ⟨run, rfl⟩
    | error e =>
      rw [ho] at hload
      cases hload
  obtain ⟨x, ho⟩ : ∃ x, (oneScript.runMissing warning Record.empty 1).outcome readyWorld =
      (x, warnedWorld) := ⟨_, rfl⟩
  obtain ⟨hfirst, hok, hthen⟩ := complete_executes_missing_then_failing oneScript warning
    Record.empty 1 true readyWorld warnedWorld x reachable_readyWorld direct_oneScript hn ho
  rw [hmissing] at hfirst hok
  have hok := hok ⟨served_warning rfl, hclear⟩
  have hagain := hthen.again hok hall rfl
  obtain ⟨w, hw⟩ := hagain.succeeds (hfailing ▸ served_warning (disk_runMissing ho))
    (hids ▸ hasProgram_of_isFile hprogram)
  refine ⟨w, hw, ?_⟩
  obtain ⟨e, w₂, ho, -⟩ | ⟨y, w₂, ho, hpass⟩ := hagain.outcome
  · cases hw.symm.trans ho
  obtain ⟨hy, rfl⟩ := Prod.mk.inj (hw.symm.trans ho)
  obtain rfl : y = .ok () := mapError_eq_ok_iff.1 hy.symm
  obtain ⟨first, hstarted₁, -, hperm₁, -⟩ := hfirst.started
  obtain ⟨again, hstarted₂, -, hperm₂, -⟩ := hpass.started
  have hids₁ : first.map Start.run = [onlyRun] := List.perm_singleton.1 (hperm₁ hok)
  have hids₂ : again.map Start.run = [onlyRun] := List.perm_singleton.1 (hfailing ▸ hperm₂ rfl)
  have hmap (starts : List Start) : starts.map Start.id = (starts.map Start.run).map PendingRun.id :=
    (List.map_map ..).symm
  have hnone : readyWorld.started = [] := rfl
  rw [hstarted₂, hstarted₁, hnone, List.nil_append, List.map_append, hmap, hmap, hids₁, hids₂]
  rfl

end Warning

section Skipped

/-- A simulator that warns, with an output that is no text. -/
def binary : Archive.Tools := saying ⟨#[0xff]⟩ "warn" []

/-- A simulator that warns, leaves a record with another id and takes the place of the output. -/
def forging : Archive.Tools :=
  let other : PendingRun := { onlyRun with id := "0000000000000000" }
  saying .empty "" [
    .write [recordName] (Text.encode (other.record (leaving []) 0).toJson.renderIndented),
    .write [Run.standardError] (Text.encode "warn"), .folder [Run.standardOutput]]

def forgedWorld : World := firstPass oneScript forging Record.empty 1 readyWorld

def blocking : Archive.Tools := saying .empty "" [.folder [Run.standardOutput]]

def twoRuns : Space := ⟨[("x", .list [.ofNat 1, .ofNat 2])], List.nodup_singleton "x"⟩

/-- A run that wrote errors is not executed again if its output is no text, nor if a failed
execution has left a record with another id in its folder. What follows an execution that fails
after its start is not executed at all. -/
theorem complete_skips_failing :
    (failingIds oneScript (firstPass oneScript binary Record.empty 1 readyWorld).files
        Record.empty 1 = [onlyRun.id] ∧
      ((complete oneScript binary Record.empty 1 true).outcome readyWorld).2.started.map Start.id =
        [onlyRun.id]) ∧
    (forgedWorld.started.map Start.id = [onlyRun.id] ∧
      failingIds oneScript (firstPass oneScript (leaving []) Record.empty 1 forgedWorld).files
        Record.empty 1 = [onlyRun.id] ∧
      ((complete oneScript (leaving []) Record.empty 1 true).outcome forgedWorld).1 = .ok () ∧
      ((complete oneScript (leaving []) Record.empty 1 true).outcome
        forgedWorld).2.started.map Start.id = [onlyRun.id]) ∧
    ((oneScript.missingRuns readyWorld.files twoRuns 1).map PendingRun.id =
        ["bd76fa196301c598", "100d29e962e21748"] ∧
      ((complete oneScript blocking twoRuns 1 true).outcome readyWorld).2.started.map Start.id =
        ["bd76fa196301c598"]) := by
  refine ⟨?_, ?_, ?_⟩
  · decide +kernel
  · decide +kernel
  · decide +kernel

end Skipped

end SimCampaign.Study
