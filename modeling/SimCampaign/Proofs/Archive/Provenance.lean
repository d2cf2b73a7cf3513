import SimCampaign.Proofs.Archive.History
import SimCampaign.Proofs.Archive.Loading
import SimCampaign.Proofs.Archive.Metadata

/-! Where the results of an assignment come from: each is the record of a run that was executed,
and which one is found by the id alone. -/

namespace SimCampaign.Archive
open Param (Assignment Space)

variable {a : Archive} {w w' : World} {t : FileTree}

section Calls
variable {kept : List PendingRun} {c : Call} {calls : List Call}

/-- Whether every record is that of the last kept run of its id. -/
def Recorded (a : Archive) (kept : List PendingRun) (t : FileTree) : Prop :=
  ∀ params doc, t.node? (a.recordFile (RunId.ofParams params)) = some (.file doc) →
    ∃ r, LastOf kept (RunId.ofParams params) r ∧ KeepsRecord a t (RunId.ofParams params) r

def Call.executedRuns (a : Archive) (c : Call) (w : World) : List PendingRun :=
  a.missingRuns (c.found w).files c.space c.runs

theorem Recorded.outcome (h : Recorded a kept w.files) (hc : Spares a c.before)
    (hok : (c.outcome a w).1 = .ok ()) :
    ∃ starts later, (c.outcome a w).2.started = w.started ++ starts ∧
      (c.outcome a w).2.finished = w.finished ++ later ∧
      (starts.map Start.run).Perm (c.executedRuns a w) ∧ later.Perm (c.executedRuns a w) ∧
      Recorded a (kept ++ later) (c.outcome a w).2.files := by
  have ho : (a.runMissing c.tools c.space c.runs).outcome (c.found w) =
      (.ok (), (c.outcome a w).2) := Prod.ext hok rfl
  obtain ⟨starts, hstarted, -, hperm⟩ := exists_started ho
  obtain ⟨log, -, hx, -⟩ | ⟨log, log', tasks, w₁, starts₁, later, hm, he, hx, hw⟩ :=
    runMissing_cases (reached_runTasks a c.tools) ho
  · cases hx
  have hall := he.kept_of_ok hx
  refine ⟨starts, later, hstarted, hw ▸ hm.finished_eq, hperm rfl, ?_, ?_⟩
  · have hkept := hm.finished_perm
    rwa [runsAt_eq_map rfl hall, hm.map_run] at hkept
  · intro params doc hd
    have hi := RunId.plain_ofParams params
    rw [hw] at hd ⊢
    rcases hm.exists_lastOf (plain_of_mem_missingRuns rfl) hi
      (fun t ht _ => .inr (hall t ht)) hd with ⟨r, hl, hk⟩ | ⟨hn, h₀⟩
    · exact ⟨r, hl.append_left kept, hk⟩
    · have hold : w.files.node? (a.recordFile (RunId.ofParams params)) = some (.file doc) :=
        (hc.node?_recordFile hi w.files).symm.trans h₀
      obtain ⟨r, hl, hk⟩ := h params doc hold
      exact ⟨r, hl.append_right hn, hk.congr (hd.trans hold.symm)⟩

def Succeed (a : Archive) : List Call → World → Prop
  | [], _ => True
  | c :: calls, w => (c.outcome a w).1 = .ok () ∧ Succeed a calls (c.outcome a w).2

/-- The runs that a history of successful calls executes: those that are missing, call after call. -/
def executedRuns (a : Archive) : List Call → World → List PendingRun
  | [], _ => []
  | c :: calls, w => c.executedRuns a w ++ executedRuns a calls (c.outcome a w).2

/-- What is started and kept over a history: each run that is executed, by one worker in order. -/
structure Worked (a : Archive) (calls : List Call) (w : World) (starts : List Start)
    (kept : List PendingRun) : Prop where
  started : (afterCalls a calls w).started = w.started ++ starts
  finished : (afterCalls a calls w).finished = w.finished ++ kept
  starts_perm : (starts.map Start.run).Perm (executedRuns a calls w)
  kept_perm : kept.Perm (executedRuns a calls w)
  in_order : (∀ c ∈ calls, a.workers c.tools = 1) →
    starts.map Start.run = executedRuns a calls w ∧ kept = executedRuns a calls w

theorem Recorded.afterCalls (h : Recorded a kept w.files) (hs : ∀ c ∈ calls, Spares a c.before)
    (hok : Succeed a calls w) : ∃ starts later, Worked a calls w starts later ∧
      Recorded a (kept ++ later) (afterCalls a calls w).files := by
  induction calls generalizing w kept with
  | nil =>
    refine ⟨[], [], ⟨(List.append_nil _).symm, (List.append_nil _).symm, .refl _, .refl _,
      fun _ => ⟨rfl, rfl⟩⟩, ?_⟩
    rwa [List.append_nil]
  | cons c calls ih =>
    obtain ⟨starts, first, hstarted, hfinished, hstarts, hfirst, hrecorded⟩ :=
      h.outcome (hs c (List.mem_cons_self ..)) hok.1
    obtain ⟨starts', later, hw, hr⟩ :=
      ih hrecorded (fun c hm => hs c (List.mem_cons_of_mem _ hm)) hok.2
    refine ⟨starts ++ starts', first ++ later, ⟨?_, ?_, ?_, ?_, fun hone => ?_⟩, ?_⟩
    · exact hw.started.trans (by rw [hstarted, List.append_assoc])
    · exact hw.finished.trans (by rw [hfinished, List.append_assoc])
    · rw [List.map_append]
      exact hstarts.append hw.starts_perm
    · exact hfirst.append hw.kept_perm
    · have ho : (a.runMissing c.tools c.space c.runs).outcome (c.found w) =
          (.ok (), (c.outcome a w).2) := Prod.ext hok.1 rfl
      obtain ⟨⟨starts₁, hs₁, hrun⟩, hf₁⟩ :=
        started_and_finished_of_ok (hone c (List.mem_cons_self ..)) ho
      obtain ⟨hrest, hlater⟩ := hw.in_order fun c hm => hone c (List.mem_cons_of_mem _ hm)
      obtain rfl : starts = starts₁ := List.append_cancel_left (hstarted.symm.trans hs₁)
      have hfirst : first = c.executedRuns a w :=
        List.append_cancel_left (hfinished.symm.trans hf₁)
      rw [List.map_append, hrun, hrest, hfirst, hlater]
      exact ⟨rfl, rfl⟩
    · rwa [← List.append_assoc]

end Calls

section Results
variable {params : Assignment} {runs r : Nat} {found : List Run} {run : Run} {id : String}

theorem loadRun_of_results (h : a.results t params runs = .ok found) (hr : found[r]? = some run) :
    r < runs ∧ a.isDone t (PendingRun.of params r).id = true ∧
      a.loadRun t (PendingRun.of params r).id = .ok run := by
  obtain ⟨id, hid, hl⟩ := getElem?_of_forall₂ (mapM_eq_ok_iff.1 h).flip hr
  obtain ⟨hlt, hget⟩ := List.getElem?_eq_some_iff.1 hid
  have hp := List.prefix_iff_getElem?.1 (List.takeWhile_prefix (a.isDone t)) r hlt
  have hrange : ((List.range runs).map fun i => (PendingRun.of params i).id)[r]? = some id := by
    rw [hp]
    exact congrArg some hget
  obtain ⟨hr, he⟩ := List.getElem?_eq_some_iff.1 hrange
  rw [List.length_map, List.length_range] at hr
  rw [List.getElem_map, List.getElem_range] at he
  have hd : a.isDone t id = true :=
    List.mem_takeWhile_imp (p := a.isDone t) (hget ▸ List.getElem_mem hlt)
  subst he
  exact ⟨hr, hd, hl⟩

theorem node?_recordFile_of_find {n : Node} (h : t.find (a.recordPath id) = .ok n) :
    t.node? (a.recordFile id) = some n :=
  ((FileTree.find_join_eq_ok_iff plain_recordName).1 h).2

theorem of_loadRun {p : PendingRun} (hk : KeepsRecord a t id p) (hl : a.loadRun t id = .ok run) :
    run.id = p.id ∧ run.repetition = p.repetition ∧ p.params.RereadAs run.params := by
  obtain ⟨tools, moment, hnode⟩ := hk
  obtain ⟨text, record, artifacts, ht, hr, -, rfl⟩ := loadRun_eq_ok_iff.1 hl
  obtain ⟨doc, hd, ht⟩ := FileTree.readText_eq_ok_iff.1 ht
  have hdoc := hnode.symm.trans (node?_recordFile_of_find hd)
  cases hdoc
  rw [FileTree.documentText_text] at ht
  cases ht
  exact RunRecord.of_read? hr

/-- What a history of successful calls gives back for an assignment are runs that the simulator was
started for: in the place of a repetition, the run that was kept last under the id of that
repetition, with its parameters as they are read again. If only the repetition itself was executed
under that id, the result is that repetition, and its parameters are the same if and only if no
double changes when it is read again. -/
theorem results_provenance (a : Archive) (calls : List Call) (w : World) (params : Assignment)
    (runs : Nat) (found : List Run) (r : Nat) (run : Run)
    (hs : ∀ c ∈ calls, Spares a c.before)
    (hw : ∀ params, w.files.isFile (a.recordFile (RunId.ofParams params)) = false)
    (hok : Succeed a calls w)
    (h : a.results (afterCalls a calls w).files params runs = .ok found)
    (hr : found[r]? = some run) :
    ∃ starts kept, Worked a calls w starts kept ∧
      r < runs ∧ run.id = (PendingRun.of params r).id ∧
      (∃ p, LastOf kept run.id p ∧ run.repetition = p.repetition ∧
        p.params.RereadAs run.params) ∧
      ((∀ p ∈ executedRuns a calls w, p.id = run.id → p = .of params r) →
        run.repetition = r ∧
          (run.params.same (PendingRun.of params r).params = true ↔
            ∀ p ∈ (PendingRun.of params r).params.pairs, p.2.KeepsDouble)) := by
  obtain ⟨hlt, hd, hl⟩ := loadRun_of_results h hr
  have hnone : Recorded a [] w.files := by
    intro params doc hd
    have hf := FileTree.isFile_iff.2 ⟨doc, hd⟩
    rw [hw params] at hf
    cases hf
  obtain ⟨starts, kept, hworked, hrecorded⟩ := hnone.afterCalls hs hok
  rw [List.nil_append] at hrecorded
  obtain ⟨text, record, artifacts, ht, -, -, -⟩ := loadRun_eq_ok_iff.1 hl
  obtain ⟨doc, hdoc, -⟩ := FileTree.readText_eq_ok_iff.1 ht
  obtain ⟨p, hp, hk⟩ := hrecorded _ doc (node?_recordFile_of_find hdoc)
  obtain ⟨hid, hrep, hparams⟩ := of_loadRun hk hl
  have hrun : run.id = (PendingRun.of params r).id := hid.trans hp.id_eq
  have hlast : LastOf kept run.id p := hrun ▸ hp
  refine ⟨starts, kept, hworked, hlt, hrun, ⟨p, hlast, hrep, hparams⟩, ?_⟩
  intro honly
  obtain rfl := honly p (hworked.kept_perm.subset hlast.mem) hlast.id_eq
  exact ⟨hrep, hparams.same_iff⟩

end Results

section Confused
open Param (Value)

def oneValue (v : Value) : Assignment := ⟨[("x", v)], by simp⟩

def oneCall (v : Value) : Call where
  before := fun t => t
  tools := leaving []
  space := ⟨[("x", .single v)], by simp⟩
  runs := 1

/-- The id of a result, and whether its parameters are those asked for. -/
def resultOf (executed asked : Value) : Option (List (String × Bool)) :=
  (oneScript.results (afterCalls oneScript [oneCall executed] readyWorld).files (oneValue asked)
    1).toOption.map fun found =>
      found.map fun run => (run.id, run.params.same (PendingRun.of (oneValue asked) 0).params)

/-- The run of an integer is given back for the text of that integer, and a run of a double for
that double with another one. -/
theorem results_confused :
    Succeed oneScript [oneCall (.ofNat 1)] readyWorld ∧
      resultOf (.ofNat 1) (.text "1") = some [("bd76fa196301c598", false)] ∧
      Succeed oneScript [oneCall (.float 0.42273317003484867)] readyWorld ∧
      resultOf (.float 0.42273317003484867) (.float 0.42273317003484867) =
        some [("dc4cbe1758e2bf3d", false)] := by
  refine ⟨⟨?_, trivial⟩, ?_, ⟨?_, trivial⟩, ?_⟩
  · decide +kernel
  · decide +kernel
  · decide +kernel
  · decide +kernel

theorem node?_readyWorld {id : String} (hi : Path.Plain id) :
    readyWorld.files.node? (oneScript.recordFile id) = none := by
  have hroot : ∀ p ∈ readyWorld.files.nodes.map Prod.fst, p.head? = some "ns-3" := by
    decide +kernel
  have hfolder : Path.resolve oneScript.runsFolder = ["campaign", "data"] := by decide +kernel
  have hrecord : oneScript.recordFile id = ["campaign", "data", id, recordName] := by
    rw [recordFile_eq hi, hfolder]
    rfl
  rw [hrecord, FileTree.node?_eq_lookup (by simp), lookup_eq_none_iff]
  intro hm
  exact absurd (Option.some.inj (hroot _ hm)) (by decide)

theorem isFile_readyWorld (params : Assignment) :
    readyWorld.files.isFile (oneScript.recordFile (RunId.ofParams params)) = false := by
  rw [FileTree.isFile, node?_readyWorld (RunId.plain_ofParams params)]

theorem results_provenance_oneCall :
    Succeed oneScript [oneCall (.ofNat 1)] readyWorld ∧
      ∃ run, oneScript.results (afterCalls oneScript [oneCall (.ofNat 1)] readyWorld).files
          (oneValue (.ofNat 1)) 1 = .ok [run] ∧
        run.repetition = 0 ∧
        run.params.same (PendingRun.of (oneValue (.ofNat 1)) 0).params = true := by
  have hok : Succeed oneScript [oneCall (.ofNat 1)] readyWorld := ⟨by decide +kernel, trivial⟩
  have hs : ∀ c ∈ [oneCall (.ofNat 1)], Spares oneScript c.before := by
    intro c hc
    obtain rfl := List.mem_singleton.1 hc
    exact (keeps_id oneScript).spares
  have hids : (oneScript.results (afterCalls oneScript [oneCall (.ofNat 1)] readyWorld).files
      (oneValue (.ofNat 1)) 1).toOption.map (·.map Run.id) = some ["bd76fa196301c598"] := by
    decide +kernel
  refine ⟨hok, ?_⟩
  cases h : oneScript.results (afterCalls oneScript [oneCall (.ofNat 1)] readyWorld).files
      (oneValue (.ofNat 1)) 1 with
  | error e =>
    rw [h] at hids
    cases hids
  | ok found =>
    rw [h] at hids
    have hlen : found.map Run.id = ["bd76fa196301c598"] := Option.some.inj hids
    obtain ⟨run, rfl⟩ := List.length_eq_one_iff.1 ((List.length_map ..).symm.trans
      (congrArg List.length hlen))
    obtain ⟨-, -, -, -, -, -, honly⟩ := results_provenance oneScript [oneCall (.ofNat 1)]
      readyWorld (oneValue (.ofNat 1)) 1 [run] 0 run hs isFile_readyWorld hok h rfl
    have hexecuted : ∀ p ∈ executedRuns oneScript [oneCall (.ofNat 1)] readyWorld,
        p = .of (oneValue (.ofNat 1)) 0 := by
      intro p hp
      rw [executedRuns, executedRuns, List.append_nil] at hp
      exact List.mem_singleton.1 (mem_missingRuns_iff.1 hp).1
    obtain ⟨hrep, hsame⟩ := honly fun p hp _ => hexecuted p hp
    refine ⟨run, rfl, hrep, hsame.2 ?_⟩
    have hpairs : (PendingRun.of (oneValue (.ofNat 1)) 0).params.pairs =
        [("x", .ofNat 1), (randomStream, .ofNat 0)] := rfl
    rw [hpairs]
    simp [Value.KeepsDouble, Value.ofNat, Value.kind]

end Confused

end SimCampaign.Archive
