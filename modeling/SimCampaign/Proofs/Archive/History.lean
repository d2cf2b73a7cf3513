import SimCampaign.Proofs.Archive.Records

/-! Histories of calls on one archive with one worker, with overlapping spaces, growing numbers of
repetitions and failures in the middle: every run is kept once, and what is kept stays. -/

namespace SimCampaign.Archive
open Param (Space)

variable {a : Archive} {tools : Tools} {space : Space} {runs : Nat} {w w' : World}
  {x : Except Error Unit} {id : String} {t t' : FileTree}

section Change
variable {f : FileTree → FileTree}

/-- Whether a change of the files leaves the folder of the runs as it is. -/
def Spares (a : Archive) (f : FileTree → FileTree) : Prop :=
  ∀ t p, Path.resolve a.runsFolder <+: p → (f t).node? p = t.node? p

/-- Whether a change of the files leaves the folder of the runs as it is, and removes no folder. -/
structure Keeps (a : Archive) (f : FileTree → FileTree) : Prop where
  spares : Spares a f
  folders : ∀ t p, t.isFolder p = true → (f t).isFolder p = true

theorem keeps_id (a : Archive) : Keeps a fun t => t := ⟨fun _ _ _ => rfl, fun _ _ => id⟩

theorem Spares.node?_recordFile (hf : Spares a f) (hi : Path.Plain id) (t : FileTree) :
    (f t).node? (a.recordFile id) = t.node? (a.recordFile id) := by
  refine hf t _ ?_
  rw [recordFile_eq hi]
  exact List.prefix_append _ _

theorem Keeps.isDone (hf : Keeps a f) (hi : Path.Plain id) (hd : a.isDone t id = true) :
    a.isDone (f t) id = true := by
  obtain ⟨hway, he⟩ := isDone_iff.1 hd
  refine isDone_iff.2 ⟨fun q hq => hf.folders t q (hway q hq), ?_⟩
  rwa [FileTree.exists?, hf.spares.node?_recordFile hi]

theorem Keeps.settled (hf : Keeps a f) (h : Settled a t) : Settled a (f t) :=
  h.grows fun q => hf.folders t q

end Change

section Missing

theorem plain_of_mem_missingRuns {rs : List PendingRun} (h : a.missingRuns t space runs = rs) :
    ∀ r ∈ rs, Path.Plain r.id := h ▸ fun _ hr => plain_id_of_mem_missingRuns hr

theorem nodup_id_missingRuns (hd : ((allRuns space runs).map PendingRun.id).Nodup) :
    ((a.missingRuns t space runs).map PendingRun.id).Nodup :=
  hd.sublist (List.filter_sublist.map PendingRun.id)

end Missing

section Frame
variable {ids : List String}

/-- What is below the folder of a run changes only by that run, as long as no folder on the way to
the runs has to be made there. -/
theorem Within.node?_runFolder (h : Within a ids t t') (hs : Settled a t)
    (hp : ∀ j ∈ ids, Path.Plain j) (hi : Path.Plain id) (hn : id ∉ ids) (p : Location) :
    t'.node? (a.runFolder id ++ p) = t.node? (a.runFolder id ++ p) := by
  have hne : ∀ j ∈ ids, j ≠ id := fun j hj he => hn (he ▸ hj)
  rcases h (a.runFolder id ++ p) fun j hj => not_runFolder_above (hp j hj) hi (hne j hj) p with
    he | ⟨⟨j, hj, hm⟩, hnone, -⟩
  · exact he
  · exfalso
    rcases (mem_way_runPath (hp j hj)).1 hm with hm | hm
    · rcases hs _ hm with hle | hf
      · have hl := hle.length_le
        rw [runFolder_eq hi] at hl
        simp only [List.length_append, List.length_singleton] at hl
        omega
      · rw [FileTree.isFolder_iff, hnone] at hf
        cases hf
    · refine not_runFolder_above (a := a) hi (hp j hj) (Ne.symm (hne j hj)) [] ?_
      rw [List.append_nil, ← hm]
      exact List.prefix_append _ _

end Frame

section Call

theorem grows_runMissing (h : (a.runMissing tools space runs).outcome w = (x, w')) :
    FileTree.Grows w.files w'.files := by
  obtain ⟨log, -, -, rfl⟩ | ⟨log, log', tasks, w₁, starts, finished, hm, -, -, rfl⟩ :=
    runMissing_cases (reached_runTasks a tools) h
  · exact .refl _
  · exact hm.grows

theorem disk_runMissing (h : (a.runMissing tools space runs).outcome w = (x, w')) :
    w'.disk = w.disk := by
  obtain ⟨log, -, -, rfl⟩ | ⟨log, log', tasks, w₁, starts, finished, hm, -, -, rfl⟩ :=
    runMissing_cases (reached_runTasks a tools) h
  · rfl
  · exact hm.disk_eq

theorem within_runMissing (h : (a.runMissing tools space runs).outcome w = (x, w')) :
    Within a ((a.missingRuns w.files space runs).map PendingRun.id) w.files w'.files := by
  obtain ⟨log, -, -, rfl⟩ | ⟨log, log', tasks, w₁, starts, finished, hm, -, -, rfl⟩ :=
    runMissing_cases (reached_runTasks a tools) h
  · exact .refl a _ _
  · refine hm.within.mono fun id hid => ?_
    rw [← hm.map_run]
    exact ((runsAt_sublist _ _).map PendingRun.id).subset hid

theorem isDone_of_isDone (h : (a.runMissing tools space runs).outcome w = (x, w'))
    (hd : a.isDone w.files id = true) : a.isDone w'.files id = true :=
  isDone_of_grows (grows_runMissing h) hd

theorem isDone_of_ok (h : (a.runMissing tools space runs).outcome w = (.ok (), w')) :
    ∀ r ∈ allRuns space runs, a.isDone w'.files r.id = true := by
  intro r hr
  cases hd : a.isDone w.files r.id with
  | true => exact isDone_of_isDone h hd
  | false =>
    obtain ⟨log, -, hx, -⟩ | ⟨log, log', tasks, w₁, starts, finished, hm, he, hx, rfl⟩ :=
      runMissing_cases (reached_runTasks a tools) h
    · cases hx
    · have hr : r ∈ tasks.map Task.run := hm.map_run ▸ mem_missingRuns_iff.2 ⟨hr, hd⟩
      obtain ⟨t, ht, rfl⟩ := List.mem_map.1 hr
      exact hm.isDone_of_kept ht (he.kept_of_ok hx t ht)

end Call

section Success

theorem started_and_finished_of_ok (hone : a.workers tools = 1)
    (h : (a.runMissing tools space runs).outcome w = (.ok (), w')) :
    (∃ starts, w'.started = w.started ++ starts ∧
      starts.map Start.run = a.missingRuns w.files space runs) ∧
    w'.finished = w.finished ++ a.missingRuns w.files space runs := by
  obtain ⟨log, -, hx, -⟩ | ⟨log, log', tasks, w₁, starts, finished, hm, he, hx, rfl⟩ :=
    runMissing_cases (reached_runTasks_inTurn hone) h
  · cases hx
  have hall (p : Stage → Bool) (hp : p (.running []) = true) :
      runsAt p tasks = a.missingRuns w.files space runs := by
    rw [runsAt_eq_map hp (he.kept_of_ok hx), hm.map_run]
  refine ⟨⟨starts, hm.started_eq, ?_⟩, ?_⟩
  · obtain ⟨hlower, hupper⟩ := hm.started_prefix
    rw [hall _ rfl] at hlower hupper
    exact (hlower.eq_of_length_le hupper.length_le).symm
  · have hf := hm.finished_eq
    rwa [hm.finished_eq_runsAt, hall _ rfl] at hf

/-- One worker starts missing runs in order, whether or not the call succeeds. -/
theorem exists_started_prefix (hone : a.workers tools = 1)
    (h : (a.runMissing tools space runs).outcome w = (x, w')) :
    ∃ starts, w'.started = w.started ++ starts ∧
      starts.map Start.run <+: a.missingRuns w.files space runs := by
  obtain ⟨log, -, -, rfl⟩ | ⟨log, log', tasks, w₁, starts, finished, hm, -, -, rfl⟩ :=
    runMissing_cases (reached_runTasks_inTurn hone) h
  · exact ⟨[], (List.append_nil _).symm, List.nil_prefix⟩
  · refine ⟨starts, hm.started_eq, hm.started_prefix.2.trans ?_⟩
    rw [← hm.map_run]
    exact hm.ordered.begun_prefix

end Success

section Failure
variable {before after : List PendingRun} {r : PendingRun}

end Failure

section Calls

/-- A call, and what is done to the files between the last call and this one. -/
structure Call where
  before : FileTree → FileTree
  tools : Tools
  space : Space
  runs : Nat

def Call.found (c : Call) (w : World) : World := { w with files := c.before w.files }

def Call.outcome (a : Archive) (c : Call) (w : World) : Except Error Unit × World :=
  (a.runMissing c.tools c.space c.runs).outcome (c.found w)

def afterCalls (a : Archive) (calls : List Call) (w : World) : World :=
  calls.foldl (fun w c => (c.outcome a w).2) w

variable {calls : List Call} {c : Call}

theorem Settled.outcome (h : Settled a w.files) (hc : Keeps a c.before) :
    Settled a (c.outcome a w).2.files :=
  (hc.settled h).grows fun _ => (grows_runMissing (w := c.found w) rfl).isFolder

theorem Settled.afterCalls (h : Settled a w.files) (hk : ∀ c ∈ calls, Keeps a c.before) :
    Settled a (afterCalls a calls w).files := by
  induction calls generalizing w with
  | nil => exact h
  | cons c calls ih =>
    exact ih (h.outcome (hk c (List.mem_cons_self ..))) fun c hm => hk c (List.mem_cons_of_mem _ hm)

end Calls

section Interrupted

theorem settled_oneScript (t : FileTree) : Settled oneScript t := by
  have hn : ".." ∉ Path.pieces oneScript.directory := by decide
  exact settled_of_plain hn t

end Interrupted

end SimCampaign.Archive
