import Mathlib.Data.List.Perm.Subperm
import SimCampaign.Proofs.Archive.Pool

/-! How far the runs of one call come: which simulations are started and which runs are kept, and
what becomes of the files. -/

namespace SimCampaign

def Start.id (s : Start) : String := s.run.id

namespace Archive
open Param (Space)

variable {a : Archive} {tools : Tools} {fits : List Task → List Task → Prop}
  {rs : List PendingRun} {w₀ w : World} {tasks : List Task} {starts : List Start}
  {finished : List PendingRun}

theorem Within.mono {ids more : List String} {t t' : FileTree} (h : Within a ids t t')
    (hm : ∀ id ∈ ids, id ∈ more) : Within a more t t' := by
  intro q hq
  refine (h q fun id hid => hq id (hm id hid)).imp_right ?_
  rintro ⟨⟨id, hid, hway⟩, hn⟩
  exact ⟨⟨id, hm id hid, hway⟩, hn⟩

namespace Moves

theorem map_run (h : Moves a tools fits rs w₀ tasks w starts finished) :
    tasks.map Task.run = rs := by
  induction h with
  | start => exact (List.map_map ..).trans (List.map_id' rs)
  | step h fit advanced ih => simpa using ih

theorem started_eq (h : Moves a tools fits rs w₀ tasks w starts finished) :
    w.started = w₀.started ++ starts := by
  induction h with
  | start => exact (List.append_nil _).symm
  | step h fit advanced ih => rw [advanced.started_eq, ih, List.append_assoc]

theorem finished_eq (h : Moves a tools fits rs w₀ tasks w starts finished) :
    w.finished = w₀.finished ++ finished := by
  induction h with
  | start => exact (List.append_nil _).symm
  | step h fit advanced ih => rw [advanced.finished_eq, ih, List.append_assoc]

theorem disk_eq (h : Moves a tools fits rs w₀ tasks w starts finished) : w.disk = w₀.disk := by
  induction h with
  | start => rfl
  | step h fit advanced ih => exact advanced.disk_eq.trans ih

theorem clock_le (h : Moves a tools fits rs w₀ tasks w starts finished) : w₀.clock ≤ w.clock := by
  induction h with
  | start => exact Nat.le_refl _
  | step h fit advanced ih => exact ih.trans advanced.clock_le

theorem grows (h : Moves a tools fits rs w₀ tasks w starts finished) :
    FileTree.Grows w₀.files w.files := by
  induction h with
  | start => exact .refl _
  | step h fit advanced ih => exact ih.trans advanced.grows

theorem mem_of_mem (h : Moves a tools fits rs w₀ tasks w starts finished) {t : Task}
    (ht : t ∈ tasks) : t.run ∈ rs := h.map_run ▸ List.mem_map_of_mem ht

/-- What holds of every run: at the beginning, after a step of another run, and after a step of its
own. -/
theorem forall_tasks {P : Task → World → List Start → Prop}
    (h : Moves a tools fits rs w₀ tasks w starts finished)
    (hstart : ∀ r ∈ rs, P { run := r } w₀ [])
    (hother : ∀ {t r s s' w w' starts starts' finished'}, P t w starts → r ∈ rs →
      Advanced a tools r w s s' w' starts' finished' → P t w' (starts ++ starts'))
    (hself : ∀ {t s w w' starts starts' finished'}, P t w starts →
      Advanced a tools t.run w t.stage s w' starts' finished' →
        P { t with stage := s } w' (starts ++ starts')) :
    ∀ t ∈ tasks, P t w starts := by
  induction h with
  | start => exact List.forall_mem_map.2 hstart
  | @step before after task s w w' starts starts' finished finished' h fit advanced ih =>
    have hr : task.run ∈ rs := h.mem_of_mem (List.mem_append_right _ (List.mem_cons_self ..))
    rw [List.forall_mem_append, List.forall_mem_cons] at ih ⊢
    exact ⟨fun t ht => hother (ih.1 t ht) hr advanced, hself ih.2.1 advanced,
      fun t ht => hother (ih.2.2 t ht) hr advanced⟩

end Moves

section Running

/-- What is known of a run that is being simulated: it was started, what is left to do is the end of
what follows a start, and its folder is there. -/
structure Underway (a : Archive) (tools : Tools) (r : PendingRun) (rest : List Step) (t : FileTree)
    (s : Start) (e : Execution) : Prop where
  run_eq : s.run = r
  execution : tools.simulator.run s.moment (commandLine r.params) a.libraries = .ok e
  suffix : rest <:+ steps tools r s.moment e
  way : ∀ q ∈ Path.way (a.runPath r.id), t.isFolder q = true
  recorded : rest = [] → t.isFile (a.recordFile r.id) = true

theorem isFolder_made {r : PendingRun} (h : (a.made r w).1 = .ok ()) :
    ∀ q ∈ Path.way (a.runPath r.id), (a.made r w).2.isFolder q = true := by
  intro q hq
  rw [FileTree.isFolder_iff]
  exact (FileTree.node?_makeFolders_of_ok h q).trans (if_pos hq)

theorem Underway.grows {r : PendingRun} {rest : List Step} {t t' : FileTree} {s : Start}
    {e : Execution} (h : Underway a tools r rest t s e) (hg : FileTree.Grows t t') :
    Underway a tools r rest t' s e :=
  ⟨h.run_eq, h.execution, h.suffix, fun q hq => hg.isFolder (h.way q hq),
    fun hr => hg.isFile (h.recorded hr)⟩

theorem Underway.advance {r : PendingRun} {step : Step} {rest : List Step} {t t' : FileTree}
    {s : Start} {e : Execution} (h : Underway a tools r (step :: rest) t s e)
    (hg : FileTree.Grows t t')
    (hr : step.isRecord = true → t'.isFile (a.recordFile r.id) = true) :
    Underway a tools r rest t' s e := by
  refine ⟨h.run_eq, h.execution, (List.suffix_cons step rest).trans h.suffix,
    fun q hq => hg.isFolder (h.way q hq), fun hnil => hr ?_⟩
  rcases suffix_steps_cases h.suffix with ⟨rfl, -⟩ | ⟨-, hne⟩
  · rfl
  · exact absurd hnil hne

theorem Underway.isFile_wrote {r : PendingRun} {rest : List Step} {s : Start} {e : Execution}
    {name : String} {doc : Document} (h : Underway a tools r rest w.files s e)
    (hk : (wrote w (a.runFolder r.id ++ [name]) doc).1 = .ok ()) :
    (wrote w (a.runFolder r.id ++ [name]) doc).2.node? (a.runFolder r.id ++ [name]) =
      some (.file doc) := by
  rw [wrote, FileTree.writeAt_of_ok hk]
  refine FileTree.node?_write_self ?_ (FileTree.writeAt_ok_iff.1 hk).2
  rw [List.dropLast_concat]
  exact h.way _ (runFolder_mem_way a r.id)

theorem Moves.underway (h : Moves a tools fits rs w₀ tasks w starts finished) :
    ∀ t ∈ tasks, ∀ rest, t.stage = .running rest →
      ∃ s ∈ starts, ∃ e, Underway a tools t.run rest w.files s e := by
  refine h.forall_tasks (P := fun t w starts => ∀ rest, t.stage = .running rest →
      ∃ s ∈ starts, ∃ e, Underway a tools t.run rest w.files s e) ?_ ?_ ?_
  · rintro r hr rest ⟨⟩
  · intro t r s s' w w' starts starts' finished' ht hr ha rest hs
    obtain ⟨s, hm, e, hu⟩ := ht rest hs
    exact ⟨s, List.mem_append_left _ hm, e, hu.grows ha.grows⟩
  · rintro ⟨r, stage⟩ s w w' starts starts' finished' ht ha rest rfl
    cases ha with
    | launched e hl =>
      refine ⟨_, List.mem_append_right _ (List.mem_singleton_self _), e, rfl, hl.starts,
        List.suffix_refl _, isFolder_made hl.made, fun hn => absurd hn (steps_ne_nil _ _ _ _)⟩
    | acted f rest =>
      obtain ⟨s, hm, e, hu⟩ := ht _ rfl
      exact ⟨s, List.mem_append_left _ hm, e, hu.advance (f.grows_apply _ _) (by rintro ⟨⟩)⟩
    | kept name doc rest hk =>
      obtain ⟨s, hm, e, hu⟩ := ht _ rfl
      exact ⟨s, List.mem_append_left _ hm, e, hu.advance (grows_wrote w _ _) (by rintro ⟨⟩)⟩
    | recorded doc rest hk =>
      obtain ⟨s, hm, e, hu⟩ := ht _ rfl
      exact ⟨s, List.mem_append_left _ hm, e, hu.advance (grows_wrote w _ _) fun _ =>
        FileTree.isFile_iff.2 ⟨doc, hu.isFile_wrote hk⟩⟩

theorem Moves.isDone_of_kept (h : Moves a tools fits rs w₀ tasks w starts finished) {t : Task}
    (ht : t ∈ tasks) (hk : t.stage = .running []) : a.isDone w.files t.run.id = true := by
  obtain ⟨s, -, e, hu⟩ := h.underway t ht [] hk
  exact isDone_iff.2 ⟨hu.way, FileTree.exists?_of_isFile (hu.recorded rfl)⟩

end Running

section Counting
variable {r : PendingRun} {s s' : Stage} {w' : World} {before after : List Task} {task : Task}
  {p : Stage → Bool}

namespace Stage

def isKept : Stage → Bool
  | .running [] => true
  | _ => false

def isRunning : Stage → Bool
  | .running _ => true
  | _ => false

def isBegun : Stage → Bool
  | .running _ | .failed _ => true
  | _ => false

end Stage

def runsAt (p : Stage → Bool) (tasks : List Task) : List PendingRun :=
  (tasks.filter fun t => p t.stage).map Task.run

def runAt (p : Stage → Bool) (r : PendingRun) (s : Stage) : List PendingRun :=
  if p s then [r] else []

theorem runsAt_split (p : Stage → Bool) (before after : List Task) (task : Task) :
    runsAt p (before ++ task :: after) =
      runsAt p before ++ (runAt p task.run task.stage ++ runsAt p after) := by
  simp only [runsAt, runAt, List.filter_append, List.filter_cons, List.map_append]
  cases p task.stage <;> rfl

theorem runsAt_step (p : Stage → Bool) (before after : List Task) (task : Task) (s : Stage) :
    runsAt p (before ++ { task with stage := s } :: after) =
      runsAt p before ++ (runAt p task.run s ++ runsAt p after) := runsAt_split p before after _

theorem runsAt_sublist (p : Stage → Bool) (tasks : List Task) :
    (runsAt p tasks).Sublist (tasks.map Task.run) := List.filter_sublist.map Task.run

theorem Advanced.starts_cases (h : Advanced a tools r w s s' w' starts finished) :
    (starts = [] ∧ (s'.isRunning = true → s.isRunning = true) ∧
      (s.isBegun = true → s'.isBegun = true)) ∨
    starts.map Start.run = [r] ∧ s.isBegun = false ∧ s.isRunning = false ∧
      s'.isRunning = true ∧ s'.isBegun = true := by
  cases h with
  | launched e h => exact .inr ⟨rfl, rfl, rfl, rfl, rfl⟩
  | took => exact .inl ⟨rfl, id, id⟩
  | acted | kept | recorded => exact .inl ⟨rfl, fun _ => rfl, fun _ => rfl⟩
  | refused | unkept | unrecorded => exact .inl ⟨rfl, by rintro ⟨⟩, fun _ => rfl⟩

theorem isKept_running {rest : List Step} : (Stage.running rest).isKept = true ↔ rest = [] := by
  cases rest <;> simp [Stage.isKept]

theorem Advanced.finished_eq_runAt (h : Advanced a tools r w s s' w' starts finished)
    (hu : ∀ step rest, s = .running (step :: rest) → (step.isRecord = true ↔ rest = [])) :
    s.isKept = false ∧ finished = runAt Stage.isKept r s' := by
  have hrest {step : Step} {rest : List Step} (hs : s = .running (step :: rest))
      (hn : step.isRecord = false) : runAt Stage.isKept r (.running rest) = [] := by
    refine if_neg fun hk => ?_
    rw [(hu step rest hs).2 (isKept_running.1 hk)] at hn
    cases hn
  cases h with
  | took | refused | unkept | unrecorded => exact ⟨rfl, rfl⟩
  | launched e h =>
    refine ⟨rfl, (if_neg fun hk => ?_).symm⟩
    exact steps_ne_nil _ _ _ _ (isKept_running.1 hk)
  | acted e rest => exact ⟨rfl, (hrest rfl rfl).symm⟩
  | kept name doc rest h => exact ⟨rfl, (hrest rfl rfl).symm⟩
  | recorded doc rest h =>
    refine ⟨rfl, (if_pos (isKept_running.2 ?_)).symm⟩
    exact (hu _ rest rfl).1 rfl

theorem Moves.isRecord_iff (h : Moves a tools fits rs w₀ tasks w starts finished)
    (ht : task ∈ tasks) {step : Step} {rest : List Step}
    (hs : task.stage = .running (step :: rest)) : step.isRecord = true ↔ rest = [] := by
  obtain ⟨s, -, e, hu⟩ := h.underway task ht _ hs
  rcases suffix_steps_cases hu.suffix with ⟨rfl, rfl⟩ | ⟨hn, hne⟩
  · exact iff_of_true rfl rfl
  · exact iff_of_false (by simp [hn]) hne

/-- The runs that are kept are those that are counted, in the order in which they were kept. -/
theorem Moves.finished_perm (h : Moves a tools fits rs w₀ tasks w starts finished) :
    finished.Perm (runsAt Stage.isKept tasks) := by
  induction h with
  | start => simp [runsAt, Stage.isKept, List.filter_map, Function.comp_def]
  | @step before after task s w w' starts starts' finished finished' h fit advanced ih =>
    have hm : task ∈ before ++ task :: after := List.mem_append_right _ (List.mem_cons_self ..)
    obtain ⟨hk, rfl⟩ := advanced.finished_eq_runAt fun step rest hs => h.isRecord_iff hm hs
    have hold := runsAt_split Stage.isKept before after task
    rw [runAt, if_neg (Bool.eq_false_iff.1 hk), List.nil_append] at hold
    rw [runsAt_step]
    refine (ih.append_right _).trans ?_
    rw [hold, List.append_assoc]
    exact List.perm_append_comm.append_left _

theorem runAt_sublist {p q : Stage → Bool} {s s' : Stage} (h : p s = true → q s' = true) :
    (runAt p r s).Sublist (runAt q r s') := by
  rw [runAt]
  split
  next hp => rw [runAt, if_pos (h hp)]
  next => exact List.nil_sublist _

theorem Moves.started_subperm (h : Moves a tools fits rs w₀ tasks w starts finished) :
    (runsAt Stage.isRunning tasks).Subperm (starts.map Start.run) ∧
      (starts.map Start.run).Subperm (runsAt Stage.isBegun tasks) := by
  induction h with
  | start => simp [runsAt, Stage.isRunning, Stage.isBegun, List.filter_map, Function.comp_def]
  | @step before after task s w w' starts starts' finished finished' h fit advanced ih =>
    obtain ⟨hlower, hupper⟩ := ih
    rw [runsAt_split] at hlower hupper
    rw [runsAt_step, runsAt_step, List.map_append]
    have hpart {xs ys : List PendingRun} (h : xs.Sublist ys) (front back : List PendingRun) :
        (front ++ (xs ++ back)).Subperm (front ++ (ys ++ back)) :=
      ((h.append_right back).append_left front).subperm
    rcases advanced.starts_cases with ⟨rfl, hr, hb⟩ | ⟨hs, hb, hr, hr', hb'⟩
    · rw [List.map_nil, List.append_nil]
      exact ⟨(hpart (runAt_sublist hr) _ _).trans hlower,
        hupper.trans (hpart (runAt_sublist hb) _ _)⟩
    · have hmove (front back : List PendingRun) :
          (front ++ ([task.run] ++ back)).Perm (front ++ ([] ++ back) ++ [task.run]) := by
        rw [List.nil_append, List.append_assoc]
        exact List.perm_append_comm.append_left _
      rw [runAt, hr, if_neg Bool.false_ne_true] at hlower
      rw [runAt, hb, if_neg Bool.false_ne_true] at hupper
      rw [hs, runAt, hr', if_pos rfl, runAt, hb', if_pos rfl]
      exact ⟨(hmove _ _).subperm.trans (hlower.append (List.Subperm.refl _)),
        (hupper.append (List.Subperm.refl _)).trans (hmove _ _).symm.subperm⟩

theorem runsAt_eq_nil (hp : p .waiting = false) (h : ∀ t ∈ tasks, t.stage = .waiting) :
    runsAt p tasks = [] := by
  rw [runsAt, List.map_eq_nil_iff, List.filter_eq_nil_iff]
  intro t ht
  rw [h t ht, hp]
  exact Bool.false_ne_true

theorem runsAt_eq_map (hp : p (.running []) = true) (h : ∀ t ∈ tasks, t.stage = .running []) :
    runsAt p tasks = tasks.map Task.run := by
  rw [runsAt, List.filter_eq_self.2]
  intro t ht
  rw [h t ht, hp]

theorem Moves.finished_eq_runsAt (h : Moves a tools InTurn rs w₀ tasks w starts finished) :
    finished = runsAt Stage.isKept tasks := by
  induction h with
  | start => simp [runsAt, Stage.isKept, List.filter_map, Function.comp_def]
  | @step before after task s w w' starts starts' finished finished' h fit advanced ih =>
    have hm : task ∈ before ++ task :: after := List.mem_append_right _ (List.mem_cons_self ..)
    obtain ⟨hk, rfl⟩ := advanced.finished_eq_runAt fun step rest hs => h.isRecord_iff hm hs
    rw [runsAt_split, runAt, hk, if_neg Bool.false_ne_true, runsAt_eq_nil rfl fit.waiting,
      List.append_nil, List.append_nil] at ih
    rw [runsAt_step, runsAt_eq_nil rfl fit.waiting, List.append_nil, ih]

theorem Moves.started_prefix (h : Moves a tools InTurn rs w₀ tasks w starts finished) :
    runsAt Stage.isRunning tasks <+: starts.map Start.run ∧
      starts.map Start.run <+: runsAt Stage.isBegun tasks := by
  induction h with
  | start => simp [runsAt, Stage.isRunning, Stage.isBegun, List.filter_map, Function.comp_def]
  | @step before after task s w w' starts starts' finished finished' h fit advanced ih =>
    obtain ⟨hlower, hupper⟩ := ih
    rw [runsAt_split, runsAt_eq_nil rfl fit.waiting, List.append_nil,
      runsAt_eq_map rfl fit.kept] at hlower hupper
    rw [runsAt_step, runsAt_step, List.map_append, runsAt_eq_nil rfl fit.waiting,
      runsAt_eq_nil rfl fit.waiting, List.append_nil, List.append_nil,
      runsAt_eq_map rfl fit.kept, runsAt_eq_map rfl fit.kept]
    have hpart {p q : Stage → Bool} {s s' : Stage} (h : p s = true → q s' = true) :
        runAt p task.run s <+: runAt q task.run s' := by
      rw [runAt]
      split
      next hp => rw [runAt, if_pos (h hp)]
      next => exact List.nil_prefix
    rcases advanced.starts_cases with ⟨rfl, hr, hb⟩ | ⟨hs, hb, hr, hr', hb'⟩
    · rw [List.map_nil, List.append_nil]
      exact ⟨((List.prefix_append_right_inj _).2 (hpart hr)).trans hlower,
        hupper.trans ((List.prefix_append_right_inj _).2 (hpart hb))⟩
    · -- What was started before are exactly the runs in front.
      rw [runAt, hr, if_neg Bool.false_ne_true, List.append_nil] at hlower
      rw [runAt, hb, if_neg Bool.false_ne_true, List.append_nil] at hupper
      rw [← hlower.eq_of_length_le hupper.length_le, hs, runAt, hr', if_pos rfl, runAt, hb',
        if_pos rfl]
      exact ⟨List.prefix_refl _, List.prefix_refl _⟩

theorem Ordered.begun_prefix {tasks : List Task} (h : Ordered tasks) :
    runsAt Stage.isBegun tasks <+: tasks.map Task.run := by
  induction tasks with
  | nil => exact List.prefix_refl _
  | cons task tasks ih =>
    obtain ⟨hrest, hordered⟩ := List.pairwise_cons.1 h
    have hsplit := runsAt_split Stage.isBegun [] tasks task
    rw [List.nil_append] at hsplit
    rw [hsplit, List.map_cons]
    by_cases hk : task.stage = .running []
    · rw [hk]
      exact (List.prefix_cons_inj _).2 (ih hordered)
    · have hwaiting : ∀ t ∈ tasks, t.stage = .waiting :=
        fun t ht => (hrest t ht).resolve_left hk
      rw [runsAt_eq_nil rfl hwaiting, List.append_nil, runAt]
      split
      · exact (List.prefix_cons_inj _).2 List.nil_prefix
      · exact List.nil_prefix

theorem Moves.within (h : Moves a tools fits rs w₀ tasks w starts finished) :
    Within a ((runsAt (!·.isWaiting) tasks).map PendingRun.id) w₀.files w.files := by
  induction h with
  | start => exact .refl a _ _
  | @step before after task s w w' starts starts' finished finished' h fit advanced ih =>
    have hs : (!s.isWaiting) = true := by rw [advanced.isWaiting, Bool.not_false]
    have hpart : (runAt (!·.isWaiting) task.run task.stage).Sublist
        (runAt (!·.isWaiting) task.run s) := runAt_sublist fun _ => hs
    refine (ih.mono fun id hid => ?_).trans (advanced.within.mono fun id hid => ?_)
    · rw [runsAt_split] at hid
      rw [runsAt_step]
      exact ((((hpart.append_right _).append_left _).map PendingRun.id).subset hid)
    · rw [List.mem_singleton.1 hid, runsAt_step, runAt, if_pos hs]
      simp

end Counting

section Result
variable {x : Except Error Unit} {w' : World} {space : Space} {runs : Nat}

theorem result_eq_ok_iff : result tasks = .ok () ↔ hasFailed tasks = false := by
  rw [result, not_hasFailed_iff]
  split
  next e h =>
    obtain ⟨t, ht, he⟩ := List.exists_of_findSome?_eq_some h
    refine iff_of_false (by rintro ⟨⟩) fun hn => ?_
    have hn := hn t ht
    rw [he] at hn
    cases hn
  next h =>
    refine iff_of_true rfl fun t ht => ?_
    rw [List.findSome?_eq_none_iff.1 h t ht]
    rfl

theorem Ended.kept_of_ok (h : Ended tasks) (hr : result tasks = .ok ()) :
    ∀ t ∈ tasks, t.stage = .running [] := by
  have hf := result_eq_ok_iff.1 hr
  intro t ht
  have hc := h t ht
  rw [hf] at hc
  exact Stage.eq_kept hc (not_hasFailed_iff.1 hf t ht)

theorem outcome_runPool (h : tools.spawns w.clock (a.workers tools) = true) :
    (a.runPool tools rs).outcome w =
      (result (a.runTasks tools rs w).1, (a.runTasks tools rs w).2) := by
  rw [runPool, Session.outcome_moment_bind, h]
  rfl

theorem outcome_runPool_of_none (h : tools.spawns w.clock (a.workers tools) = false) :
    (a.runPool tools rs).outcome w = (.error .pool, w) := by
  rw [runPool, Session.outcome_moment_bind, h]
  rfl

/-- What one call does: nothing if there is no pool, or else steps of the missing runs until there is
nothing left to do. -/
theorem runMissing_cases
    (hr : ∀ rs w, Reached a tools fits rs w (a.runTasks tools rs w).1 (a.runTasks tools rs w).2 ∧
      Ended (a.runTasks tools rs w).1)
    (h : (a.runMissing tools space runs).outcome w = (x, w')) :
    (∃ log, tools.spawns w.clock (a.workers tools) = false ∧ x = .error .pool ∧
      w' = { w with log }) ∨
    ∃ log log' tasks w₁ starts finished,
      Moves a tools fits (a.missingRuns w.files space runs) { w with log } tasks w₁ starts
        finished ∧ Ended tasks ∧ result tasks = x ∧ w' = { w₁ with log := log' } := by
  rw [runMissing, Session.outcome_files_bind, Session.outcome_log_bind] at h
  generalize w.log ++ [_] = log at h
  by_cases hm : a.missingRuns w.files space runs = []
  · rw [if_neg (not_not.2 hm), Session.outcome_pure] at h
    cases h
    rw [hm]
    exact .inr ⟨log, log, _, _, _, _, .start, by rintro _ ⟨⟩, rfl, rfl⟩
  rw [if_pos hm] at h
  cases hs : tools.spawns w.clock (a.workers tools) with
  | false =>
    have ho := @outcome_runPool_of_none a tools (a.missingRuns w.files space runs)
      { w with log } hs
    rw [Session.outcome_bind_of_error ho] at h
    cases h
    exact .inl ⟨log, rfl, rfl, rfl⟩
  | true =>
    have ho := @outcome_runPool a tools (a.missingRuns w.files space runs) { w with log } hs
    obtain ⟨⟨starts, finished, hmoves⟩, hended⟩ := hr (a.missingRuns w.files space runs)
      { w with log }
    refine .inr ⟨log, w'.log, _, _, starts, finished, hmoves, hended, ?_⟩
    cases hx : result (a.runTasks tools (a.missingRuns w.files space runs) { w with log }).1 with
    | error e =>
      rw [hx] at ho
      rw [Session.outcome_bind_of_error ho] at h
      cases h
      exact ⟨rfl, rfl⟩
    | ok u =>
      rw [hx] at ho
      rw [Session.outcome_bind_of_ok ho, Session.outcome_log] at h
      cases h
      exact ⟨rfl, rfl⟩

end Result

section Call
variable {space : Space} {runs : Nat} {x : Except Error Unit} {w' : World}

theorem plain_id_of_mem_allRuns {r : PendingRun} (h : r ∈ allRuns space runs) :
    Path.Plain r.id := by
  obtain ⟨params, -, hr⟩ := List.mem_flatMap.1 h
  obtain ⟨n, -, rfl⟩ := List.mem_map.1 hr
  exact RunId.plain_ofParams _

theorem of_mem_allRuns {params : Param.Assignment} {n : Nat} (hp : params ∈ space.assignments)
    (hn : n < runs) : PendingRun.of params n ∈ allRuns space runs :=
  List.mem_flatMap.2 ⟨params, hp, List.mem_map.2 ⟨n, List.mem_range.2 hn, rfl⟩⟩

theorem mem_missingRuns_iff {t : FileTree} {r : PendingRun} :
    r ∈ a.missingRuns t space runs ↔ r ∈ allRuns space runs ∧ a.isDone t r.id = false := by
  simp [missingRuns, List.mem_filter]

theorem plain_id_of_mem_missingRuns {t : FileTree} {r : PendingRun}
    (h : r ∈ a.missingRuns t space runs) : Path.Plain r.id :=
  plain_id_of_mem_allRuns (mem_missingRuns_iff.1 h).1

theorem outcome_runMissing_of_none (h : a.missingRuns w.files space runs = []) :
    ∃ log, (a.runMissing tools space runs).outcome w = (.ok (), { w with log }) := by
  rw [runMissing, Session.outcome_files_bind, Session.outcome_log_bind, if_neg (not_not.2 h)]
  exact ⟨_, rfl⟩

theorem exists_started (h : (a.runMissing tools space runs).outcome w = (x, w')) :
    ∃ starts, w'.started = w.started ++ starts ∧
      (starts.map Start.run).Subperm (a.missingRuns w.files space runs) ∧
      (x = .ok () → (starts.map Start.run).Perm (a.missingRuns w.files space runs)) := by
  obtain ⟨log, -, rfl, rfl⟩ | ⟨log, log', tasks, w₁, starts, finished, hm, he, rfl, rfl⟩ :=
    runMissing_cases (reached_runTasks a tools) h
  · exact ⟨[], (List.append_nil _).symm, List.nil_subperm, by rintro ⟨⟩⟩
  · obtain ⟨hlower, hupper⟩ := hm.started_subperm
    have hsub : (starts.map Start.run).Subperm (a.missingRuns w.files space runs) :=
      hupper.trans (hm.map_run ▸ (runsAt_sublist Stage.isBegun tasks).subperm)
    refine ⟨starts, hm.started_eq, hsub, fun hok => ?_⟩
    rw [runsAt_eq_map rfl (he.kept_of_ok hok), hm.map_run] at hlower
    exact hsub.antisymm hlower

theorem count_id_missingRuns (a : Archive) (t : FileTree) (space : Space) (runs : Nat)
    (id : String) :
    ((a.missingRuns t space runs).map PendingRun.id).count id =
      if a.isDone t id = true then 0 else ((allRuns space runs).map PendingRun.id).count id := by
  rw [List.count_eq_countP, List.countP_map, missingRuns, List.countP_filter, List.count_eq_countP,
    List.countP_map]
  split
  next hd =>
    rw [List.countP_eq_zero]
    intro r _
    by_cases hr : r.id = id
    · simp [hr, hd]
    · simp [hr]
  next hd =>
    refine List.countP_congr fun r _ => ?_
    by_cases hr : r.id = id
    · simp [hr, hd]
    · simp [hr]

/-- One call starts a run as often as its id is the id of a repetition of an assignment and is not
done, or less often if it fails. So no run is started twice if no two of these repetitions share
an id, and if the call succeeds then only so. -/
theorem count_started_runMissing (a : Archive) (tools : Tools) (space : Space) (runs : Nat)
    (w : World) :
    ∃ starts, ((a.runMissing tools space runs).outcome w).2.started = w.started ++ starts ∧
      (∀ id, (starts.map Start.id).count id ≤ if a.isDone w.files id = true then 0
        else ((allRuns space runs).map PendingRun.id).count id) ∧
      (((a.missingRuns w.files space runs).map PendingRun.id).Nodup →
        (starts.map Start.id).Nodup) ∧
      (((a.runMissing tools space runs).outcome w).1 = .ok () →
        (∀ id, (starts.map Start.id).count id = if a.isDone w.files id = true then 0
          else ((allRuns space runs).map PendingRun.id).count id) ∧
        ((starts.map Start.id).Nodup →
          ((a.missingRuns w.files space runs).map PendingRun.id).Nodup)) := by
  cases h : (a.runMissing tools space runs).outcome w with
  | mk x w' =>
    obtain ⟨starts, hs, hsub, hok⟩ := exists_started h
    have hids : starts.map Start.id = (starts.map Start.run).map PendingRun.id :=
      (List.map_map ..).symm
    have hcount (id : String) : (starts.map Start.id).count id ≤
        ((a.missingRuns w.files space runs).map PendingRun.id).count id := by
      obtain ⟨l, hp, hl⟩ := hsub
      rw [hids, ← (hp.map PendingRun.id).count_eq]
      exact (hl.map PendingRun.id).count_le id
    refine ⟨starts, hs, ?_, ?_, ?_⟩
    · intro id
      rw [← count_id_missingRuns]
      exact hcount id
    · intro hn
      rw [List.nodup_iff_count_le_one] at hn ⊢
      exact fun id => (hcount id).trans (hn id)
    · intro hx
      have hperm : (starts.map Start.id).Perm
          ((a.missingRuns w.files space runs).map PendingRun.id) :=
        hids ▸ (hok hx).map PendingRun.id
      refine ⟨fun id => ?_, hperm.nodup_iff.1⟩
      rw [hperm.count_eq, count_id_missingRuns]

end Call

section Repeated

def oneScript : Archive :=
  { tree := Text.encode "ns-3", script := "sim", directory := "campaign", maxParallel := 1 }

/-- A silent simulator that leaves the same in every folder. -/
def leaving (effects : List Effect) : Tools where
  simulator.run _ _ _ := .ok { effects, output := .empty, errors := .empty, status := .exited 0 }
  buildTool.run _ _ _ t := (t, true)
  now _ := "2020-01-01T00:00:00Z"
  seconds _ := 0.5

def readyWorld : World :=
  let made := (FileTree.makeFolders "ns-3/build/optimized/scratch" none .empty).2
  { files := made.writeText
      ["ns-3", "build", "optimized", "scratch", "ns3-dev-sim-optimized"] "" }

/-- A parameter that has the same candidate twice. -/
def sameTwice : Space := ⟨[("x", .list [.ofNat 1, .ofNat 1])], by decide⟩

/-- One call starts the simulation of a run as often as the run is in the space. -/
theorem started_sameTwice :
    ((oneScript.runMissing (leaving []) sameTwice 1).outcome readyWorld).1 = .ok () ∧
      ((oneScript.runMissing (leaving []) sameTwice 1).outcome readyWorld).2.started.map Start.id =
        ["bd76fa196301c598", "bd76fa196301c598"] := by
  decide +kernel

end Repeated

end Archive
end SimCampaign
