import SimCampaign.Proofs.Archive.Execution

/-! What a pool of workers does are steps of its runs, in some order. One worker ends one run before
it begins the next. -/

namespace SimCampaign.Archive

/-- Steps of runs, each allowed by what stands before and after its run in the list. It keeps count of
the simulations that are started and of the runs that are kept. -/
inductive Moves (a : Archive) (tools : Tools) (fits : List Task → List Task → Prop)
    (rs : List PendingRun) (w₀ : World) :
    List Task → World → List Start → List PendingRun → Prop
  | start : Moves a tools fits rs w₀ (rs.map fun run => { run }) w₀ [] []
  | step {before after : List Task} {task : Task} {s : Stage} {w w' : World}
      {starts starts' : List Start} {finished finished' : List PendingRun}
      (h : Moves a tools fits rs w₀ (before ++ task :: after) w starts finished)
      (fit : fits before after)
      (advanced : Advanced a tools task.run w task.stage s w' starts' finished') :
      Moves a tools fits rs w₀ (before ++ { task with stage := s } :: after) w'
        (starts ++ starts') (finished ++ finished')

variable {a : Archive} {tools : Tools} {fits : List Task → List Task → Prop}
  {rs : List PendingRun} {w₀ w w' : World} {tasks before after : List Task} {task : Task}

section Open

theorem hasFailed_cons : hasFailed (task :: tasks) =
    (task.stage.failure?.isSome || hasFailed tasks) := rfl

theorem hasFailed_append : hasFailed (before ++ tasks) = (hasFailed before || hasFailed tasks) :=
  List.any_append

theorem Stage.isOpen_of_stopped {s : Stage} {stopped : Bool} (h : s.isOpen stopped = false) :
    s.isOpen true = false := by
  cases s with
  | waiting => rfl
  | taken => cases h
  | running rest => exact h
  | failed cause => rfl

theorem Stage.isOpen_of_isWaiting {s : Stage} (h : s.isWaiting = true) :
    s.isOpen true = false := by
  cases s with
  | waiting => rfl
  | taken | running rest | failed cause => cases h

/-- Whether a run is the first one in the list that has something to do. -/
structure FirstOpen (before : List Task) (task : Task) (after : List Task) : Prop where
  closed : ∀ t ∈ before, t.stage.isOpen (hasFailed (before ++ task :: after)) = false
  isOpen : task.stage.isOpen (hasFailed (before ++ task :: after)) = true

end Open

def Reached (a : Archive) (tools : Tools) (fits : List Task → List Task → Prop)
    (rs : List PendingRun) (w₀ : World) (tasks : List Task) (w : World) : Prop :=
  ∃ starts finished, Moves a tools fits rs w₀ tasks w starts finished

theorem Reached.advance {stopped : Bool}
    (h : Reached a tools fits rs w₀ (before ++ task :: after) w) (hf : fits before after)
    (ho : task.stage.isOpen stopped = true) :
    Reached a tools fits rs w₀ (before ++ (task.advance a tools w).1 :: after)
      (task.advance a tools w).2 := by
  obtain ⟨starts, finished, h⟩ := h
  obtain ⟨s, starts', finished', ha, ht⟩ := advanced_advance ho w
  rw [ht]
  exact ⟨_, _, h.step hf ha⟩

section Finish

theorem advance_taken (r : PendingRun) (w : World) :
    Task.advance a tools { run := r, stage := .taken } w =
      ({ run := r, stage := .ofOutcome ((a.launch tools r).outcome w).1 },
        ((a.launch tools r).outcome w).2) := rfl

theorem advance_running (r : PendingRun) (s : Step) (rest : List Step) (w : World) :
    Task.advance a tools { run := r, stage := .running (s :: rest) } w =
      ({ run := r, stage := .ofOutcome (((a.perform r s).outcome w).1.map fun _ => rest) },
        ((a.perform r s).outcome w).2) := rfl

theorem finish_running (r : PendingRun) (rest : List Step) (w : World) :
    Task.finish a tools { run := r, stage := .running rest } w =
      ({ run := r
         stage := .ofOutcome (((rest.forM (a.perform r)).outcome w).1.map fun _ => []) },
        ((rest.forM (a.perform r)).outcome w).2) := rfl

theorem finish_taken (r : PendingRun) (w : World) :
    Task.finish a tools { run := r, stage := .taken } w =
      ({ run := r, stage := .ofOutcome (((a.execute tools r).outcome w).1.map fun _ => []) },
        ((a.execute tools r).outcome w).2) := rfl

/-- To finish a run is to take its next step and to finish what is left. -/
theorem finish_advance (task : Task) (w : World) :
    (task.advance a tools w).1.finish a tools (task.advance a tools w).2 =
      task.finish a tools w := by
  obtain ⟨r, stage⟩ := task
  cases stage with
  | waiting => rfl
  | failed cause => rfl
  | taken =>
    rw [advance_taken, finish_taken, execute]
    cases ho : (a.launch tools r).outcome w with
    | mk x w₁ =>
      cases x with
      | error e =>
        rw [Session.outcome_bind_of_error ho]
        rfl
      | ok rest =>
        rw [Session.outcome_bind_of_ok ho]
        rfl
  | running rest =>
    cases rest with
    | nil => rfl
    | cons s rest =>
      rw [advance_running, finish_running, List.forM_eq_forM, List.forM_cons]
      cases ho : (a.perform r s).outcome w with
      | mk x w₁ =>
        cases x with
        | error e =>
          rw [Session.outcome_bind_of_error ho]
          rfl
        | ok u =>
          rw [Session.outcome_bind_of_ok ho]
          rfl

theorem isOpen_ofOutcome_done {α : Type} (x : Except Error α) (stopped : Bool) :
    (Stage.ofOutcome (x.map fun _ => [])).isOpen stopped = false := by
  cases x <;> rfl

theorem isOpen_finish (task : Task) (w : World) (stopped : Bool) :
    (task.finish a tools w).1.stage.isOpen stopped = false := by
  obtain ⟨r, stage⟩ := task
  cases stage with
  | waiting => exact isOpen_ofOutcome_done _ _
  | taken => exact isOpen_ofOutcome_done _ _
  | running rest => exact isOpen_ofOutcome_done _ _
  | failed cause => rfl

theorem failed_finish (h : task.stage.failure?.isSome = true) :
    (task.finish a tools w).1.stage.failure?.isSome = true := by
  obtain ⟨r, stage⟩ := task
  cases stage with
  | failed cause => rfl
  | waiting | taken | running rest => cases h

theorem hasFailed_finish (task : Task) (w : World) :
    hasFailed (before ++ (task.finish a tools w).1 :: tasks) =
      (hasFailed (before ++ task :: tasks) ||
        (task.finish a tools w).1.stage.failure?.isSome) := by
  have hf := @failed_finish a tools w task
  rw [hasFailed_append, hasFailed_append, hasFailed_cons, hasFailed_cons]
  cases h : (task.finish a tools w).1.stage.failure?.isSome with
  | true => simp
  | false =>
    rw [h] at hf
    rw [Bool.eq_false_iff.2 fun ht => Bool.false_ne_true (hf ht), Bool.or_false]

end Finish

section Drain

def Ended (tasks : List Task) : Prop := ∀ t ∈ tasks, t.stage.isOpen (hasFailed tasks) = false

theorem drain_of_waiting {stopped : Bool} (h : (stopped && task.stage.isWaiting) = true) :
    drain a tools stopped (task :: tasks) w =
      (task :: (drain a tools stopped tasks w).1, (drain a tools stopped tasks w).2) := by
  rw [drain, if_pos h]

theorem drain_of_finish {stopped stopped' : Bool} (h : ¬ (stopped && task.stage.isWaiting) = true)
    (hs : stopped' = (stopped || (task.finish a tools w).1.stage.failure?.isSome)) :
    drain a tools stopped (task :: tasks) w =
      ((task.finish a tools w).1 ::
          (drain a tools stopped' tasks (task.finish a tools w).2).1,
        (drain a tools stopped' tasks (task.finish a tools w).2).2) := by
  rw [drain, if_neg h, hs]

variable (hfirst : ∀ before task after w,
  Reached a tools fits rs w₀ (before ++ task :: after) w → FirstOpen before task after →
    fits before after)
include hfirst

theorem Reached.finish_running {r : PendingRun} {rest : List Step}
    (h : Reached a tools fits rs w₀ (before ++ { run := r, stage := .running rest } :: after) w)
    (hc : ∀ t ∈ before, t.stage.isOpen (hasFailed before || hasFailed after) = false) :
    Reached a tools fits rs w₀
      (before ++ (Task.finish a tools { run := r, stage := .running rest } w).1 :: after)
      (Task.finish a tools { run := r, stage := .running rest } w).2 := by
  induction rest generalizing w with
  | nil => exact h
  | cons s rest ih =>
    have hopen : FirstOpen before { run := r, stage := .running (s :: rest) } after := by
      refine ⟨?_, rfl⟩
      rw [hasFailed_append, hasFailed_cons]
      exact hc
    have hnext := h.advance (hfirst _ _ _ _ h hopen) hopen.isOpen
    rw [← finish_advance]
    rw [advance_running] at hnext ⊢
    cases hx : ((a.perform r s).outcome w).1 with
    | error e =>
      rw [hx] at hnext
      exact hnext
    | ok u =>
      rw [hx] at hnext
      exact ih hnext

theorem Reached.finish_taken {r : PendingRun}
    (h : Reached a tools fits rs w₀ (before ++ { run := r, stage := .taken } :: after) w)
    (hc : ∀ t ∈ before, t.stage.isOpen (hasFailed before || hasFailed after) = false) :
    Reached a tools fits rs w₀
      (before ++ (Task.finish a tools { run := r, stage := .taken } w).1 :: after)
      (Task.finish a tools { run := r, stage := .taken } w).2 := by
  have hopen : FirstOpen before { run := r, stage := .taken } after := by
    refine ⟨?_, rfl⟩
    rw [hasFailed_append, hasFailed_cons]
    exact hc
  have hnext := h.advance (hfirst _ _ _ _ h hopen) hopen.isOpen
  rw [← finish_advance]
  rw [advance_taken] at hnext ⊢
  cases hx : ((a.launch tools r).outcome w).1 with
  | error e =>
    rw [hx] at hnext
    exact hnext
  | ok rest =>
    rw [hx] at hnext
    exact hnext.finish_running hfirst hc

theorem Reached.finish (h : Reached a tools fits rs w₀ (before ++ task :: after) w)
    (hc : ∀ t ∈ before, t.stage.isOpen (hasFailed (before ++ task :: after)) = false)
    (hw : task.stage = .waiting → hasFailed (before ++ task :: after) = false) :
    Reached a tools fits rs w₀ (before ++ (task.finish a tools w).1 :: after)
      (task.finish a tools w).2 := by
  obtain ⟨r, stage⟩ := task
  cases stage with
  | waiting =>
    have hopen : FirstOpen before { run := r } after := by
      refine ⟨hc, ?_⟩
      rw [hw rfl]
      rfl
    have hnext := h.advance (hfirst _ _ _ _ h hopen) hopen.isOpen
    rw [hasFailed_append, hasFailed_cons] at hc
    exact hnext.finish_taken hfirst hc
  | taken =>
    rw [hasFailed_append, hasFailed_cons] at hc
    exact h.finish_taken hfirst hc
  | running rest =>
    rw [hasFailed_append, hasFailed_cons] at hc
    exact h.finish_running hfirst hc
  | failed cause => exact h

/-- What is left in the end is done from the first run to the last, until there is nothing left. -/
theorem Reached.drain (h : Reached a tools fits rs w₀ (before ++ tasks) w)
    (hc : ∀ t ∈ before, t.stage.isOpen (hasFailed (before ++ tasks)) = false) :
    Reached a tools fits rs w₀
      (before ++ (drain a tools (hasFailed (before ++ tasks)) tasks w).1)
      (drain a tools (hasFailed (before ++ tasks)) tasks w).2 ∧
    Ended (before ++ (Archive.drain a tools (hasFailed (before ++ tasks)) tasks w).1) := by
  induction tasks generalizing before w with
  | nil =>
    rw [List.append_nil] at hc
    refine ⟨h, ?_⟩
    rwa [Archive.drain, List.append_nil]
  | cons task tasks ih =>
    by_cases hs : (hasFailed (before ++ task :: tasks) && task.stage.isWaiting) = true
    · -- No run is begun once another one has failed.
      obtain ⟨hstopped, hwaits⟩ := Bool.and_eq_true_iff.1 hs
      rw [drain_of_waiting hs]
      rw [List.append_cons] at h hc hstopped
      have hrest := ih h fun t ht => by
        rcases List.mem_append.1 ht with ht | ht
        · exact hc t ht
        · rw [List.mem_singleton.1 ht, hstopped]
          exact Stage.isOpen_of_isWaiting hwaits
      simpa only [List.append_assoc, List.cons_append, List.nil_append] using hrest
    · have hw : task.stage = .waiting → hasFailed (before ++ task :: tasks) = false := by
        intro hw
        rw [hw] at hs
        simpa [Stage.isWaiting] using hs
      have hnext := h.finish hfirst hc hw
      have hfailed := @hasFailed_finish a tools tasks before task w
      rw [drain_of_finish hs hfailed]
      rw [List.append_cons] at hnext
      have hrest := ih hnext fun t ht => by
        rw [← List.append_cons, hfailed]
        rcases List.mem_append.1 ht with ht | ht
        · have hct := hc t ht
          cases (task.finish a tools w).1.stage.failure?.isSome with
          | false => rwa [Bool.or_false]
          | true =>
            rw [Bool.or_true]
            exact Stage.isOpen_of_stopped hct
        · rw [List.mem_singleton.1 ht]
          exact isOpen_finish task w _
      simpa only [List.append_assoc, List.cons_append, List.nil_append] using hrest

end Drain

section Turn

theorem advanceFirst_cases (chosen : Nat → Task → Bool) (i : Nat) (tasks : List Task) (w : World) :
    advanceFirst a tools chosen i tasks w = (tasks, w) ∨
      ∃ before task after, tasks = before ++ task :: after ∧
        chosen (i + before.length) task = true ∧
        (∀ t ∈ before.zipIdx i, chosen t.2 t.1 = false) ∧
        advanceFirst a tools chosen i tasks w =
          (before ++ (task.advance a tools w).1 :: after, (task.advance a tools w).2) := by
  induction tasks generalizing i with
  | nil => exact .inl rfl
  | cons task tasks ih =>
    by_cases hc : chosen i task = true
    · refine .inr ⟨[], task, tasks, rfl, hc, by simp, ?_⟩
      rw [advanceFirst, if_pos hc]
      rfl
    · have hs : advanceFirst a tools chosen i (task :: tasks) w =
          (task :: (advanceFirst a tools chosen (i + 1) tasks w).1,
            (advanceFirst a tools chosen (i + 1) tasks w).2) := by
        rw [advanceFirst, if_neg hc]
      rw [hs]
      rcases ih (i + 1) with h | ⟨before, t, after, rfl, ht, hb, h⟩
      · rw [h]
        exact .inl rfl
      · rw [h]
        refine .inr ⟨task :: before, t, after, rfl, ?_, ?_, rfl⟩
        · rwa [List.length_cons, Nat.add_comm before.length, ← Nat.add_assoc]
        · rw [List.zipIdx_cons, List.forall_mem_cons]
          exact ⟨Bool.eq_false_iff.2 hc, hb⟩

theorem Reached.turn {p : Pool} {workers : Nat} {t : Turn}
    (h : Reached a tools fits rs w₀ p.tasks p.world)
    (hf : ∀ before task after, p.tasks = before ++ task :: after →
      p.isOwn (t.worker % workers) before.length task = true →
      (∀ u ∈ before.zipIdx, p.isOwn (t.worker % workers) u.2 u.1 = false) → fits before after) :
    Reached a tools fits rs w₀ (p.turn a tools workers t).tasks
      (p.turn a tools workers t).world := by
  rw [Pool.turn]
  dsimp only
  split
  · rcases @advanceFirst_cases a tools (p.isOwn (t.worker % workers)) 0 p.tasks p.world with
      ha | ⟨before, task, after, htasks, hown, hbefore, ha⟩
    · rw [ha]
      exact h
    · rw [ha]
      rw [Nat.zero_add] at hown
      rw [htasks] at h
      exact h.advance (hf before task after htasks hown hbefore) (Bool.and_eq_true_iff.1 hown).2
  · exact h

/-- Whether a run is a step of the one worker: those before it are kept, and those after it wait. -/
structure InTurn (before after : List Task) : Prop where
  kept : ∀ t ∈ before, t.stage = .running []
  waiting : ∀ t ∈ after, t.stage = .waiting

/-- Whether of any two runs the first is kept or the second waits. -/
def Ordered (tasks : List Task) : Prop :=
  tasks.Pairwise fun t u => t.stage = .running [] ∨ u.stage = .waiting

theorem Moves.ordered {starts : List Start} {finished : List PendingRun}
    (h : Moves a tools InTurn rs w₀ tasks w starts finished) : Ordered tasks := by
  induction h with
  | start =>
    rw [Ordered, List.pairwise_map]
    exact List.pairwise_of_forall fun _ _ => .inr rfl
  | step h fit advanced ih =>
    rw [Ordered, List.pairwise_append, List.pairwise_cons]
    refine ⟨?_, ⟨fun u hu => .inr (fit.waiting u hu), ?_⟩, fun t ht u _ => .inl (fit.kept t ht)⟩
    · exact List.Pairwise.imp_of_mem (fun ht _ _ => .inl (fit.kept _ ht)) (List.pairwise_append.1 ih).1
    · exact List.Pairwise.imp_of_mem (fun _ hu _ => .inr (fit.waiting _ hu))
        (List.pairwise_cons.1 (List.pairwise_append.1 ih).2.1).2

theorem Stage.eq_kept {s : Stage} (ho : s.isOpen false = false) (hf : s.failure?.isSome = false) :
    s = .running [] := by
  cases s with
  | waiting | taken | failed cause => cases ho <;> cases hf
  | running rest =>
    cases rest with
    | nil => rfl
    | cons s rest => cases ho

theorem not_hasFailed_iff : hasFailed tasks = false ↔
    ∀ t ∈ tasks, t.stage.failure?.isSome = false := by
  rw [hasFailed, List.any_eq_false]
  exact forall₂_congr fun t _ => Bool.eq_false_iff.symm

theorem FirstOpen.inTurn (hf : FirstOpen before task after)
    (ho : Ordered (before ++ task :: after)) : InTurn before after := by
  obtain ⟨-, hafter, hcross⟩ := List.pairwise_append.1 ho
  constructor
  · intro t ht
    rcases hcross t ht task (List.mem_cons_self ..) with hk | hw
    · exact hk
    · -- A run that waits is only begun if none has failed.
      have hopen := hf.isOpen
      rw [hw] at hopen
      have hs : hasFailed (before ++ task :: after) = false := by simpa [Stage.isOpen] using hopen
      have hc := hf.closed t ht
      rw [hs] at hc
      exact Stage.eq_kept hc (not_hasFailed_iff.1 hs t (List.mem_append_left _ ht))
  · intro u hu
    rcases (List.pairwise_cons.1 hafter).1 u hu with hk | hw
    · have hopen := hf.isOpen
      rw [hk] at hopen
      cases hopen
    · exact hw

end Turn

section Runs

theorem reached_runTasks_of {I : Pool → Prop} {w : World}
    (hstart : I { tasks := rs.map fun run => { run }, world := w })
    (hturn : ∀ p t, I p → I (p.turn a tools (a.workers tools) t))
    (hown : ∀ p (t : Turn) before task after, I p → Reached a tools fits rs w p.tasks p.world →
      p.tasks = before ++ task :: after →
      p.isOwn (t.worker % a.workers tools) before.length task = true →
      (∀ u ∈ before.zipIdx, p.isOwn (t.worker % a.workers tools) u.2 u.1 = false) →
      fits before after)
    (hfirst : ∀ before task after w',
      Reached a tools fits rs w (before ++ task :: after) w' → FirstOpen before task after →
        fits before after) :
    Reached a tools fits rs w (a.runTasks tools rs w).1 (a.runTasks tools rs w).2 ∧
      Ended (a.runTasks tools rs w).1 := by
  have hturns (turns : List Turn) (p : Pool) (hp : I p)
      (h : Reached a tools fits rs w p.tasks p.world) :
      Reached a tools fits rs w (turns.foldl (Pool.turn a tools (a.workers tools)) p).tasks
        (turns.foldl (Pool.turn a tools (a.workers tools)) p).world := by
    induction turns generalizing p with
    | nil => exact h
    | cons t turns ih =>
      refine ih _ (hturn p t hp) (h.turn fun before task after => ?_)
      exact hown p t before task after hp h
  let start : Pool := { tasks := rs.map fun run => { run }, world := w }
  have h : Reached a tools fits rs w
      ([] ++ ((tools.schedule w.clock).foldl (Pool.turn a tools (a.workers tools)) start).tasks)
      ((tools.schedule w.clock).foldl (Pool.turn a tools (a.workers tools)) start).world :=
    hturns (tools.schedule w.clock) start hstart ⟨[], [], .start⟩
  exact h.drain hfirst fun _ ht => absurd ht List.not_mem_nil

/-- Any number of workers makes steps of the runs in some order. -/
theorem reached_runTasks (a : Archive) (tools : Tools) (rs : List PendingRun) (w : World) :
    Reached a tools (fun _ _ => True) rs w (a.runTasks tools rs w).1 (a.runTasks tools rs w).2 ∧
      Ended (a.runTasks tools rs w).1 := by
  refine reached_runTasks_of (I := fun _ => True) trivial ?_ ?_ ?_ <;> intros <;> trivial

theorem owner_turn {p : Pool} (hp : p.owner = fun _ => 0) (t : Turn) :
    (p.turn a tools 1 t).owner = fun _ => 0 := by
  rw [Pool.turn]
  dsimp only
  split
  · exact hp
  · funext i
    simp [Pool.stealer, Nat.mod_one, hp]

/-- One worker makes the steps of one run after those of another. -/
theorem reached_runTasks_inTurn (h : a.workers tools = 1) (rs : List PendingRun) (w : World) :
    Reached a tools InTurn rs w (a.runTasks tools rs w).1 (a.runTasks tools rs w).2 ∧
      Ended (a.runTasks tools rs w).1 := by
  have hfirst : ∀ before task after w',
      Reached a tools InTurn rs w (before ++ task :: after) w' → FirstOpen before task after →
        InTurn before after := by
    rintro before task after w' ⟨starts, finished, hm⟩ hf
    exact hf.inTurn hm.ordered
  refine reached_runTasks_of (I := fun p => p.owner = fun _ => 0) rfl ?_ ?_ hfirst
  · intro p t hp
    rw [h]
    exact owner_turn hp t
  · -- All runs are with the worker, so it goes on with the first that is open.
    intro p t before task after hp hr htasks hown hbefore
    have hall (i : Nat) (u : Task) : p.isOwn (t.worker % a.workers tools) i u =
        u.stage.isOpen (hasFailed (before ++ task :: after)) := by
      rw [Pool.isOwn, hp, h, Nat.mod_one, htasks]
      rfl
    rw [hall] at hown
    rw [htasks] at hr
    refine hfirst before task after p.world hr ⟨fun u hu => ?_, hown⟩
    obtain ⟨i, hi, rfl⟩ := List.mem_iff_getElem.1 hu
    have hm : (before[i], i) ∈ before.zipIdx := List.mem_zipIdx_iff_getElem?.2 (by simp [hi])
    have hc := hbefore _ hm
    rwa [hall] at hc

end Runs

end SimCampaign.Archive
