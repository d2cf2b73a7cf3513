import SimCampaign.Archive.Session

/-! Outcomes of steps, one step after another. -/

namespace SimCampaign.Session
variable {ε α β : Type} {w w' : World}

@[simp]
theorem outcome_pure (a : α) : (pure a : Session ε α).outcome w = (.ok a, w) := rfl

@[simp]
theorem outcome_throw (e : ε) : (throw e : Session ε α).outcome w = (.error e, w) := rfl

@[simp]
theorem outcome_files : (files : Session ε FileTree).outcome w = (.ok w.files, w) := rfl

@[simp]
theorem outcome_change (f : FileTree → FileTree) :
    (change f : Session ε Unit).outcome w = (.ok (), { w with files := f w.files }) := rfl

@[simp]
theorem outcome_log (m : Message) :
    (log m : Session ε Unit).outcome w = (.ok (), { w with log := w.log ++ [m] }) := rfl

@[simp]
theorem outcome_logAll (ms : List Message) :
    (logAll ms : Session ε Unit).outcome w = (.ok (), { w with log := w.log ++ ms }) := rfl

@[simp]
theorem outcome_ofExcept (x : Except ε α) : (ofExcept x).outcome w = (x, w) := rfl

@[simp]
theorem outcome_moment : (moment : Session ε Nat).outcome w = (.ok w.clock, w) := rfl

theorem outcome_operate (c : Change) :
    (operate c).outcome w = ((c (w.disk w.clock) w.files).1,
      { w with files := (c (w.disk w.clock) w.files).2, clock := w.clock + 1 }) := rfl

@[simp]
theorem outcome_start (s : Start) :
    (start s : Session ε Unit).outcome w = (.ok (), { w with started := w.started ++ [s] }) := rfl

@[simp]
theorem outcome_finish (r : Archive.PendingRun) :
    (finish r : Session ε Unit).outcome w =
      (.ok (), { w with finished := w.finished ++ [r] }) := rfl

theorem outcome_bind_of_ok {s : Session ε α} {f : α → Session ε β} {a : α}
    (h : s.outcome w = (.ok a, w')) : (s >>= f).outcome w = (f a).outcome w' := by
  have hs : (s >>= f).outcome w = (ExceptT.bindCont f (.ok a) : StateM World _).run w' :=
    congrArg (fun p : Except ε α × World => (ExceptT.bindCont f p.1 : StateM World _).run p.2) h
  exact hs

theorem outcome_bind_of_error {s : Session ε α} {f : α → Session ε β} {e : ε}
    (h : s.outcome w = (.error e, w')) : (s >>= f).outcome w = (.error e, w') := by
  have hs : (s >>= f).outcome w = (ExceptT.bindCont f (.error e) : StateM World _).run w' :=
    congrArg (fun p : Except ε α × World => (ExceptT.bindCont f p.1 : StateM World _).run p.2) h
  exact hs

@[simp]
theorem outcome_throw_bind (e : ε) (f : α → Session ε β) :
    ((throw e : Session ε α) >>= f).outcome w = (.error e, w) :=
  outcome_bind_of_error (outcome_throw e)

@[simp]
theorem outcome_files_bind (f : FileTree → Session ε β) :
    (files >>= f).outcome w = (f w.files).outcome w :=
  outcome_bind_of_ok outcome_files

@[simp]
theorem outcome_change_bind (g : FileTree → FileTree) (f : Unit → Session ε β) :
    (change g >>= f).outcome w = (f ()).outcome { w with files := g w.files } :=
  outcome_bind_of_ok (outcome_change g)

@[simp]
theorem outcome_log_bind (m : Message) (f : Unit → Session ε β) :
    (log m >>= f).outcome w = (f ()).outcome { w with log := w.log ++ [m] } :=
  outcome_bind_of_ok (outcome_log m)

@[simp]
theorem outcome_logAll_bind (ms : List Message) (f : Unit → Session ε β) :
    (logAll ms >>= f).outcome w = (f ()).outcome { w with log := w.log ++ ms } :=
  outcome_bind_of_ok (outcome_logAll ms)

theorem outcome_ofExcept_bind {x : Except ε α} {a : α} (h : x = .ok a) (f : α → Session ε β) :
    (ofExcept x >>= f).outcome w = (f a).outcome w :=
  outcome_bind_of_ok (by rw [outcome_ofExcept, h])

@[simp]
theorem outcome_moment_bind (f : Nat → Session ε β) :
    (moment >>= f).outcome w = (f w.clock).outcome w :=
  outcome_bind_of_ok outcome_moment

@[simp]
theorem outcome_start_bind (s : Start) (f : Unit → Session ε β) :
    (start s >>= f).outcome w = (f ()).outcome { w with started := w.started ++ [s] } :=
  outcome_bind_of_ok (outcome_start s)

theorem outcome_mapError {ε' : Type} (f : ε → ε') (s : Session ε α) :
    (s.mapError f).outcome w = ((s.outcome w).1.mapError f, (s.outcome w).2) := rfl

section Reading
variable {t : FileTree} {steps : Session ε α} {x : Except ε α}

/-- Steps that change nothing but the log, and yield the same whenever the files are the same. -/
def Reads (t : FileTree) (steps : Session ε α) (x : Except ε α) : Prop :=
  ∀ w : World, w.files = t → ∃ log, steps.outcome w = (x, { w with log })

theorem Reads.bind {f : α → Session ε β} {g : α → Except ε β} (h : Reads t steps x)
    (hf : ∀ a, Reads t (f a) (g a)) : Reads t (steps >>= f) (x >>= g) := by
  intro w hw
  obtain ⟨log, hlog⟩ := h w hw
  cases x with
  | error e => exact ⟨log, outcome_bind_of_error hlog⟩
  | ok a =>
    obtain ⟨log', hlog'⟩ := hf a { w with log } hw
    exact ⟨log', (outcome_bind_of_ok hlog).trans hlog'⟩

theorem reads_pure (t : FileTree) (a : α) : Reads (ε := ε) t (pure a) (.ok a) :=
  fun w _ => ⟨w.log, rfl⟩

theorem reads_mapM {f : α → Session ε β} {g : α → Except ε β} {xs : List α}
    (h : ∀ x ∈ xs, Reads t (f x) (g x)) : Reads t (xs.mapM f) (xs.mapM g) := by
  induction xs with
  | nil => exact reads_pure t []
  | cons x xs ih =>
    rw [List.mapM_cons, List.mapM_cons]
    refine (h x (List.mem_cons_self ..)).bind fun y => ?_
    refine (ih fun z hz => h z (List.mem_cons_of_mem _ hz)).bind fun ys => ?_
    exact reads_pure t (y :: ys)

end Reading

end SimCampaign.Session
