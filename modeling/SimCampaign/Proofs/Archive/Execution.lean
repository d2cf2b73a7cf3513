import SimCampaign.Archive.Pool
import SimCampaign.Proofs.Archive.RunId
import SimCampaign.Proofs.Archive.Session
import SimCampaign.Proofs.Except
import SimCampaign.Proofs.Storage.FileTree

/-! All that a step of a run can do. It changes nothing outside the folder of the run but folders on
the way to it, and the record is written last. -/

namespace SimCampaign

section Effects
variable {folder q : Location} {t : FileTree} {e : Effect}

theorem Effect.node?_apply_of_ne (h : q ≠ folder ++ e.place) :
    (e.apply folder t).node? q = t.node? q := by
  cases e with
  | write p data => exact FileTree.node?_write_of_ne h
  | folder p => exact FileTree.node?_addFolder_of_ne h

theorem Effect.grows_apply (folder : Location) (t : FileTree) (e : Effect) :
    FileTree.Grows t (e.apply folder t) := by
  cases e with
  | write p data => exact FileTree.grows_write t _ _
  | folder p => exact FileTree.grows_addFolder t _

theorem Effect.node?_apply_of_outside (h : ¬ folder <+: q) :
    (e.apply folder t).node? q = t.node? q := by
  refine Effect.node?_apply_of_ne ?_
  rintro rfl
  exact h (List.prefix_append _ _)

end Effects

namespace Archive
variable {a : Archive} {tools : Tools} {r : PendingRun} {w w' : World} {t : FileTree}

section Place
variable {id : String}

theorem plain_recordName : Path.Plain recordName := ⟨by decide, by decide, by decide, by decide⟩

theorem runFolder_eq (h : Path.Plain id) :
    a.runFolder id = Path.resolve a.runsFolder ++ [id] := Path.resolve_join_plain _ h

theorem mem_way_runPath (h : Path.Plain id) {q : Location} :
    q ∈ Path.way (a.runPath id) ↔ q ∈ Path.way a.runsFolder ∨ q = a.runFolder id := by
  rw [runFolder_eq h]
  exact Path.mem_way_join _ h

theorem runFolder_mem_way (a : Archive) (id : String) : a.runFolder id ∈ Path.way (a.runPath id) :=
  Path.resolve_mem_way _

theorem not_runFolder_above {i j : String} (hi : Path.Plain i) (hj : Path.Plain j) (hne : i ≠ j)
    (p : Location) : ¬ a.runFolder i <+: a.runFolder j ++ p := by
  intro h
  rw [runFolder_eq hi, runFolder_eq hj, List.append_assoc, List.prefix_append_right_inj] at h
  obtain ⟨rest, hr⟩ := h
  exact hne (List.cons.inj hr).1

theorem isDone_iff : a.isDone t id = true ↔
    (∀ q ∈ Path.way (a.runPath id), t.isFolder q = true) ∧ t.exists? (a.recordFile id) = true := by
  rw [isDone, FileTree.finds_iff, FileTree.exists?_iff, recordPath, recordFile, runFolder]
  constructor
  · rintro ⟨n, hn⟩
    obtain ⟨hway, hn⟩ := (FileTree.find_join_eq_ok_iff plain_recordName).1 hn
    exact ⟨hway, n, hn⟩
  · rintro ⟨hway, n, hn⟩
    exact ⟨n, (FileTree.find_join_eq_ok_iff plain_recordName).2 ⟨hway, hn⟩⟩

theorem isDone_of_grows {t' : FileTree} (h : FileTree.Grows t t') (hd : a.isDone t id = true) :
    a.isDone t' id = true := h.finds hd

end Place

section Launch

def made (a : Archive) (r : PendingRun) (w : World) : Except IoError Unit × FileTree :=
  FileTree.makeFolders (a.runPath r.id) (w.disk w.clock) w.files

theorem checkProgram_eq_ok_iff {arguments : List String} :
    a.checkProgram t arguments = .ok () ↔
      (∀ path, a.program? = some path → ∃ doc, t.find path = .ok (.file doc)) ∧
        ¬ arguments.any holdsNul = true := by
  rw [checkProgram, bind_eq_ok_iff]
  by_cases hn : arguments.any holdsNul = true
  · refine iff_of_false ?_ fun h => h.2 hn
    rintro ⟨n, -, h⟩
    simp only [hn, if_true] at h
    cases h
  simp only [hn, Bool.false_eq_true, if_false, not_false_eq_true, and_true]
  cases a.program? with
  | none => exact iff_of_true ⟨none, rfl, rfl⟩ (by rintro _ ⟨⟩)
  | some path =>
    constructor
    · rintro ⟨n, hn, h⟩ _ ⟨⟩
      obtain ⟨node, hf, rfl⟩ := map_eq_ok_iff.1 hn
      cases node with
      | folder => cases h
      | file doc => exact ⟨doc, hf⟩
    · intro h
      obtain ⟨doc, hd⟩ := h path rfl
      exact ⟨some (.file doc), map_eq_ok_iff.2 ⟨_, hd, rfl⟩, rfl⟩
/-- Whether the program of a run is started, in the folder that was made for it. -/
structure Launches (a : Archive) (tools : Tools) (r : PendingRun) (w : World) (e : Execution) :
    Prop where
  made : (a.made r w).1 = .ok ()
  program : a.checkProgram (a.made r w).2 (commandLine r.params) = .ok ()
  starts : tools.simulator.run (w.clock + 1) (commandLine r.params) a.libraries = .ok e

theorem outcome_operate (c : Change) :
    (Archive.operate c).outcome w = ((c (w.disk w.clock) w.files).1.mapError .io,
      { w with files := (c (w.disk w.clock) w.files).2, clock := w.clock + 1 }) := rfl

theorem outcome_launch (a : Archive) (tools : Tools) (r : PendingRun) (w : World) :
    (∃ e, Launches a tools r w e ∧ (a.launch tools r).outcome w =
      (.ok (steps tools r (w.clock + 1) e),
        { w with
          files := (a.made r w).2
          clock := w.clock + 1
          started := w.started ++ [{ run := r, moment := w.clock + 1 }] })) ∨
    ∃ cause, (∀ e, ¬ Launches a tools r w e) ∧ (a.launch tools r).outcome w =
      (.error cause, { w with files := (a.made r w).2, clock := w.clock + 1 }) := by
  have ho := @outcome_operate w (FileTree.makeFolders (a.runPath r.id))
  rw [← made] at ho
  cases hm : (a.made r w).1 with
  | error e =>
    refine .inr ⟨.io e, fun _ hl => ?_, ?_⟩
    · have hl := hl.made
      rw [hm] at hl
      cases hl
    · rw [hm] at ho
      exact Session.outcome_bind_of_error ho
  | ok u =>
    rw [hm] at ho
    rw [launch, Session.outcome_bind_of_ok ho, Session.outcome_files_bind]
    cases hp : a.checkProgram (a.made r w).2 (commandLine r.params) with
    | error e =>
      refine .inr ⟨.io e, fun _ hl => ?_, ?_⟩
      · have hl := hl.program
        rw [hp] at hl
        cases hl
      · exact Session.outcome_bind_of_error (Session.outcome_ofExcept _)
    | ok u =>
      have hu : (Except.mapError Error.io (.ok u) : Except Error Unit) = .ok u := rfl
      rw [Session.outcome_ofExcept_bind hu, Session.outcome_moment_bind]
      cases hs : tools.simulator.run (w.clock + 1) (commandLine r.params) a.libraries with
      | error e =>
        refine .inr ⟨.io e, fun _ hl => ?_, ?_⟩
        · have hl := hl.starts
          rw [hs] at hl
          cases hl
        · exact Session.outcome_bind_of_error (Session.outcome_ofExcept _)
      | ok e =>
        have he : (Except.mapError Error.io (.ok e) : Except Error Execution) = .ok e := rfl
        refine .inl ⟨e, ⟨hm, hp, hs⟩, ?_⟩
        rw [Session.outcome_ofExcept_bind he, Session.outcome_start_bind, Session.outcome_pure]

end Launch

section Advance

def wrote (w : World) (p : Location) (doc : Document) : Except IoError Unit × FileTree :=
  FileTree.writeAt p doc (w.disk w.clock) w.files

/-- All that the next step of a run can do: how far the run comes, the world that it leaves, and the
simulations that it starts and keeps. -/
inductive Advanced (a : Archive) (tools : Tools) (r : PendingRun) (w : World) :
    Stage → Stage → World → List Start → List PendingRun → Prop
  | took : Advanced a tools r w .waiting .taken w [] []
  | refused (cause : Error) (h : ∀ e, ¬ Launches a tools r w e) :
    Advanced a tools r w .taken (.failed cause)
      { w with files := (a.made r w).2, clock := w.clock + 1 } [] []
  | launched (e : Execution) (h : Launches a tools r w e) :
    Advanced a tools r w .taken (.running (steps tools r (w.clock + 1) e))
      { w with
        files := (a.made r w).2
        clock := w.clock + 1
        started := w.started ++ [{ run := r, moment := w.clock + 1 }] }
      [{ run := r, moment := w.clock + 1 }] []
  | acted (e : Effect) (rest : List Step) :
    Advanced a tools r w (.running (.effect e :: rest)) (.running rest)
      { w with files := e.apply (a.runFolder r.id) w.files } [] []
  | kept (name : String) (doc : Document) (rest : List Step)
      (h : (wrote w (a.runFolder r.id ++ [name]) doc).1 = .ok ()) :
    Advanced a tools r w (.running (.keep name doc :: rest)) (.running rest)
      { w with files := (wrote w (a.runFolder r.id ++ [name]) doc).2, clock := w.clock + 1 } [] []
  | unkept (name : String) (doc : Document) (rest : List Step) (cause : Error)
      (h : (wrote w (a.runFolder r.id ++ [name]) doc).1 ≠ .ok ()) :
    Advanced a tools r w (.running (.keep name doc :: rest)) (.failed cause)
      { w with files := (wrote w (a.runFolder r.id ++ [name]) doc).2, clock := w.clock + 1 } [] []
  | recorded (doc : Document) (rest : List Step)
      (h : (wrote w (a.recordFile r.id) doc).1 = .ok ()) :
    Advanced a tools r w (.running (.record doc :: rest)) (.running rest)
      { w with
        files := (wrote w (a.recordFile r.id) doc).2
        clock := w.clock + 1
        finished := w.finished ++ [r] } [] [r]
  | unrecorded (doc : Document) (rest : List Step) (cause : Error)
      (h : (wrote w (a.recordFile r.id) doc).1 ≠ .ok ()) :
    Advanced a tools r w (.running (.record doc :: rest)) (.failed cause)
      { w with files := (wrote w (a.recordFile r.id) doc).2, clock := w.clock + 1 } [] []

theorem advanced_launch (a : Archive) (tools : Tools) (r : PendingRun) (w : World) :
    ∃ starts, Advanced a tools r w .taken (.ofOutcome ((a.launch tools r).outcome w).1)
      ((a.launch tools r).outcome w).2 starts [] := by
  obtain ⟨e, h, ho⟩ | ⟨cause, h, ho⟩ := outcome_launch a tools r w
  · rw [ho]
    exact ⟨_, .launched e h⟩
  · rw [ho]
    exact ⟨_, .refused cause h⟩

theorem advanced_perform (a : Archive) (tools : Tools) (r : PendingRun) (w : World) (s : Step)
    (rest : List Step) :
    ∃ finished, Advanced a tools r w (.running (s :: rest))
      (.ofOutcome (((a.perform r s).outcome w).1.map fun _ => rest))
      ((a.perform r s).outcome w).2 [] finished := by
  cases s with
  | effect e => exact ⟨[], .acted e rest⟩
  | keep name doc =>
    have ho := @outcome_operate w (FileTree.writeAt (a.runFolder r.id ++ [name]) doc)
    rw [← wrote] at ho
    rw [perform, ho]
    cases hk : (wrote w (a.runFolder r.id ++ [name]) doc).1 with
    | ok u => exact ⟨[], .kept name doc rest hk⟩
    | error e => exact ⟨[], .unkept name doc rest _ (by simp [hk])⟩
  | record doc =>
    have ho := @outcome_operate w (FileTree.writeAt (a.recordFile r.id) doc)
    rw [← wrote] at ho
    cases hk : (wrote w (a.recordFile r.id) doc).1 with
    | ok u =>
      rw [hk] at ho
      rw [perform, Session.outcome_bind_of_ok ho]
      exact ⟨[r], .recorded doc rest hk⟩
    | error e =>
      rw [hk] at ho
      rw [perform, Session.outcome_bind_of_error ho]
      exact ⟨[], .unrecorded doc rest _ (by simp [hk])⟩

theorem advanced_advance {task : Task} {stopped : Bool} (h : task.stage.isOpen stopped = true)
    (w : World) : ∃ s starts finished,
      Advanced a tools task.run w task.stage s (task.advance a tools w).2 starts finished ∧
        (task.advance a tools w).1 = { task with stage := s } := by
  obtain ⟨r, stage⟩ := task
  cases stage with
  | waiting => exact ⟨_, _, _, .took, rfl⟩
  | taken =>
    obtain ⟨starts, ha⟩ := advanced_launch a tools r w
    exact ⟨_, _, _, ha, rfl⟩
  | running rest =>
    cases rest with
    | nil => cases h
    | cons s rest =>
      obtain ⟨finished, ha⟩ := advanced_perform a tools r w s rest
      exact ⟨_, _, _, ha, rfl⟩
  | failed cause => cases h

end Advance

section Consequences
variable {s s' : Stage} {starts : List Start} {finished : List PendingRun} {q : Location}

theorem Advanced.started_eq (h : Advanced a tools r w s s' w' starts finished) :
    w'.started = w.started ++ starts := by
  cases h with
  | launched e h => rfl
  | took | refused | acted | kept | unkept | recorded | unrecorded =>
    exact (List.append_nil _).symm

theorem Advanced.finished_eq (h : Advanced a tools r w s s' w' starts finished) :
    w'.finished = w.finished ++ finished := by
  cases h with
  | recorded doc rest h => rfl
  | took | refused | launched | acted | kept | unkept | unrecorded =>
    exact (List.append_nil _).symm

theorem Advanced.disk_eq (h : Advanced a tools r w s s' w' starts finished) :
    w'.disk = w.disk := by
  cases h <;> rfl

theorem Advanced.clock_le (h : Advanced a tools r w s s' w' starts finished) :
    w.clock ≤ w'.clock := by
  cases h with
  | took => exact Nat.le_refl _
  | acted => exact Nat.le_refl _
  | refused | launched | kept | unkept | recorded | unrecorded => exact Nat.le_succ _

theorem Advanced.isWaiting (h : Advanced a tools r w s s' w' starts finished) :
    s'.isWaiting = false := by
  cases h <;> rfl

theorem grows_made (a : Archive) (r : PendingRun) (w : World) :
    FileTree.Grows w.files (a.made r w).2 := (FileTree.adds_makeFolders _ _ _).grows

theorem grows_wrote (w : World) (p : Location) (doc : Document) :
    FileTree.Grows w.files (wrote w p doc).2 := FileTree.grows_writeAt _ _ _ _

theorem Advanced.grows (h : Advanced a tools r w s s' w' starts finished) :
    FileTree.Grows w.files w'.files := by
  cases h with
  | took => exact .refl _
  | refused | launched => exact grows_made a r w
  | acted e rest => exact e.grows_apply _ _
  | kept | unkept | recorded | unrecorded => exact grows_wrote w _ _

/-- Whether nothing changes but in the folders of runs, and for folders that are made on the way to
them. -/
def Within (a : Archive) (ids : List String) (t t' : FileTree) : Prop :=
  ∀ q, (∀ id ∈ ids, ¬ a.runFolder id <+: q) → t'.node? q = t.node? q ∨
    (∃ id ∈ ids, q ∈ Path.way (a.runPath id)) ∧ t.node? q = none ∧ t'.node? q = some .folder

theorem Within.refl (a : Archive) (ids : List String) (t : FileTree) : Within a ids t t :=
  fun _ _ => .inl rfl

theorem Within.trans {ids : List String} {t t' t'' : FileTree} (h : Within a ids t t')
    (h' : Within a ids t' t'') : Within a ids t t'' := by
  intro q hq
  rcases h' q hq with he | ⟨hw, hn, hs⟩
  · rw [he]
    exact h q hq
  · rcases h q hq with he | ⟨-, -, hf⟩
    · exact .inr ⟨hw, he ▸ hn, hs⟩
    · rw [hf] at hn
      cases hn

theorem within_made (a : Archive) (r : PendingRun) (w : World) :
    Within a [r.id] w.files (a.made r w).2 := by
  intro q _
  exact (FileTree.adds_makeFolders (a.runPath r.id) (w.disk w.clock) w.files q).imp_right
    fun h => ⟨⟨r.id, List.mem_singleton_self _, h.1⟩, h.2⟩

theorem within_wrote (w : World) (id name : String) (doc : Document) :
    Within a [id] w.files (wrote w (a.runFolder id ++ [name]) doc).2 := by
  intro q hq
  refine .inl (FileTree.node?_writeAt_of_ne ?_)
  rintro rfl
  exact hq id (List.mem_singleton_self _) (List.prefix_append _ _)

theorem Advanced.within (h : Advanced a tools r w s s' w' starts finished) :
    Within a [r.id] w.files w'.files := by
  cases h with
  | took => exact .refl a _ _
  | refused | launched => exact within_made a r w
  | acted e rest =>
    intro q hq
    exact .inl (Effect.node?_apply_of_outside (hq r.id (List.mem_singleton_self _)))
  | kept | unkept | recorded | unrecorded => exact within_wrote w r.id _ _

end Consequences

section Steps
variable {e : Execution} {moment : Nat} {s : Step} {rest : List Step}

def Step.isRecord : Step → Bool
  | .record _ => true
  | .effect _ | .keep _ _ => false

/-- The record is the last step, and the only one of its kind. -/
theorem steps_eq (tools : Tools) (r : PendingRun) (moment : Nat) (e : Execution) :
    ∃ front, steps tools r moment e =
      front ++ [.record (.text (r.record tools moment).toJson.renderIndented)] ∧
        ∀ s ∈ front, s.isRecord = false := by
  refine ⟨e.effects.map .effect ++ [.keep Run.standardOutput (.bytes e.output),
    .keep Run.standardError (.text (errorText e))], ?_, ?_⟩
  · simp [steps]
  · intro s hs
    simp only [List.mem_append, List.mem_map, List.mem_cons, List.not_mem_nil, or_false] at hs
    rcases hs with ⟨f, -, rfl⟩ | rfl | rfl <;> rfl

theorem steps_ne_nil (tools : Tools) (r : PendingRun) (moment : Nat) (e : Execution) :
    steps tools r moment e ≠ [] := by
  obtain ⟨front, h, -⟩ := steps_eq tools r moment e
  rw [h]
  exact List.concat_ne_nil _ _

theorem suffix_steps_cases (h : (s :: rest) <:+ steps tools r moment e) :
    s = .record (.text (r.record tools moment).toJson.renderIndented) ∧ rest = [] ∨
      s.isRecord = false ∧ rest ≠ [] := by
  obtain ⟨front, hs, hf⟩ := steps_eq tools r moment e
  obtain ⟨earlier, he⟩ := h
  rw [hs] at he
  rcases List.eq_nil_or_concat rest with rfl | ⟨rest, last, rfl⟩
  · exact .inl ⟨(List.cons.inj (List.append_inj_right' he rfl)).1, rfl⟩
  · refine .inr ⟨hf s ?_, by simp⟩
    have he : (earlier ++ s :: rest) ++ [last] =
        front ++ [.record (.text (r.record tools moment).toJson.renderIndented)] := by
      simpa using he
    rw [← List.append_inj_left' he rfl]
    exact List.mem_append_right _ (List.mem_cons_self ..)

end Steps

end Archive
end SimCampaign
