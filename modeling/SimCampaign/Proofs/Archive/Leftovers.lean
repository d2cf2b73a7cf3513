import SimCampaign.Proofs.Archive.Loading
import SimCampaign.Proofs.Archive.Progress

/-! What an interrupted execution leaves in the folder of a run, and what becomes of it when the run
is executed again. -/

namespace SimCampaign

section Effects
variable {folder q : Location} {t t' : FileTree} {e : Effect} {n : Node} {s s' : Option Node}

def Effect.onto : Effect → Option Node → Option Node
  | .write _ _, some .folder => some .folder
  | .write _ data, _ => some (.file (.bytes data))
  | .folder _, none => some .folder
  | .folder _, some n => some n

theorem Effect.node?_apply_child {name : String} (hf : t.isFolder folder = true) :
    (e.apply folder t).node? (folder ++ [name]) =
      if e.place = [name] then e.onto (t.node? (folder ++ [name]))
      else t.node? (folder ++ [name]) := by
  split
  next hp =>
    have hparent : t.isFolder (folder ++ [name]).dropLast = true := by rwa [List.dropLast_concat]
    cases e with
    | write p data =>
      obtain rfl : p = [name] := hp
      rw [Effect.apply]
      by_cases hn : t.isFolder (folder ++ [name]) = true
      · have hr : ¬ t.HasRoom (folder ++ [name]) := fun hr => hr.notFolder hn
        rw [FileTree.write, FileTree.place_of_no_room hr, FileTree.isFolder_iff.1 hn]
        rfl
      · rw [FileTree.node?_write_self hparent hn]
        rw [FileTree.isFolder_iff] at hn
        cases hs : t.node? (folder ++ [name]) with
        | none => rfl
        | some m =>
          cases m with
          | folder => exact absurd hs hn
          | file doc => rfl
    | folder p =>
      obtain rfl : p = [name] := hp
      rw [Effect.apply]
      cases hs : t.node? (folder ++ [name]) with
      | none => exact FileTree.node?_addFolder_self hs hparent
      | some m => exact FileTree.node?_addFolder_of_some hs
  next hp =>
    refine Effect.node?_apply_of_ne fun he => hp ?_
    exact (List.append_cancel_left he).symm

/-- A leftover that has become `s` where a fresh folder has `s'`: it keeps its kind, and what a
fresh folder has of that kind has taken its place. -/
def Outlives (leftover : Node) (s s' : Option Node) : Prop :=
  ∃ n, s = some n ∧ n.isFile = leftover.isFile ∧
    ∀ m, s' = some m → m.isFile = leftover.isFile → n = m

theorem Node.eq_folder_of_isFile (h : n.isFile = false) : n = .folder := by
  cases n with
  | folder => rfl
  | file doc => cases h

theorem Outlives.onto (h : Outlives n s s') (e : Effect) : Outlives n (e.onto s) (e.onto s') := by
  obtain ⟨m, rfl, hm, hs⟩ := h
  cases e with
  | write name data =>
    cases m with
    | folder =>
      refine ⟨.folder, rfl, hm, fun k _ hk => ?_⟩
      exact (Node.eq_folder_of_isFile (hk.trans hm.symm)).symm
    | file doc =>
      refine ⟨.file (.bytes data), rfl, hm, fun k hk hkind => ?_⟩
      have hk' : k.isFile = true := hkind.trans hm.symm
      cases s' with
      | none => exact Option.some.inj hk
      | some n' =>
        cases n' with
        | folder =>
          cases Option.some.inj hk
          cases hk'
        | file doc' => exact Option.some.inj hk
  | folder name =>
    refine ⟨m, rfl, hm, fun k hk hkind => ?_⟩
    cases s' with
    | none =>
      cases Option.some.inj hk
      exact Node.eq_folder_of_isFile (hm.trans hkind.symm)
    | some n' => exact hs k hk hkind

theorem Effect.grows_foldl_apply (folder : Location) (es : List Effect) (t : FileTree) :
    FileTree.Grows t (es.foldl (Effect.apply folder) t) := by
  induction es generalizing t with
  | nil => exact .refl t
  | cons e es ih => exact (e.grows_apply folder t).trans (ih _)

theorem Effect.isFolder_apply {p : Location} (hf : t.isFolder p = true) :
    (e.apply folder t).isFolder p = true := (e.grows_apply folder t).isFolder hf

section Child
variable (es : List Effect) {name : String} (hf : t.isFolder folder = true)
  (hf' : t'.isFolder folder = true)
include hf hf'

theorem Effect.node?_foldl_apply_congr
    (h : t.node? (folder ++ [name]) = t'.node? (folder ++ [name])) :
    (es.foldl (Effect.apply folder) t).node? (folder ++ [name]) =
      (es.foldl (Effect.apply folder) t').node? (folder ++ [name]) := by
  induction es generalizing t t' with
  | nil => exact h
  | cons e es ih =>
    refine ih (Effect.isFolder_apply hf) (Effect.isFolder_apply hf') ?_
    rw [Effect.node?_apply_child hf, Effect.node?_apply_child hf', h]

theorem Outlives.foldl_apply
    (h : Outlives n (t.node? (folder ++ [name])) (t'.node? (folder ++ [name]))) :
    Outlives n ((es.foldl (Effect.apply folder) t).node? (folder ++ [name]))
      ((es.foldl (Effect.apply folder) t').node? (folder ++ [name])) := by
  induction es generalizing t t' with
  | nil => exact h
  | cons e es ih =>
    refine ih (Effect.isFolder_apply hf) (Effect.isFolder_apply hf') ?_
    rw [Effect.node?_apply_child hf, Effect.node?_apply_child hf']
    split
    · exact h.onto e
    · exact h

end Child

end Effects

namespace Archive
variable {a : Archive} {tools : Tools} {r : PendingRun} {t t' : FileTree} {name : String}

section Kept
variable {folder : Location} {files : List (String × Document)} {w : World}

def keep (folder : Location) (files : List (String × Document)) (t : FileTree) : FileTree :=
  files.foldl (fun t file => t.write (folder ++ [file.1]) file.2) t

def keepAll (folder : Location) (files : List (String × Document)) : Session Error Unit :=
  files.forM fun file => Archive.operate (FileTree.writeAt (folder ++ [file.1]) file.2)

theorem keep_concat (folder : Location) (files : List (String × Document))
    (file : String × Document) (t : FileTree) :
    keep folder (files ++ [file]) t = (keep folder files t).write (folder ++ [file.1]) file.2 :=
  List.foldl_concat ..

theorem grows_keep (folder : Location) (files : List (String × Document)) (t : FileTree) :
    FileTree.Grows t (keep folder files t) := by
  induction files generalizing t with
  | nil => exact .refl t
  | cons file files ih => exact (FileTree.grows_write t _ _).trans (ih _)

theorem isFolder_of_keep {q : Location} (h : (keep folder files t).isFolder q = true) :
    t.isFolder q = true := by
  induction files generalizing t with
  | nil => exact h
  | cons file files ih => exact FileTree.isFolder_of_write (ih h)

theorem node?_keep_of_not_mem {q : Location} (h : ∀ file ∈ files, q ≠ folder ++ [file.1]) :
    (keep folder files t).node? q = t.node? q := by
  induction files generalizing t with
  | nil => rfl
  | cons file files ih =>
    have hf : q ≠ folder ++ [file.1] := h file (List.mem_cons_self ..)
    have hfs : ∀ file ∈ files, q ≠ folder ++ [file.1] :=
      fun file hm => h file (List.mem_cons_of_mem _ hm)
    exact (ih hfs).trans (FileTree.node?_write_of_ne hf)

theorem exists_node?_keep (folder : Location) (h : name ∈ files.map Prod.fst) :
    ∃ doc, ∀ t : FileTree, t.isFolder folder = true → ¬ t.isFolder (folder ++ [name]) = true →
      (keep folder files t).node? (folder ++ [name]) = some (.file doc) := by
  induction files with
  | nil => simp at h
  | cons file files ih =>
    by_cases hm : name ∈ files.map Prod.fst
    · obtain ⟨doc, hd⟩ := ih hm
      refine ⟨doc, fun t hf hn => hd _ ((FileTree.grows_write t _ _).isFolder hf) fun hw => ?_⟩
      exact hn (FileTree.isFolder_of_write hw)
    · obtain rfl : name = file.1 := (List.mem_cons.1 h).resolve_right hm
      refine ⟨file.2, fun t hf hn => ?_⟩
      have hk : (keep folder files (t.write (folder ++ [file.1]) file.2)).node?
          (folder ++ [file.1]) =
            (t.write (folder ++ [file.1]) file.2).node? (folder ++ [file.1]) := by
        refine node?_keep_of_not_mem fun g hg he => ?_
        rw [List.append_cancel_left_eq] at he
        exact hm (List.mem_map.2 ⟨g, hg, (List.cons.inj he).1.symm⟩)
      exact hk.trans (FileTree.node?_write_self (by rwa [List.dropLast_concat]) hn)

theorem outcome_keepAll_cons (file : String × Document)
    (h : (wrote w (folder ++ [file.1]) file.2).1 = .ok ()) :
    (keepAll folder (file :: files)).outcome w = (keepAll folder files).outcome
      { w with files := keep folder [file] w.files, clock := w.clock + 1 } := by
  have ho := @outcome_operate w (FileTree.writeAt (folder ++ [file.1]) file.2)
  rw [← wrote, h, wrote, FileTree.writeAt_of_ok h] at ho
  exact Session.outcome_bind_of_ok ho

theorem outcome_keepAll (hq : ∀ i < files.length, w.disk (w.clock + i) = none)
    (hf : ∀ file ∈ files, ¬ w.files.isFolder (folder ++ [file.1]) = true) :
    (keepAll folder files).outcome w = (.ok (),
      { w with files := keep folder files w.files, clock := w.clock + files.length }) := by
  induction files generalizing w with
  | nil => rfl
  | cons file files ih =>
    have hfile : (wrote w (folder ++ [file.1]) file.2).1 = .ok () :=
      FileTree.writeAt_ok_iff.2 ⟨hq 0 (by simp), hf file (List.mem_cons_self ..)⟩
    rw [outcome_keepAll_cons file hfile, ih, List.length_cons, Nat.add_right_comm]
    · rfl
    · intro i hi
      have hn := hq (i + 1) (by simpa using hi)
      rwa [Nat.add_comm i, ← Nat.add_assoc] at hn
    · exact fun g hg hg' => hf g (List.mem_cons_of_mem _ hg) (isFolder_of_keep hg')

theorem of_outcome_keepAll (h : ((keepAll folder files).outcome w).1 = .ok ()) :
    (∀ i < files.length, w.disk (w.clock + i) = none) ∧
      ∀ file ∈ files, ¬ w.files.isFolder (folder ++ [file.1]) = true := by
  induction files generalizing w with
  | nil => exact ⟨by simp, by simp⟩
  | cons file files ih =>
    cases hfile : (wrote w (folder ++ [file.1]) file.2).1 with
    | error e =>
      have ho := @outcome_operate w (FileTree.writeAt (folder ++ [file.1]) file.2)
      rw [← wrote, hfile] at ho
      have hs : (keepAll folder (file :: files)).outcome w = (.error (.io e), _) :=
        Session.outcome_bind_of_error ho
      rw [hs] at h
      cases h
    | ok u =>
      rw [outcome_keepAll_cons file hfile] at h
      obtain ⟨hq, hf⟩ := ih h
      obtain ⟨hnone, hfree⟩ := FileTree.writeAt_ok_iff.1 hfile
      constructor
      · intro i hi
        cases i with
        | zero => exact hnone
        | succ i =>
          have hn := hq i (by simpa using hi)
          rwa [Nat.add_comm i, ← Nat.add_assoc]
      · rw [List.forall_mem_cons]
        refine ⟨hfree, fun g hg hfolder => hf g hg ?_⟩
        exact (FileTree.grows_write w.files _ _).isFolder hfolder

end Kept

section Whole
variable {w : World} {e : Execution} {moment : Nat}

def simulated (a : Archive) (r : PendingRun) (e : Execution) (t : FileTree) : FileTree :=
  e.effects.foldl (Effect.apply (a.runFolder r.id)) t

/-- What is kept of an execution, the record last. -/
def keptFiles (tools : Tools) (r : PendingRun) (moment : Nat) (e : Execution) :
    List (String × Document) :=
  [(Run.standardOutput, .bytes e.output), (Run.standardError, .text (errorText e)),
    (recordName, .text (r.record tools moment).toJson.renderIndented)]

theorem length_keptFiles (tools : Tools) (r : PendingRun) (moment : Nat) (e : Execution) :
    (keptFiles tools r moment e).length = 3 := by
  rw [keptFiles, List.length_cons, List.length_cons, List.length_singleton]

def executed (a : Archive) (tools : Tools) (r : PendingRun) (moment : Nat) (e : Execution)
    (t : FileTree) : FileTree :=
  keep (a.runFolder r.id) (keptFiles tools r moment e) (simulated a r e t)

/-- Whether an execution succeeds: the program is started, no operation on the files meets a fault,
and no folder is in the place of what is kept. -/
structure Startable (a : Archive) (tools : Tools) (r : PendingRun) (w : World) (e : Execution) :
    Prop where
  launches : Launches a tools r w e
  quiet : ∀ i < 3, w.disk (w.clock + 1 + i) = none
  free : ∀ file ∈ keptFiles tools r (w.clock + 1) e,
    ¬ (simulated a r e (a.made r w).2).isFolder (a.runFolder r.id ++ [file.1]) = true

theorem outcome_effects (es : List Effect) (rest : List Step) (w : World) :
    ((es.map Step.effect ++ rest).forM (a.perform r)).outcome w =
      (rest.forM (a.perform r)).outcome
        { w with files := es.foldl (Effect.apply (a.runFolder r.id)) w.files } := by
  induction es generalizing w with
  | nil => rfl
  | cons e es ih =>
    have he : (a.perform r (.effect e)).outcome w =
        (.ok (), { w with files := e.apply (a.runFolder r.id) w.files }) := rfl
    have hs : ((List.map Step.effect (e :: es) ++ rest).forM (a.perform r)).outcome w =
        ((es.map Step.effect ++ rest).forM (a.perform r)).outcome
          { w with files := e.apply (a.runFolder r.id) w.files } :=
      Session.outcome_bind_of_ok he
    rw [hs, ih]
    rfl

theorem outcome_steps (tools : Tools) (moment : Nat) (e : Execution) (w : World) :
    ((steps tools r moment e).forM (a.perform r)).outcome w =
      (keepAll (a.runFolder r.id) (keptFiles tools r moment e) >>= fun _ =>
        Session.finish r).outcome { w with files := simulated a r e w.files } := by
  rw [steps, outcome_effects]
  simp [keepAll, keptFiles, perform, recordFile, simulated]

theorem outcome_execute (h : Launches a tools r w e) :
    (a.execute tools r).outcome w =
      (keepAll (a.runFolder r.id) (keptFiles tools r (w.clock + 1) e) >>= fun _ =>
        Session.finish r).outcome
          { w with
            files := simulated a r e (a.made r w).2
            clock := w.clock + 1
            started := w.started ++ [{ run := r, moment := w.clock + 1 }] } := by
  obtain ⟨e', h', ho⟩ | ⟨cause, hn, -⟩ := outcome_launch a tools r w
  · obtain rfl : e' = e := Except.ok.inj (h'.starts.symm.trans h.starts)
    rw [execute, Session.outcome_bind_of_ok ho]
    exact outcome_steps tools _ _ _
  · exact absurd h (hn e)

theorem outcome_execute_of_startable (h : Startable a tools r w e) :
    (a.execute tools r).outcome w = (.ok (),
      { w with
        files := executed a tools r (w.clock + 1) e (a.made r w).2
        clock := w.clock + 1 + 3
        started := w.started ++ [{ run := r, moment := w.clock + 1 }]
        finished := w.finished ++ [r] }) := by
  let started : World :=
    { w with
      files := simulated a r e (a.made r w).2
      clock := w.clock + 1
      started := w.started ++ [{ run := r, moment := w.clock + 1 }] }
  have hk := @outcome_keepAll (a.runFolder r.id) (keptFiles tools r (w.clock + 1) e) started
    h.quiet h.free
  rw [outcome_execute h.launches, Session.outcome_bind_of_ok hk, Session.outcome_finish, executed,
    length_keptFiles]

theorem exists_startable (h : ((a.execute tools r).outcome w).1 = .ok ()) :
    ∃ e, Startable a tools r w e := by
  obtain ⟨e, hl, -⟩ | ⟨cause, hn, ho⟩ := outcome_launch a tools r w
  · let started : World :=
      { w with
        files := simulated a r e (a.made r w).2
        clock := w.clock + 1
        started := w.started ++ [{ run := r, moment := w.clock + 1 }] }
    have hk : ((keepAll (a.runFolder r.id) (keptFiles tools r (w.clock + 1) e)).outcome
        started).1 = .ok () := by
      rw [outcome_execute hl] at h
      cases ho : (keepAll (a.runFolder r.id) (keptFiles tools r (w.clock + 1) e)).outcome
          started with
      | mk x w' =>
        cases x with
        | ok u => rfl
        | error e =>
          rw [Session.outcome_bind_of_error ho] at h
          cases h
    obtain ⟨hq, hf⟩ := of_outcome_keepAll hk
    exact ⟨e, hl, hq, hf⟩
  · have hs : (a.execute tools r).outcome w = _ := Session.outcome_bind_of_error ho
    rw [hs] at h
    cases h

end Whole

def executeAndLoad (a : Archive) (tools : Tools) (r : PendingRun) (w : World) : Except Error Run :=
  match (a.execute tools r).outcome w with
  | (.ok (), w') => a.loadRun w'.files r.id
  | (.error e, _) => .error e

theorem executeAndLoad_of_startable {w : World} {e : Execution} (hs : Startable a tools r w e) :
    executeAndLoad a tools r w =
      a.loadRun (executed a tools r (w.clock + 1) e (a.made r w).2) r.id := by
  simp only [executeAndLoad, outcome_execute_of_startable hs]

theorem startable_of_executeAndLoad {w : World} {run : Run}
    (h : executeAndLoad a tools r w = .ok run) : ∃ e, Startable a tools r w e := by
  rw [executeAndLoad] at h
  cases ho : (a.execute tools r).outcome w with
  | mk x w' =>
    cases x with
    | error e =>
      rw [ho] at h
      cases h
    | ok u => exact exists_startable (congrArg Prod.fst ho)

theorem executeAndLoad_eq_ok_iff {w : World} {run : Run} :
    executeAndLoad a tools r w = .ok run ↔ ∃ e, Startable a tools r w e ∧
      a.loadRun (executed a tools r (w.clock + 1) e (a.made r w).2) r.id = .ok run := by
  constructor
  · intro h
    obtain ⟨e, hs⟩ := startable_of_executeAndLoad h
    rw [executeAndLoad_of_startable hs] at h
    exact ⟨e, hs, h⟩
  · rintro ⟨e, hs, h⟩
    rw [executeAndLoad_of_startable hs, h]

section Child
variable {w : World} {e : Execution} {moment : Nat} {n : Node}

theorem grows_executed (a : Archive) (tools : Tools) (r : PendingRun) (moment : Nat)
    (e : Execution) (t : FileTree) : FileTree.Grows t (executed a tools r moment e t) :=
  (Effect.grows_foldl_apply _ _ _).trans (grows_keep _ _ _)

theorem node?_executed_of_not_kept (hk : name ∉ (keptFiles tools r moment e).map Prod.fst) :
    (executed a tools r moment e t).node? (a.runFolder r.id ++ [name]) =
      (simulated a r e t).node? (a.runFolder r.id ++ [name]) := by
  refine node?_keep_of_not_mem fun file hf he => ?_
  rw [List.append_cancel_left_eq] at he
  exact hk (List.mem_map.2 ⟨file, hf, (List.cons.inj he).1.symm⟩)

theorem Startable.isFolder (hs : Startable a tools r w e) :
    (a.made r w).2.isFolder (a.runFolder r.id) = true :=
  isFolder_made hs.launches.made _ (runFolder_mem_way a r.id)

theorem find_recordPath_executed (hs : Startable a tools r w e) :
    (executed a tools r (w.clock + 1) e (a.made r w).2).find (a.recordPath r.id) =
      .ok (.file (.text (r.record tools (w.clock + 1)).toJson.renderIndented)) := by
  refine (FileTree.find_join_eq_ok_iff plain_recordName).2 ⟨fun q hq => ?_, ?_⟩
  · exact (grows_executed a tools r _ e _).isFolder (isFolder_made hs.launches.made q hq)
  have hfolder : (simulated a r e (a.made r w).2).isFolder (a.runFolder r.id) = true :=
    (Effect.grows_foldl_apply _ e.effects _).isFolder hs.isFolder
  -- The record is the last of the files that are kept.
  have hlast : keptFiles tools r (w.clock + 1) e =
      [(Run.standardOutput, .bytes e.output), (Run.standardError, .text (errorText e))] ++
        [(recordName, .text (r.record tools (w.clock + 1)).toJson.renderIndented)] := by
    rw [keptFiles, List.cons_append, List.singleton_append]
  have hfree := hs.free (recordName, .text (r.record tools (w.clock + 1)).toJson.renderIndented) (by
    rw [hlast]
    exact List.mem_append_right _ (List.mem_singleton_self _))
  rw [executed, hlast, keep_concat]
  refine FileTree.node?_write_self ?_ fun hf => hfree (isFolder_of_keep hf)
  rw [List.dropLast_concat]
  exact (grows_keep _ _ _).isFolder hfolder

theorem exists_node?_executed (a : Archive) (hk : name ∈ (keptFiles tools r moment e).map Prod.fst) :
    ∃ doc, ∀ w : World, w.clock + 1 = moment → Startable a tools r w e →
      (executed a tools r moment e (a.made r w).2).node? (a.runFolder r.id ++ [name]) =
        some (.file doc) := by
  obtain ⟨doc, hd⟩ := exists_node?_keep (a.runFolder r.id) hk
  obtain ⟨file, hf, rfl⟩ := List.mem_map.1 hk
  refine ⟨doc, fun w hm hs => hd _ ?_ ?_⟩
  · exact (Effect.grows_foldl_apply _ _ _).isFolder hs.isFolder
  · subst hm
    exact hs.free file hf

theorem isFile_iff_executed (tools : Tools) (e : Execution)
    (hn : (a.made r w).2.node? (a.runFolder r.id ++ [name]) = some n) :
    n.isFile = true ↔ ∃ doc, (executed a tools r (w.clock + 1) e (a.made r w).2).node?
      (a.runFolder r.id ++ [name]) = some (.file doc) := by
  obtain ⟨m, hm, hkind⟩ := grows_executed a tools r (w.clock + 1) e _ _ n hn
  rw [hm, ← hkind]
  cases m with
  | folder => simp [Node.isFile]
  | file doc => simp [Node.isFile]

/-- The record that an execution leaves need not be written and parsed to be read. -/
theorem executeAndLoad_eq (a : Archive) (tools : Tools) (r : PendingRun) (w : World) :
    executeAndLoad a tools r w = match (a.execute tools r).outcome w with
      | (.ok (), w') => a.loadBeside w'.files r.id (r.record tools (w.clock + 1)).again?
      | (.error e, _) => .error e := by
  cases ho : (a.execute tools r).outcome w with
  | mk x w' =>
    cases x with
    | error e => simp only [executeAndLoad, ho]
    | ok u =>
      obtain ⟨e, hs⟩ := exists_startable (congrArg Prod.fst ho)
      rw [executeAndLoad_of_startable hs, loadRun_of_find (find_recordPath_executed hs)]
      rw [outcome_execute_of_startable hs] at ho
      have hfiles := congrArg World.files (Prod.mk.inj ho).2
      simp only [← hfiles]

end Child

section Leftovers
variable {w : World} {fresh : Run} {e : Execution} {n : Node}

/-- The same world with nothing left in the folder of a run. -/
def cleared (a : Archive) (r : PendingRun) (w : World) : World :=
  { w with files := w.files.remove (a.runFolder r.id) }

theorem node?_cleared (a : Archive) (r : PendingRun) (w : World) (name : String) :
    (cleared a r w).files.node? (a.runFolder r.id ++ [name]) = none :=
  FileTree.node?_remove_of_below (List.prefix_append _ _) (by simp)

/-- Whether what was left of a run is overwritten: its folder can be made, a record that was left is
a file, and the other files are artifacts of the run in a fresh folder, but the folders are not. -/
structure Overwritten (a : Archive) (r : PendingRun) (w : World) (fresh : Run) : Prop where
  made : (FileTree.makeFolders (a.runPath r.id) none w.files).1 = .ok ()
  record : ∀ n, w.files.node? (a.recordFile r.id) = some n → n.isFile = true
  files : ∀ name n, name ≠ recordName →
    w.files.node? (a.runFolder r.id ++ [name]) = some n →
      (n.isFile = true ↔ ∃ text, fresh.artifact? name = some text)

theorem node?_made_of_some {q : Location} (h : w.files.node? q = some n) :
    (a.made r w).2.node? q = some n := by
  rcases FileTree.adds_makeFolders (a.runPath r.id) (w.disk w.clock) w.files q with he | ⟨-, hn, -⟩
  · exact he.trans h
  · rw [h] at hn
    cases hn

/-- What was left is in the folder when the simulation starts, and a fresh folder has at most a
folder in its place. -/
theorem outlives_made (hn : w.files.node? (a.runFolder r.id ++ [name]) = some n) :
    Outlives n ((a.made r w).2.node? (a.runFolder r.id ++ [name]))
      ((a.made r (cleared a r w)).2.node? (a.runFolder r.id ++ [name])) := by
  refine ⟨n, node?_made_of_some hn, rfl, fun m hm hkind => ?_⟩
  have hfolder : m = .folder := by
    rcases FileTree.adds_makeFolders (a.runPath r.id) (w.disk w.clock) (cleared a r w).files
      (a.runFolder r.id ++ [name]) with he | ⟨-, -, hf⟩
    · rw [node?_cleared] at he
      cases he.symm.trans hm
    · exact Option.some.inj (hm.symm.trans hf)
  subst hfolder
  exact Node.eq_folder_of_isFile hkind.symm

theorem find_made_of_fresh {path : String} {doc : Document} (hm : (a.made r w).1 = .ok ())
    (h : (a.made r (cleared a r w)).2.find path = .ok (.file doc)) :
    (a.made r w).2.find path = .ok (.file doc) := by
  obtain ⟨hne, hway, hnode⟩ := FileTree.find_eq_ok_iff.1 h
  have hadds := FileTree.adds_makeFolders (a.runPath r.id) (w.disk w.clock) (cleared a r w).files
  have hold {q : Location} {m : Node} (hq : (cleared a r w).files.node? q = some m) :
      w.files.node? q = some m := FileTree.node?_of_removePart hq
  refine FileTree.find_eq_ok_iff.2 ⟨hne, fun q hq => ?_, ?_⟩
  · have hf := hway q hq
    rw [FileTree.isFolder_iff] at hf ⊢
    rcases hadds q with he | ⟨hmem, -, -⟩
    · exact node?_made_of_some (hold (he.symm.trans hf))
    · exact FileTree.isFolder_iff.1 (isFolder_made hm q hmem)
  · exact node?_made_of_some (hold (hadds.node?_of_file hnode))

section Fresh
variable (hs : Startable a tools r (cleared a r w) e)
include hs

theorem made_of_fresh (h : (FileTree.makeFolders (a.runPath r.id) none w.files).1 = .ok ()) :
    (a.made r w).1 = .ok () := by
  have hd : w.disk w.clock = none := (FileTree.makeFolders_ok_iff.1 hs.launches.made).1
  rwa [made, hd]

theorem node?_made_eq (hm : (a.made r w).1 = .ok ())
    (hn : w.files.node? (a.runFolder r.id ++ [name]) = none) :
    (a.made r w).2.node? (a.runFolder r.id ++ [name]) =
      (a.made r (cleared a r w)).2.node? (a.runFolder r.id ++ [name]) := by
  have hfresh := FileTree.node?_makeFolders_of_ok hs.launches.made (a.runFolder r.id ++ [name])
  have hagain := FileTree.node?_makeFolders_of_ok hm (a.runFolder r.id ++ [name])
  rw [node?_cleared] at hfresh
  rw [hn] at hagain
  exact hagain.trans hfresh.symm

end Fresh

/-- A file that was left and that an execution in a fresh folder leaves too is the same. -/
theorem node?_executed_of_file (hs : Startable a tools r (cleared a r w) e)
    (hs' : Startable a tools r w e) {doc : Document}
    (hn : w.files.node? (a.runFolder r.id ++ [name]) = some n) (hf : n.isFile = true)
    (hd : (executed a tools r (w.clock + 1) e (a.made r (cleared a r w)).2).node?
      (a.runFolder r.id ++ [name]) = some (.file doc)) :
    (executed a tools r (w.clock + 1) e (a.made r w).2).node? (a.runFolder r.id ++ [name]) =
      some (.file doc) := by
  by_cases hk : name ∈ (keptFiles tools r (w.clock + 1) e).map Prod.fst
  · obtain ⟨doc', hd'⟩ := exists_node?_executed a hk
    exact (hd' w rfl hs').trans ((hd' (cleared a r w) rfl hs).symm.trans hd)
  · obtain ⟨m, hm, -, hsame⟩ :=
      (outlives_made hn).foldl_apply e.effects hs'.isFolder hs.isFolder
    rw [node?_executed_of_not_kept hk, simulated] at hd ⊢
    rw [hm, hsame (.file doc) hd hf.symm]

section Again
variable (hs : Startable a tools r (cleared a r w) e)
  (hl : a.loadRun (executed a tools r (w.clock + 1) e (a.made r (cleared a r w)).2) r.id =
    .ok fresh)
include hs hl

theorem isFile_of_overwritten (ho : Overwritten a r w fresh)
    (hk : name ∈ (keptFiles tools r (w.clock + 1) e).map Prod.fst)
    (hn : w.files.node? (a.runFolder r.id ++ [name]) = some n) : n.isFile = true := by
  by_cases hname : name = recordName
  · subst hname
    exact ho.record n hn
  · obtain ⟨doc, hd⟩ := exists_node?_executed a hk
    exact (ho.files name n hname hn).2
      ((exists_artifact?_iff hl hname).2 ⟨doc, hd (cleared a r w) rfl hs⟩)

theorem startable_of_overwritten (ho : Overwritten a r w fresh) : Startable a tools r w e := by
  have hm := made_of_fresh hs ho.made
  obtain ⟨hprogram, hnul⟩ := checkProgram_eq_ok_iff.1 hs.launches.program
  refine ⟨⟨hm, checkProgram_eq_ok_iff.2 ⟨fun path hp => ?_, hnul⟩, hs.launches.starts⟩, hs.quiet,
    fun file hf => ?_⟩
  · obtain ⟨doc, hd⟩ := hprogram path hp
    exact ⟨doc, find_made_of_fresh hm hd⟩
  have hfolder := isFolder_made hm _ (runFolder_mem_way a r.id)
  cases hn : w.files.node? (a.runFolder r.id ++ [file.1]) with
  | none =>
    have he := Effect.node?_foldl_apply_congr e.effects hfolder hs.isFolder
      (node?_made_eq hs hm hn)
    have hfree := hs.free file hf
    rw [FileTree.isFolder_iff] at hfree ⊢
    rwa [simulated, he]
  | some n =>
    have hfile := isFile_of_overwritten hs hl ho (List.mem_map_of_mem hf) hn
    obtain ⟨m, hm, hkind⟩ :=
      Effect.grows_foldl_apply (a.runFolder r.id) e.effects _ _ n (node?_made_of_some hn)
    rw [FileTree.isFolder_iff, simulated, hm]
    rintro he
    cases Option.some.inj he
    rw [hfile] at hkind
    cases hkind

theorem node?_executed_iff_of_overwritten (ho : Overwritten a r w fresh)
    (hname : name ≠ recordName) (doc : Document) :
    (executed a tools r (w.clock + 1) e (a.made r w).2).node? (a.runFolder r.id ++ [name]) =
        some (.file doc) ↔
      (executed a tools r (w.clock + 1) e (a.made r (cleared a r w)).2).node?
        (a.runFolder r.id ++ [name]) = some (.file doc) := by
  have hs' := startable_of_overwritten hs hl ho
  cases hn : w.files.node? (a.runFolder r.id ++ [name]) with
  | none =>
    have he := node?_made_eq hs hs'.launches.made hn
    by_cases hk : name ∈ (keptFiles tools r (w.clock + 1) e).map Prod.fst
    · obtain ⟨doc', hd'⟩ := exists_node?_executed a hk
      have hagain := hd' w rfl hs'
      rw [hagain, hd' (cleared a r w) rfl hs]
    · rw [node?_executed_of_not_kept hk, node?_executed_of_not_kept hk, simulated, simulated,
        Effect.node?_foldl_apply_congr _ hs'.isFolder hs.isFolder he]
  | some n =>
    have hfresh := exists_artifact?_iff hl hname
    have hagain := isFile_iff_executed tools e (node?_made_of_some hn)
    constructor
    · intro h
      have hfile := hagain.2 ⟨doc, h⟩
      obtain ⟨doc', hdoc⟩ := hfresh.1 ((ho.files name n hname hn).1 hfile)
      have he := node?_executed_of_file hs hs' hn hfile hdoc
      rw [hdoc, ← he, h]
    · intro h
      have hfile := (ho.files name n hname hn).2 (hfresh.2 ⟨doc, h⟩)
      exact node?_executed_of_file hs hs' hn hfile h

theorem exists_loadRun_of_overwritten (ho : Overwritten a r w fresh) :
    ∃ run, a.loadRun (executed a tools r (w.clock + 1) e (a.made r w).2) r.id = .ok run ∧
      run.id = fresh.id ∧ run.repetition = fresh.repetition ∧ run.params = fresh.params ∧
      ∀ name, run.artifact? name = fresh.artifact? name := by
  have hs' := startable_of_overwritten hs hl ho
  have hnode := fun name => @node?_executed_iff_of_overwritten a tools r name w fresh e hs hl ho
  obtain ⟨text, record, artifacts, ht, hr, -, rfl⟩ := loadRun_eq_ok_iff.1 hl
  -- The record is kept in both cases, whatever was left.
  obtain ⟨doc, hfind, htext⟩ := FileTree.readText_eq_ok_iff.1 ht
  obtain rfl := Node.file.inj (Except.ok.inj ((find_recordPath_executed hs).symm.trans hfind))
  have ht : (executed a tools r (w.clock + 1) e (a.made r w).2).readText (a.recordPath r.id) =
      .ok text := FileTree.readText_eq_ok_iff.2 ⟨_, find_recordPath_executed hs', htext⟩
  obtain ⟨run, hrun, hid, hrep, hparams⟩ := exists_loadRun ht hr fun name doc hname hd =>
    exists_text_of_loadRun hl hname ((hnode name hname doc).1 hd)
  refine ⟨run, hrun, hid, hrep, hparams, fun name => Option.ext fun text => ?_⟩
  rw [artifact?_of_loadRun hrun, artifact?_of_loadRun hl]
  refine and_congr_right fun hname => exists_congr fun doc => ?_
  rw [hnode name hname doc]

end Again

/-- A run that is executed again gives the artifacts of a fresh folder if and only if its folder can
be made, every file that was left is overwritten, and no folder is in the place of an artifact or of
the record. -/
theorem executeAndLoad_leftovers_iff (a : Archive) (tools : Tools) (params : Param.Assignment)
    (repetition : Nat) (w : World) (fresh : Run)
    (hf : executeAndLoad a tools (.of params repetition)
      (cleared a (.of params repetition) w) = .ok fresh) :
    (∃ run, executeAndLoad a tools (.of params repetition) w = .ok run ∧
      run.id = fresh.id ∧ run.repetition = fresh.repetition ∧ run.params = fresh.params ∧
      ∀ name, run.artifact? name = fresh.artifact? name) ↔
    Overwritten a (.of params repetition) w fresh := by
  obtain ⟨e, hs, hl⟩ := executeAndLoad_eq_ok_iff.1 hf
  constructor
  · rintro ⟨run, hrun, -, -, -, hsame⟩
    obtain ⟨e', hs', hl'⟩ := executeAndLoad_eq_ok_iff.1 hrun
    obtain rfl : e' = e :=
      Except.ok.inj (hs'.launches.starts.symm.trans hs.launches.starts)
    refine ⟨?_, fun n hn => ?_, fun name n hname hn => ?_⟩
    · obtain ⟨hd, -⟩ := FileTree.makeFolders_ok_iff.1 hs'.launches.made
      have hm := hs'.launches.made
      rwa [made, hd] at hm
    · have hk : recordName ∈ (keptFiles tools (.of params repetition) (w.clock + 1) e').map
          Prod.fst := by simp [keptFiles]
      obtain ⟨doc, hd⟩ := exists_node?_executed a hk
      exact (isFile_iff_executed tools e' (node?_made_of_some hn)).2 ⟨doc, hd w rfl hs'⟩
    · rw [isFile_iff_executed tools e' (node?_made_of_some hn), ← hsame,
        exists_artifact?_iff hl' hname]
  · intro ho
    obtain ⟨run, hrun, hsame⟩ := exists_loadRun_of_overwritten hs hl ho
    exact ⟨run, executeAndLoad_eq_ok_iff.2 ⟨e, startable_of_overwritten hs hl ho, hrun⟩, hsame⟩

end Leftovers

section Interrupted

def tracing : Tools := leaving [.write ["packetsTrace.csv"] (Text.encode "1 2")]

def onlyRun : PendingRun := .of Record.empty 0

def onlyFolder : FileTree :=
  (FileTree.makeFolders (oneScript.runPath onlyRun.id) none readyWorld.files).2

/-- An execution was interrupted that had written one file. -/
def interrupted (name text : String) : World :=
  { readyWorld with
    files := onlyFolder.writeText (oneScript.runFolder onlyRun.id ++ [name]) text }

theorem node?_interrupted {name other : String} (text : String) (h : other ≠ name) :
    (interrupted name text).files.node? (oneScript.runFolder onlyRun.id ++ [other]) = none := by
  have hempty : ∀ p ∈ onlyFolder.nodes.map Prod.fst,
      p.dropLast ≠ oneScript.runFolder onlyRun.id := by decide +kernel
  have hne : oneScript.runFolder onlyRun.id ++ [other] ≠ oneScript.runFolder onlyRun.id ++ [name] :=
    fun he => h (List.cons.inj (List.append_cancel_left he)).1
  refine (FileTree.node?_write_of_ne hne).trans ?_
  rw [FileTree.node?_eq_lookup (by simp), lookup_eq_none_iff]
  exact fun hm => hempty _ hm List.dropLast_concat

/-- A file that the simulator does not write again is an artifact of the run. -/
theorem artifacts_interrupted :
    oneScript.isDone (interrupted "spTrace.csv" "0").files onlyRun.id = false ∧
      (executeAndLoad oneScript tracing onlyRun (cleared oneScript onlyRun
        (interrupted "spTrace.csv" "0"))).toOption.map Run.artifacts =
          some [("packetsTrace.csv", "1 2"), ("stdout", ""), ("stderr", "")] ∧
      (executeAndLoad oneScript tracing onlyRun
        (interrupted "spTrace.csv" "0")).toOption.map Run.artifacts =
          some [("spTrace.csv", "0"), ("packetsTrace.csv", "1 2"), ("stdout", ""),
            ("stderr", "")] := by
  simp only [executeAndLoad_eq]
  decide +kernel

theorem overwritten_halfWritten {fresh : Run}
    (ha : fresh.artifacts = [("packetsTrace.csv", "1 2"), ("stdout", ""), ("stderr", "")]) :
    Overwritten oneScript onlyRun (interrupted "packetsTrace.csv" "1") fresh := by
  refine ⟨?_, fun n hn => ?_, fun name n hrecord hn => ?_⟩
  · refine FileTree.makeFolders_ok_iff.2 ⟨rfl, ?_⟩
    decide +kernel
  · have hne : recordName ≠ "packetsTrace.csv" := by decide
    cases (node?_interrupted "1" hne).symm.trans hn
  · by_cases hname : name = "packetsTrace.csv"
    · subst hname
      have hfile : (interrupted "packetsTrace.csv" "1").files.isFile
          (oneScript.runFolder onlyRun.id ++ ["packetsTrace.csv"]) = true := by
        decide +kernel
      obtain ⟨doc, hd⟩ := FileTree.isFile_iff.1 hfile
      cases hd.symm.trans hn
      simp [Node.isFile, Run.artifact?, ha]
    · rw [node?_interrupted "1" hname] at hn
      cases hn

theorem executeAndLoad_leftovers_halfWritten :
    ∃ fresh, executeAndLoad oneScript tracing onlyRun
        (cleared oneScript onlyRun (interrupted "packetsTrace.csv" "1")) = .ok fresh ∧
      Overwritten oneScript onlyRun (interrupted "packetsTrace.csv" "1") fresh ∧
      ∃ run, executeAndLoad oneScript tracing onlyRun (interrupted "packetsTrace.csv" "1") =
          .ok run ∧ ∀ name, run.artifact? name = fresh.artifact? name := by
  have ha : (executeAndLoad oneScript tracing onlyRun (cleared oneScript onlyRun
      (interrupted "packetsTrace.csv" "1"))).toOption.map Run.artifacts =
        some [("packetsTrace.csv", "1 2"), ("stdout", ""), ("stderr", "")] := by
    rw [executeAndLoad_eq]
    decide +kernel
  cases hf : executeAndLoad oneScript tracing onlyRun
      (cleared oneScript onlyRun (interrupted "packetsTrace.csv" "1")) with
  | error e =>
    rw [hf] at ha
    cases ha
  | ok fresh =>
    rw [hf] at ha
    have ho := overwritten_halfWritten (Option.some.inj ha)
    obtain ⟨run, hrun, -, -, -, hsame⟩ := (executeAndLoad_leftovers_iff oneScript tracing
      Record.empty 0 (interrupted "packetsTrace.csv" "1") fresh hf).2 ho
    exact ⟨fresh, rfl, ho, run, hrun, hsame⟩

end Interrupted

end Archive
end SimCampaign
