import SimCampaign.Proofs.Archive.Session
import SimCampaign.Proofs.Storage.FileTree

/-! Folders that are made and files that are written one after another: when all of it succeeds, and
what is found in the end. -/

namespace SimCampaign
open FileTree (Grows)

inductive Operation where
  | makeFolders (path : String)
  | write (folder name : String) (doc : Document)

namespace Operation
variable {o : Operation} {ops : List Operation} {w w' : World} {t : FileTree}
  {fault? : Option Fault} {folder name path : String} {made : List String} {doc : Document}

def change : Operation → Change
  | .makeFolders path => FileTree.makeFolders path
  | .write folder name doc => FileTree.writeFile (Path.join folder name) doc

def way : Operation → List Location
  | .makeFolders path => Path.way path
  | .write .. => []

def place? : Operation → Option Location
  | .makeFolders _ => none
  | .write folder name _ => some (Path.resolve (Path.join folder name))

def perform (ops : List Operation) : Session IoError Unit :=
  ops.forM fun o => Session.operate o.change

def after (w : World) (o : Operation) : World :=
  { w with files := (o.change (w.disk w.clock) w.files).2, clock := w.clock + 1 }

theorem outcome_perform_cons (o : Operation) (ops : List Operation) (w : World) :
    (perform (o :: ops)).outcome w = match (o.change (w.disk w.clock) w.files).1 with
      | .ok () => (perform ops).outcome (after w o)
      | .error e => (.error e, after w o) := by
  have ho : (Session.operate o.change).outcome w =
      ((o.change (w.disk w.clock) w.files).1, after w o) := Session.outcome_operate o.change
  rw [perform, List.forM_eq_forM, List.forM_cons]
  cases hx : (o.change (w.disk w.clock) w.files).1 with
  | ok u => exact Session.outcome_bind_of_ok (hx ▸ ho)
  | error e => exact Session.outcome_bind_of_error (hx ▸ ho)

theorem perform_cons_eq_ok (h : (perform (o :: ops)).outcome w = (.ok (), w')) :
    (o.change (w.disk w.clock) w.files).1 = .ok () ∧
      (perform ops).outcome (after w o) = (.ok (), w') := by
  rw [outcome_perform_cons] at h
  split at h
  next hx => exact ⟨hx, h⟩
  next => cases h

section Found

theorem grows_change (o : Operation) (fault? : Option Fault) (t : FileTree) :
    Grows t (o.change fault? t).2 := by
  cases o with
  | makeFolders path => exact (FileTree.adds_makeFolders path fault? t).grows
  | write folder name doc => exact FileTree.grows_writeFile _ doc fault? t

theorem find_change (hf : t.find path = .ok (.file doc))
    (ho : o.place? ≠ some (Path.resolve path)) :
    (o.change fault? t).2.find path = .ok (.file doc) := by
  obtain ⟨hne, hway, hn⟩ := FileTree.find_eq_ok_iff.1 hf
  have hg := grows_change o fault? t
  refine FileTree.find_eq_ok_iff.2 ⟨hne, fun q hq => hg.isFolder (hway q hq), ?_⟩
  cases o with
  | makeFolders made =>
    rcases FileTree.adds_makeFolders made fault? t (Path.resolve path) with h | ⟨-, hnone, -⟩
    · exact h.trans hn
    · rw [hn] at hnone
      cases hnone
  | write folder name other =>
    have hq : Path.resolve path ≠ Path.resolve (Path.join folder name) :=
      fun he => ho (congrArg some he.symm)
    exact (FileTree.node?_writeFile_of_ne hq).trans hn

theorem find_perform (h : (perform ops).outcome w = (.ok (), w'))
    (hf : w.files.find path = .ok (.file doc))
    (hfree : Path.resolve path ∉ ops.filterMap place?) :
    w'.files.find path = .ok (.file doc) := by
  induction ops generalizing w with
  | nil =>
    cases h
    exact hf
  | cons o ops ih =>
    obtain ⟨-, h⟩ := perform_cons_eq_ok h
    refine ih h (find_change hf fun ho => hfree ?_) fun hm => hfree ?_
    · exact List.mem_filterMap.2 ⟨o, List.mem_cons_self .., ho⟩
    · obtain ⟨o', ho', hp⟩ := List.mem_filterMap.1 hm
      exact List.mem_filterMap.2 ⟨o', List.mem_cons_of_mem _ ho', hp⟩

/-- No two files are written at one place, so what is written is found in the end. -/
theorem find_of_perform (h : (perform ops).outcome w = (.ok (), w'))
    (hd : (ops.filterMap place?).Nodup) (hm : .write folder name doc ∈ ops)
    (hn : Path.Plain name) : w'.files.find (Path.join folder name) = .ok (.file doc) := by
  induction ops generalizing w with
  | nil => cases hm
  | cons o ops ih =>
    obtain ⟨ho, h⟩ := perform_cons_eq_ok h
    rcases List.mem_cons.1 hm with rfl | hm
    · exact find_perform h (FileTree.find_of_writeFile hn ho) (List.nodup_cons.1 hd).1
    · refine ih h (hd.sublist ?_) hm
      exact (List.sublist_cons_self o ops).filterMap place?

end Found

section Success

/-- Whether a folder is made before a file is written into it. -/
def Ready : List String → List Operation → Prop
  | _, [] => True
  | made, .makeFolders path :: ops => Ready (path :: made) ops
  | made, .write folder name _ :: ops => folder ∈ made ∧ Path.Plain name ∧ Ready made ops

/-- No file is where a folder is to be, now or later, and no folder where a file is to be. -/
structure Unblocked (t : FileTree) (ops : List Operation) : Prop where
  ways : ∀ o ∈ ops, ∀ q ∈ o.way, ¬ t.isFile q = true
  places : ∀ o ∈ ops, ∀ p ∈ o.place?, ¬ t.isFolder p = true
  apart : ∀ o ∈ ops, ∀ o' ∈ ops, ∀ p ∈ o.place?, p ∉ o'.way

theorem isFile_of_change {q : Location} (h : (o.change fault? t).2.isFile q = true)
    (hq : o.place? ≠ some q) : t.isFile q = true := by
  cases o with
  | makeFolders path =>
    obtain ⟨doc, hd⟩ := FileTree.isFile_iff.1 h
    exact FileTree.isFile_iff.2 ⟨doc, (FileTree.adds_makeFolders path fault? t).node?_of_file hd⟩
  | write folder name doc =>
    have hne : q ≠ Path.resolve (Path.join folder name) := fun he => hq (congrArg some he.symm)
    rw [FileTree.isFile_iff] at h ⊢
    rwa [change, FileTree.node?_writeFile_of_ne hne] at h

theorem isFolder_of_change {p : Location} (ho : (o.change fault? t).1 = .ok ())
    (h : (o.change fault? t).2.isFolder p = true) (hp : p ∉ o.way) : t.isFolder p = true := by
  cases o with
  | makeFolders path =>
    rwa [FileTree.isFolder_iff, change,
      (FileTree.adds_makeFolders path fault? t).node?_of_not_mem hp,
      ← FileTree.isFolder_iff] at h
  | write folder name doc =>
    rw [change, FileTree.writeFile_of_ok ho] at h
    exact FileTree.isFolder_of_write h

theorem Unblocked.after (h : Unblocked t (o :: ops)) (ho : (o.change fault? t).1 = .ok ()) :
    Unblocked (o.change fault? t).2 ops where
  ways o' ho' q hq hf := by
    refine h.ways o' (List.mem_cons_of_mem _ ho') q hq (isFile_of_change hf fun hp => ?_)
    exact h.apart o (List.mem_cons_self ..) o' (List.mem_cons_of_mem _ ho') q hp hq
  places o' ho' p hp hf := by
    refine h.places o' (List.mem_cons_of_mem _ ho') p hp (isFolder_of_change ho hf ?_)
    exact h.apart o' (List.mem_cons_of_mem _ ho') o (List.mem_cons_self ..) p hp
  apart o' ho' o'' ho'' :=
    h.apart o' (List.mem_cons_of_mem _ ho') o'' (List.mem_cons_of_mem _ ho'')

theorem perform_ok (hd : ∀ m, w.clock ≤ m → w.disk m = none) (hb : Unblocked w.files ops)
    (hr : Ready made ops) (hm : ∀ folder ∈ made, ∀ q ∈ Path.way folder, w.files.isFolder q = true) :
    ((perform ops).outcome w).1 = .ok () := by
  induction ops generalizing w made with
  | nil => rfl
  | cons o ops ih =>
    have hfault := hd w.clock (le_refl _)
    have hself : o ∈ o :: ops := List.mem_cons_self ..
    have hkept (folder) (hf : folder ∈ made) : ∀ q ∈ Path.way folder,
        (after w o).files.isFolder q = true :=
      fun q hq => (grows_change o _ w.files).isFolder (hm folder hf q hq)
    suffices hstep : (o.change (w.disk w.clock) w.files).1 = .ok () ∧ ∃ made', Ready made' ops ∧
        ∀ folder ∈ made', ∀ q ∈ Path.way folder, (after w o).files.isFolder q = true by
      obtain ⟨ho, made', hr', hm'⟩ := hstep
      rw [outcome_perform_cons, ho]
      exact ih (fun m hl => hd m (Nat.le_of_succ_le hl)) (hb.after ho) hr' hm'
    cases o with
    | makeFolders path =>
      have ho : (FileTree.makeFolders path (w.disk w.clock) w.files).1 = .ok () :=
        FileTree.makeFolders_ok_iff.2 ⟨hfault, hb.ways _ hself⟩
      refine ⟨ho, path :: made, hr, List.forall_mem_cons.2 ⟨fun q hq => ?_, hkept⟩⟩
      rw [FileTree.isFolder_iff]
      exact (FileTree.node?_makeFolders_of_ok ho q).trans (if_pos hq)
    | write folder name doc =>
      obtain ⟨hf, hn, hr⟩ := hr
      have hplace := hb.places _ hself _ rfl
      refine ⟨FileTree.writeFile_ok_iff.2 ⟨fun q hq => hm folder hf q ?_, hfault, hplace⟩, made, hr,
        hkept⟩
      exact (Path.mem_dropLast_way_join folder hn).1 hq

end Success

end Operation
end SimCampaign
