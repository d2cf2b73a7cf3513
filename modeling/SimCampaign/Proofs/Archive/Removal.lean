import SimCampaign.Proofs.Archive.History

/-! Runs that are deleted are missing again, and all else stays. A deletion that fails changes nothing
but the folders of these runs. -/

namespace SimCampaign.Archive
open Param (Space)

variable {a : Archive} {tools : Tools} {w w' : World} {t t' : FileTree} {x : Except Error Unit}
  {q : Location} {id : String} {ids : List String} {space : Space} {runs : Nat}

section Outside

theorem runFolder_eq_directory (hi : Path.Plain id) :
    a.runFolder id = Path.resolve a.directory ++ ["data", id] := by
  rw [runFolder_eq hi, runsFolder, Path.resolve_join_plain _ plain_data, List.append_assoc]
  rfl

theorem plain_ownerName : Path.Plain "campaign.json" :=
  ⟨by decide, by decide, by decide, by decide⟩

theorem ownerFile_eq (a : Archive) : a.ownerFile = Path.resolve a.directory ++ ["campaign.json"] :=
  Path.resolve_join_plain _ plain_ownerName

/-- The file of the owner lies beside the folder of the runs. -/
theorem not_runFolder_above_ownerFile (hi : Path.Plain id) : ¬ a.runFolder id <+: a.ownerFile := by
  rw [runFolder_eq_directory hi, ownerFile_eq, List.prefix_append_right_inj]
  rintro ⟨rest, hr⟩
  exact absurd (List.cons.inj hr).1 (by decide)

theorem not_ownerFile_above_runsFolder (a : Archive) :
    ¬ a.ownerFile <+: Path.resolve a.runsFolder := by
  rw [runsFolder, Path.resolve_join_plain _ plain_data, ownerFile_eq, List.prefix_append_right_inj]
  rintro ⟨rest, hr⟩
  exact absurd (List.cons.inj hr).1 (by decide)

theorem Within.node?_ownerFile (h : Within a ids t t') (hs : Settled a t)
    (hp : ∀ id ∈ ids, Path.Plain id) : t'.node? a.ownerFile = t.node? a.ownerFile := by
  refine (h a.ownerFile fun id hid => not_runFolder_above_ownerFile (hp id hid)).resolve_right ?_
  rintro ⟨⟨id, hid, hway⟩, hn, -⟩
  rcases (mem_way_runPath (hp id hid)).1 hway with hway | he
  · rcases hs _ hway with hle | hf
    · exact not_ownerFile_above_runsFolder a hle
    · rw [FileTree.isFolder_iff, hn] at hf
      cases hf
  · refine not_runFolder_above_ownerFile (a := a) (hp id hid) ?_
    rw [he]

theorem node?_ownerFile_runMissing (hs : Settled a w.files)
    (h : (a.runMissing tools space runs).outcome w = (x, w')) :
    w'.files.node? a.ownerFile = w.files.node? a.ownerFile :=
  (within_runMissing h).node?_ownerFile hs
    (List.forall_mem_map.2 fun _ hr => plain_id_of_mem_missingRuns hr)

end Outside

section Direct

/-- Whether the path to the folder of the runs leads through none of them. -/
def Direct (a : Archive) : Prop :=
  ∀ id, Path.Plain id → ∀ q ∈ Path.way a.runsFolder, ¬ a.runFolder id <+: q

theorem direct_of_plain (h : ".." ∉ Path.pieces a.directory) : Direct a := by
  intro id hi q hq hp
  have hle : q <+: Path.resolve a.runsFolder := by
    rcases (Path.mem_way_join _ plain_data).1 hq with hq | rfl
    · rw [runsFolder, Path.resolve_join_plain _ plain_data]
      exact (Path.prefix_resolve h hq).trans (List.prefix_append _ _)
    · rw [runsFolder, Path.resolve_join_plain _ plain_data]
  have hl := (hp.trans hle).length_le
  rw [runFolder_eq hi, List.length_append, List.length_singleton] at hl
  omega

theorem Direct.not_above (h : Direct a) {j : String} (hi : Path.Plain id) (hj : Path.Plain j)
    (hne : id ≠ j) (hq : q ∈ Path.way (a.runPath j)) : ¬ a.runFolder id <+: q := by
  rcases (mem_way_runPath hj).1 hq with hq | rfl
  · exact h id hi q hq
  · rw [← List.append_nil (a.runFolder j)]
    exact not_runFolder_above hi hj hne []

end Direct

section Removed

def removed (a : Archive) (ids : List String) (t : FileTree) : FileTree :=
  ids.foldl (fun t id => t.remove (a.runFolder id)) t

theorem node?_removed_of_outside (h : ∀ id ∈ ids, ¬ a.runFolder id <+: q) :
    (removed a ids t).node? q = t.node? q := by
  induction ids generalizing t with
  | nil => rfl
  | cons id ids ih =>
    have hid := FileTree.node?_remove_of_outside (t := t) (h id (List.mem_cons_self ..))
    exact (ih fun j hj => h j (List.mem_cons_of_mem _ hj)).trans hid

theorem node?_of_removed {n : Node} (h : (removed a ids t).node? q = some n) :
    t.node? q = some n := by
  induction ids generalizing t with
  | nil => exact h
  | cons id ids ih => exact FileTree.node?_of_removePart (ih h)

theorem node?_removed_of_not_mem (hp : ∀ id ∈ ids, Path.Plain id) (hi : Path.Plain id)
    (hn : id ∉ ids) (p : Location) :
    (removed a ids t).node? (a.runFolder id ++ p) = t.node? (a.runFolder id ++ p) := by
  refine node?_removed_of_outside fun j hj => not_runFolder_above (hp j hj) hi ?_ p
  rintro rfl
  exact hn hj

theorem node?_removed_of_below (hi : Path.Plain id) (h : id ∈ ids) (p : Location) :
    (removed a ids t).node? (a.runFolder id ++ p) = none := by
  induction ids generalizing t with
  | nil => cases h
  | cons j ids ih =>
    rcases List.mem_cons.1 h with rfl | h
    · -- What is removed later does not bring anything back.
      cases hr : (removed a (id :: ids) t).node? (a.runFolder id ++ p) with
      | none => rfl
      | some n =>
        have hne : a.runFolder id ++ p ≠ [] := by simp [runFolder_eq hi]
        have hbelow := FileTree.node?_remove_of_below (t := t) (List.prefix_append _ _) hne
        exact (node?_of_removed (t := t.remove (a.runFolder id)) hr).symm.trans hbelow
    · exact ih h

theorem isDone_removed_of_mem (hi : Path.Plain id) (h : id ∈ ids) :
    a.isDone (removed a ids t) id = false := by
  rw [Bool.eq_false_iff]
  intro hd
  obtain ⟨n, hr⟩ := FileTree.exists?_iff.1 (isDone_iff.1 hd).2
  rw [recordFile, node?_removed_of_below hi h] at hr
  cases hr

section Kept
variable (hd : Direct a) (hp : ∀ id ∈ ids, Path.Plain id)
include hd hp

theorem isDone_removed_of_not_mem (hi : Path.Plain id) (hn : id ∉ ids) :
    a.isDone (removed a ids t) id = a.isDone t id := by
  have hne : ∀ j ∈ ids, j ≠ id := fun j hj he => hn (he ▸ hj)
  have hway : (∀ q ∈ Path.way (a.runPath id), (removed a ids t).isFolder q = true) ↔
      ∀ q ∈ Path.way (a.runPath id), t.isFolder q = true := by
    refine forall₂_congr fun q hq => ?_
    rw [FileTree.isFolder_iff, FileTree.isFolder_iff,
      node?_removed_of_outside fun j hj => hd.not_above (hp j hj) hi (hne j hj) hq]
  rw [Bool.eq_iff_iff, isDone_iff, isDone_iff, hway, FileTree.exists?, recordFile,
    node?_removed_of_not_mem hp hi hn]
  rfl

theorem Settled.removed (hs : Settled a t) : Settled a (removed a ids t) := by
  intro q hq
  refine (hs q hq).imp_right fun hf => ?_
  rwa [FileTree.isFolder_iff, node?_removed_of_outside fun j hj => hd j (hp j hj) q hq,
    ← FileTree.isFolder_iff]

theorem missingRuns_removed (hdone : ∀ r ∈ allRuns space runs, a.isDone t r.id = true) :
    a.missingRuns (Archive.removed a ids t) space runs =
      (allRuns space runs).filter fun r => decide (r.id ∈ ids) := by
  refine List.filter_congr fun r hr => ?_
  by_cases hm : r.id ∈ ids
  · rw [isDone_removed_of_mem (plain_id_of_mem_allRuns hr) hm, decide_eq_true hm]
    rfl
  · rw [isDone_removed_of_not_mem hd hp (plain_id_of_mem_allRuns hr) hm, hdone r hr,
      decide_eq_false hm]
    rfl

end Kept

end Removed

section Deletion

/-- What the deletion of runs does, whether or not it fails: it takes away parts of their folders, and
starts nothing. -/
structure Clears (a : Archive) (ids : List String) (w w' : World) : Prop where
  node?_or : ∀ q, w'.files.node? q = w.files.node? q ∨
    (∃ id ∈ ids, a.runFolder id <+: q) ∧ w'.files.node? q = none
  started : w'.started = w.started
  disk : w'.disk = w.disk
  clock : w.clock ≤ w'.clock

theorem Clears.refl (a : Archive) (ids : List String) (w : World) : Clears a ids w w :=
  ⟨fun _ => .inl rfl, rfl, rfl, Nat.le_refl _⟩

theorem Clears.trans {w'' : World} {more ids' : List String} (h : Clears a ids w w')
    (h' : Clears a more w' w'') (hm : ∀ id ∈ ids ++ more, id ∈ ids') : Clears a ids' w w'' where
  node?_or q := by
    rcases h'.node?_or q with he | ⟨⟨id, hid, hp⟩, hn⟩
    · rw [he]
      refine (h.node?_or q).imp_right fun ⟨⟨id, hid, hp⟩, hn⟩ => ⟨⟨id, hm id ?_, hp⟩, hn⟩
      exact List.mem_append_left _ hid
    · exact .inr ⟨⟨id, hm id (List.mem_append_right _ hid), hp⟩, hn⟩
  started := h'.started.trans h.started
  disk := h'.disk.trans h.disk
  clock := h.clock.trans h'.clock

theorem Clears.node?_of_outside (h : Clears a ids w w') (hq : ∀ id ∈ ids, ¬ a.runFolder id <+: q) :
    w'.files.node? q = w.files.node? q := by
  refine (h.node?_or q).resolve_right ?_
  rintro ⟨⟨id, hid, hp⟩, -⟩
  exact hq id hid hp

theorem outcome_removeRun_of_none (h : w.files.finds (a.runPath id) = false) :
    (a.removeRun id).outcome w = (.ok (), w) := by
  rw [removeRun, Session.outcome_files_bind, h, if_neg Bool.false_ne_true, Session.outcome_pure]

theorem outcome_removeRun_of_finds (h : w.files.finds (a.runPath id) = true) :
    (a.removeRun id).outcome w =
      ((FileTree.removeFolder (a.runPath id) (w.disk w.clock) w.files).1.mapError .io,
        { w with
          files := (FileTree.removeFolder (a.runPath id) (w.disk w.clock) w.files).2
          clock := w.clock + 1
          log := w.log ++ [.info ("Removing run " ++ id)] }) := by
  rw [removeRun, Session.outcome_files_bind, if_pos h, Session.outcome_log_bind, outcome_operate]

theorem clears_removeRun (a : Archive) (id : String) (w : World) :
    Clears a [id] w ((a.removeRun id).outcome w).2 := by
  cases h : w.files.finds (a.runPath id) with
  | false =>
    rw [outcome_removeRun_of_none h]
    exact .refl a _ w
  | true =>
    rw [outcome_removeRun_of_finds h]
    refine ⟨fun q => ?_, rfl, rfl, Nat.le_succ _⟩
    refine (FileTree.node?_removeFolder_or _ _ _ q).imp_right fun ⟨hp, hn⟩ => ⟨⟨id, ?_, hp⟩, hn⟩
    exact List.mem_singleton_self id

theorem clears_removeRuns (a : Archive) (ids : List String) (w : World) :
    Clears a ids w ((a.removeRuns ids).outcome w).2 := by
  induction ids generalizing w with
  | nil => exact .refl a [] w
  | cons id ids ih =>
    have hid := clears_removeRun a id w
    cases ho : (a.removeRun id).outcome w with
    | mk x w₁ =>
      rw [ho] at hid
      cases x with
      | error e =>
        have hs : (a.removeRuns (id :: ids)).outcome w = (.error e, w₁) :=
          Session.outcome_bind_of_error ho
        rw [hs]
        exact hid.trans (.refl a [] w₁) (by simp)
      | ok u =>
        have hs : (a.removeRuns (id :: ids)).outcome w = (a.removeRuns ids).outcome w₁ :=
          Session.outcome_bind_of_ok ho
        rw [hs]
        exact hid.trans (ih w₁) (by simp)

theorem find_runPath_of_isDone (hi : Path.Plain id) (h : a.isDone t id = true) :
    t.find (a.runPath id) = .ok .folder := by
  obtain ⟨hway, -⟩ := isDone_iff.1 h
  refine FileTree.find_eq_ok_iff.2 ⟨FileTree.join_ne_empty _ hi, fun q hq => ?_, ?_⟩
  · exact hway q (List.dropLast_subset _ hq)
  · exact FileTree.isFolder_iff.1 (hway _ (runFolder_mem_way a id))

section Done
variable (hd : Direct a)
include hd

/-- The folder of a run that is done is deleted as a whole unless a fault of the disk stops it. -/
theorem outcome_removeRun_of_isDone (hi : Path.Plain id) (h : a.isDone w.files id = true) :
    (∃ e w', (a.removeRun id).outcome w = (.error e, w') ∧ w.disk w.clock ≠ none) ∨
      (a.removeRun id).outcome w = (.ok (),
        { w with
          files := w.files.remove (a.runFolder id)
          clock := w.clock + 1
          log := w.log ++ [.info ("Removing run " ++ id)] }) := by
  have hfind := find_runPath_of_isDone hi h
  have ho := outcome_removeRun_of_finds (FileTree.finds_iff.2 ⟨_, hfind⟩)
  cases hdisk : w.disk w.clock with
  | none =>
    rw [hdisk, FileTree.removeFolder_eq hfind (FileTree.unremovable?_join _ hi)] at ho
    · exact .inr ho
    · intro q hq hp
      exact absurd hp (hd id hi q ((Path.mem_dropLast_way_join _ hi).1 hq))
  | some f =>
    rw [hdisk] at ho
    have hfault : (FileTree.removeFolder (a.runPath id) (some f) w.files).1 = .error f.cause := by
      rw [FileTree.removeFolder, hfind]
    rw [hfault] at ho
    exact .inl ⟨_, _, ho, by rintro ⟨⟩⟩

theorem outcome_removeRuns_of_isDone (hp : ∀ id ∈ ids, Path.Plain id) (hn : ids.Nodup)
    (h : ∀ id ∈ ids, a.isDone w.files id = true) :
    (∃ e w', (a.removeRuns ids).outcome w = (.error e, w') ∧
        ∃ moment ≥ w.clock, w.disk moment ≠ none) ∨
      ∃ clock ≥ w.clock, ∃ log, (a.removeRuns ids).outcome w =
        (.ok (), { w with files := removed a ids w.files, clock, log }) := by
  induction ids generalizing w with
  | nil => exact .inr ⟨w.clock, Nat.le_refl _, w.log, rfl⟩
  | cons id ids ih =>
    obtain ⟨hnot, hn⟩ := List.nodup_cons.1 hn
    have hi := hp id (List.mem_cons_self ..)
    have hps : ∀ j ∈ ids, Path.Plain j := fun j hj => hp j (List.mem_cons_of_mem _ hj)
    rcases outcome_removeRun_of_isDone hd hi (h id (List.mem_cons_self ..)) with
      ⟨e, w', ho, hdisk⟩ | ho
    · exact .inl ⟨e, w', Session.outcome_bind_of_error ho, w.clock, Nat.le_refl _, hdisk⟩
    have hs : (a.removeRuns (id :: ids)).outcome w = (a.removeRuns ids).outcome _ :=
      Session.outcome_bind_of_ok ho
    rw [hs]
    -- The ids differ, so the runs still to be deleted are there.
    have hrest : ∀ j ∈ ids, a.isDone (removed a [id] w.files) j = true := by
      intro j hj
      rw [isDone_removed_of_not_mem hd (by simpa using hi) (hps j hj), h j (List.mem_cons_of_mem _ hj)]
      rw [List.mem_singleton]
      rintro rfl
      exact hnot hj
    rcases ih (w := { w with
        files := w.files.remove (a.runFolder id)
        clock := w.clock + 1
        log := w.log ++ [.info ("Removing run " ++ id)] }) hps hn hrest with
      ⟨e, w', ho, moment, hm, hdisk⟩ | ⟨clock, hc, log, ho⟩
    · exact .inl ⟨e, w', ho, moment, (Nat.le_succ _).trans hm, hdisk⟩
    · exact .inr ⟨clock, (Nat.le_succ _).trans hc, log, ho⟩

end Done

end Deletion

end SimCampaign.Archive
