import SimCampaign.Proofs.Archive.Metadata
import SimCampaign.Proofs.Archive.Removal

/-! Who a directory belongs to. Taking hold of it leaves the files alone, adds to them, or clears the
directory first, and the last only if it belongs to another script or tree and may be overwritten. -/

namespace SimCampaign.Archive

namespace Owner
variable {o : Owner}

theorem read?_renderIndented (h : Timestamp.isValid o.created = true) :
    read? o.toJson.renderIndented = some o := by
  have hr : Json.reread? o.toJson = some o.toJson := by
    simp [toJson, Json.reread?, Json.rereadFields?]
  have hp : Json.parseMembers? memberNames o.toJson.renderIndented = some o.toJson :=
    (Json.parseMembers?_renderIndented (by simp [memberNames])
      (by simp [Json.nesting, Json.nestingFields, Json.maxDepth])).trans hr
  have hm : Json.members? memberNames o.toJson =
      some [.string o.tree, .string o.script, .string o.created] := rfl
  rw [read?, hp, Option.bind_some, ofJson?, hm]
  exact if_pos h

end Owner

variable {a b c : Archive} {tools : Tools} {o : Owner} {e : Error} {t t' : FileTree}
  {w w' : World} {x : Except Error Unit} {p : Location} {n : Node} {id : String}

section Owners

/-- Archives of one script and one tree, however the path of the tree is written. A path that is not
text is never the same as another one. -/
structure SameOwner (a b : Archive) : Prop where
  script : a.script = b.script
  tree : ∃ s s', a.treeText? = some s ∧ b.treeText? = some s' ∧
    Path.components s = Path.components s'

theorem SameOwner.symm (h : SameOwner a b) : SameOwner b a := by
  obtain ⟨hs, s, s', ha, hb, he⟩ := h
  exact ⟨hs.symm, s', s, hb, ha, he.symm⟩

theorem SameOwner.trans (h : SameOwner a b) (h' : SameOwner b c) : SameOwner a c := by
  obtain ⟨hs, s, s₁, ha, hb, he⟩ := h
  obtain ⟨hs', s₂, s', hb', hc, he'⟩ := h'
  obtain rfl := Option.some.inj (hb.symm.trans hb')
  exact ⟨hs.trans hs', s, s', ha, hc, he.trans he'⟩

theorem isOwnedBy_iff : a.isOwnedBy o = true ↔ o.script = a.script ∧
    ∃ s, a.treeText? = some s ∧ Path.components o.tree = Path.components s := by
  rw [isOwnedBy, Bool.and_eq_true, beq_iff_eq]
  refine and_congr_right fun _ => ?_
  cases a.treeText? <;> simp [Path.same]

theorem sameOwner_of_isOwnedBy (ha : a.isOwnedBy o = true) (hb : b.isOwnedBy o = true) :
    SameOwner a b := by
  obtain ⟨hs, s, hs₁, he⟩ := isOwnedBy_iff.1 ha
  obtain ⟨hs', s', hs₂, he'⟩ := isOwnedBy_iff.1 hb
  exact ⟨hs.symm.trans hs', s, s', hs₁, hs₂, he.symm.trans he'⟩

/-- Whether a file records an owner. -/
def Names (t : FileTree) (p : Location) (o : Owner) : Prop :=
  ∃ doc text, t.node? p = some (.file doc) ∧ FileTree.documentText doc = .ok text ∧
    Owner.read? text = some o

theorem Names.congr (h : Names t p o) (hn : t'.node? p = t.node? p) : Names t' p o := by
  obtain ⟨doc, text, hd, ht, hr⟩ := h
  exact ⟨doc, text, hn.trans hd, ht, hr⟩

theorem Names.isFile (h : Names t p o) : t.isFile p = true := by
  obtain ⟨doc, -, hd, -⟩ := h
  exact FileTree.isFile_iff.2 ⟨doc, hd⟩

theorem Names.unique {o' : Owner} (h : Names t p o) (h' : Names t p o') : o = o' := by
  obtain ⟨doc, text, hd, ht, hr⟩ := h
  obtain ⟨doc', text', hd', ht', hr'⟩ := h'
  cases hd.symm.trans hd'
  cases ht.symm.trans ht'
  exact Option.some.inj (hr.symm.trans hr')

theorem readOwner_eq_ok_iff : a.readOwner t = .ok o ↔
    (∀ q ∈ Path.way a.directory, t.isFolder q = true) ∧ Names t a.ownerFile o := by
  have hfind {doc : Document} : t.find a.ownerPath = .ok (.file doc) ↔
      (∀ q ∈ Path.way a.directory, t.isFolder q = true) ∧
        t.node? a.ownerFile = some (.file doc) := by
    rw [ownerPath, FileTree.find_join_eq_ok_iff plain_ownerName, ownerFile_eq]
  rw [readOwner, bind_eq_ok_iff]
  constructor
  · rintro ⟨text, ht, ho⟩
    obtain ⟨doc, hd, htext⟩ := FileTree.readText_eq_ok_iff.1 (mapError_eq_ok_iff.1 ht)
    obtain ⟨hway, hn⟩ := hfind.1 hd
    refine ⟨hway, doc, text, hn, htext, ?_⟩
    cases hr : Owner.read? text with
    | none => simp [hr] at ho
    | some o' =>
      rw [hr] at ho
      exact congrArg some (Except.ok.inj ho)
  · rintro ⟨hway, doc, text, hn, htext, hr⟩
    refine ⟨text, mapError_eq_ok_iff.2 (FileTree.readText_eq_ok_iff.2 ⟨doc, ?_, htext⟩), ?_⟩
    · exact hfind.2 ⟨hway, hn⟩
    · rw [hr]

theorem readOwner_of_error (h : a.readOwner t = .error e) :
    e = .malformed ∨ ∃ cause, e = .io cause := by
  rw [readOwner] at h
  cases ht : t.readText a.ownerPath with
  | error cause =>
    rw [ht] at h
    exact .inr ⟨cause, (Except.error.inj h).symm⟩
  | ok text =>
    rw [ht] at h
    cases hr : Owner.read? text with
    | none =>
      simp only [Except.mapError, bind, Except.bind, hr] at h
      exact .inl (Except.error.inj h).symm
    | some o => simp [Except.mapError, bind, Except.bind, hr] at h

/-- The owner that is recorded in the directory is that of the archive. -/
def BelongsTo (a : Archive) (t : FileTree) : Prop :=
  ∃ o, a.readOwner t = .ok o ∧ a.isOwnedBy o = true

theorem finds_ownerPath_iff : t.finds a.ownerPath = true ↔
    (∀ q ∈ Path.way a.directory, t.isFolder q = true) ∧ t.exists? a.ownerFile = true := by
  rw [FileTree.finds_iff, FileTree.exists?_iff, ownerFile_eq]
  simp only [ownerPath, FileTree.find_join_eq_ok_iff plain_ownerName]
  exact exists_and_left

theorem finds_of_readOwner (h : a.readOwner t = .ok o) : t.finds a.ownerPath = true := by
  obtain ⟨hway, hn⟩ := readOwner_eq_ok_iff.1 h
  exact finds_ownerPath_iff.2 ⟨hway, FileTree.exists?_of_isFile hn.isFile⟩

theorem settled_of_way (h : ∀ q ∈ Path.way a.directory, t.isFolder q = true) : Settled a t := by
  intro q hq
  rcases (Path.mem_way_join _ plain_data).1 hq with hq | rfl
  · exact .inr (h q hq)
  · rw [runsFolder, Path.resolve_join_plain _ plain_data]
    exact .inl (List.prefix_refl _)

end Owners

section Claim

/-- What a directory holds after it was claimed: what was there, the owner, and the folders that lead
to the runs. -/
structure Claimed (a : Archive) (tools : Tools) (t t' : FileTree) : Prop where
  owner : ∃ tree moment, a.treeText? = some tree ∧
    a.readOwner t' = .ok { tree, script := a.script, created := tools.now moment }
  kept : ∀ p n, p ≠ a.ownerFile → t.node? p = some n → t'.node? p = some n
  added : ∀ p n, p ≠ a.ownerFile → t.node? p = none → t'.node? p = some n →
    n = .folder ∧ p ∈ Path.way a.runsFolder

theorem Claimed.belongsTo (h : Claimed a tools t t') : a.BelongsTo t' := by
  obtain ⟨tree, moment, htree, ho⟩ := h.owner
  exact ⟨_, ho, isOwnedBy_iff.2 ⟨rfl, tree, htree, rfl⟩⟩

theorem way_directory_subset {q : Location} (h : q ∈ Path.way a.directory) :
    q ∈ Path.way a.runsFolder := (Path.mem_way_join _ plain_data).2 (.inl h)

section Written
variable {tree : String} {moment : Nat} {fault? : Option Fault} {made : FileTree}

theorem claimed_of_writeFile (hnow : Timestamp.isValid (tools.now moment) = true)
    (htree : a.treeText? = some tree) {o : Owner}
    (ho : o = { tree, script := a.script, created := tools.now moment })
    (hadds : FileTree.Adds (Path.way a.runsFolder) t made)
    (hway : ∀ q ∈ Path.way a.runsFolder, made.isFolder q = true)
    (hw : (FileTree.writeFile a.ownerPath (.text o.toJson.renderIndented) fault? made).1 = .ok ()) :
    Claimed a tools t
      (FileTree.writeFile a.ownerPath (.text o.toJson.renderIndented) fault? made).2 := by
  subst ho
  refine ⟨?_, ?_, ?_⟩
  · refine ⟨tree, moment, htree, readOwner_eq_ok_iff.2 ⟨fun q hq => ?_, ?_⟩⟩
    · exact (FileTree.grows_writeFile _ _ _ _).isFolder (hway q (way_directory_subset hq))
    · have hfound := (FileTree.find_join_eq_ok_iff plain_ownerName).1
        (FileTree.find_of_writeFile plain_ownerName hw)
      exact ⟨_, _, ownerFile_eq a ▸ hfound.2, FileTree.documentText_text _,
        Owner.read?_renderIndented hnow⟩
  · intro p n hp hn
    have hsame : made.node? p = t.node? p :=
      (hadds p).resolve_right fun hs => by simp [hs.2.1] at hn
    exact (FileTree.node?_writeFile_of_ne hp).trans (hsame.trans hn)
  · intro p n hp hn hn'
    have hn' := (FileTree.node?_writeFile_of_ne hp).symm.trans hn'
    rcases hadds p with he | ⟨hm, -, hf⟩
    · simp [he, hn] at hn'
    · exact ⟨Option.some.inj (hn'.symm.trans hf), hm⟩

end Written

/-- To claim a directory fails by a failure of the file system, or because the tree cannot be
recorded, and then the folders are there. -/
theorem claim_cases (hnow : ∀ moment, Timestamp.isValid (tools.now moment) = true)
    (h : (a.claim tools).outcome w = (x, w')) :
    (∃ cause, x = .error (.io cause)) ∨
    (a.treeText? = none ∧ x = .error .unrecordable ∧
      FileTree.Adds (Path.way a.runsFolder) w.files w'.files) ∨
    x = .ok () ∧ Claimed a tools w.files w'.files := by
  have ho := @outcome_operate w (FileTree.makeFolders a.runsFolder)
  have hadds := FileTree.adds_makeFolders a.runsFolder (w.disk w.clock) w.files
  rw [claim] at h
  cases hm : (FileTree.makeFolders a.runsFolder (w.disk w.clock) w.files).1 with
  | error cause =>
    rw [hm] at ho
    rw [Session.outcome_bind_of_error ho] at h
    cases h
    exact .inl ⟨cause, rfl⟩
  | ok u =>
    obtain ⟨hdisk, -⟩ := FileTree.makeFolders_ok_iff.1 hm
    rw [hdisk] at hm hadds
    have hway := FileTree.isFolder_of_makeFolders hm
    rw [hdisk, hm] at ho
    rw [Session.outcome_bind_of_ok ho, Session.outcome_moment_bind] at h
    generalize (FileTree.makeFolders a.runsFolder none w.files).2 = made at hadds hway h
    cases htree : a.treeText? with
    | none =>
      rw [htree] at h
      cases h
      exact .inr (.inl ⟨rfl, rfl, hadds⟩)
    | some tree =>
      rw [htree] at h
      let owner : Owner := { tree, script := a.script, created := tools.now (w.clock + 1) }
      have ho := @outcome_operate { w with files := made, clock := w.clock + 1 }
        (FileTree.writeFile a.ownerPath (.text owner.toJson.renderIndented))
      cases hw : (FileTree.writeFile a.ownerPath (.text owner.toJson.renderIndented)
          (w.disk (w.clock + 1)) made).1 with
      | error cause =>
        rw [hw] at ho
        cases ho.symm.trans h
        exact .inl ⟨cause, rfl⟩
      | ok u =>
        rw [hw] at ho
        cases ho.symm.trans h
        exact .inr (.inr ⟨rfl, claimed_of_writeFile (hnow _) htree rfl hadds hway hw⟩)

theorem Claimed.eq_of_cleared (h : Claimed a tools (t.remove (Path.resolve a.directory)) t')
    (hne : Path.resolve a.directory ≠ []) (hp : Path.resolve a.directory <+: p)
    (hn : t'.node? p = some n) :
    p = a.ownerFile ∨ n = .folder ∧ p ∈ Path.way a.runsFolder := by
  have hnil : p ≠ [] := by
    rintro rfl
    exact hne (List.prefix_nil.1 hp)
  refine or_iff_not_imp_left.2 fun ho => ?_
  exact h.added p n ho (FileTree.node?_remove_of_below hp hnil) hn

theorem recordFile_eq_directory (hi : Path.Plain id) :
    a.recordFile id = Path.resolve a.directory ++ ["data", id, recordName] := by
  rw [recordFile, runFolder_eq_directory hi, List.append_assoc]
  rfl

theorem recordFile_ne_ownerFile (hi : Path.Plain id) : a.recordFile id ≠ a.ownerFile := by
  rw [recordFile_eq_directory hi, ownerFile_eq]
  simp

theorem Claimed.isFile (h : Claimed a tools t t') (hp : p ≠ a.ownerFile)
    (hf : t'.isFile p = true) : t.isFile p = true := by
  obtain ⟨doc, hd⟩ := FileTree.isFile_iff.1 hf
  cases hn : t.node? p with
  | none =>
    obtain ⟨hfolder, -⟩ := h.added p _ hp hn hd
    cases hfolder
  | some n =>
    have hn' := h.kept p n hp hn
    rw [hd] at hn'
    exact FileTree.isFile_iff.2 ⟨doc, hn.trans hn'.symm⟩

theorem not_isFile_remove {q : Location} (hp : p ≠ []) : ¬ (t.remove p).isFile (p ++ q) = true := by
  intro hf
  obtain ⟨doc, hd⟩ := FileTree.isFile_iff.1 hf
  rw [FileTree.node?_remove_of_below (List.prefix_append _ _) (by simp [hp])] at hd
  cases hd

end Claim

section Setup

/-- All that taking hold of a directory can do with its files, if no operation on them fails. -/
inductive TakesHold (a : Archive) (tools : Tools) (t : FileTree) :
    Except Error Unit → FileTree → Prop
  | reused {o : Owner} (ho : a.readOwner t = .ok o) (hown : a.isOwnedBy o = true) :
    TakesHold a tools t (.ok ()) t
  | refused {o : Owner} (ho : a.readOwner t = .ok o) (hown : a.isOwnedBy o = false)
    (hw : a.overwrites = false) : TakesHold a tools t (.error (.mismatch a.directory o.script)) t
  | malformed (ho : a.readOwner t = .error .malformed) : TakesHold a tools t (.error .malformed) t
  | claimed {t' : FileTree} (hf : t.finds a.ownerPath = false) (hc : Claimed a tools t t') :
    TakesHold a tools t (.ok ()) t'
  | overwritten {o : Owner} {t' : FileTree} (ho : a.readOwner t = .ok o)
    (hown : a.isOwnedBy o = false) (hw : a.overwrites = true) (hne : Path.resolve a.directory ≠ [])
    (hc : Claimed a tools (t.remove (Path.resolve a.directory)) t') :
    TakesHold a tools t (.ok ()) t'
  | unrecorded {t' : FileTree} (htree : a.treeText? = none) (hf : t.finds a.ownerPath = false)
    (ha : FileTree.Adds (Path.way a.runsFolder) t t') :
    TakesHold a tools t (.error .unrecordable) t'
  | cleared {o : Owner} {t' : FileTree} (htree : a.treeText? = none) (ho : a.readOwner t = .ok o)
    (hown : a.isOwnedBy o = false) (hw : a.overwrites = true) (hne : Path.resolve a.directory ≠ [])
    (ha : FileTree.Adds (Path.way a.runsFolder) (t.remove (Path.resolve a.directory)) t') :
    TakesHold a tools t (.error .unrecordable) t'

theorem takesHold_setup (hnow : ∀ moment, Timestamp.isValid (tools.now moment) = true)
    (h : (a.setup tools).outcome w = (x, w')) :
    (∃ cause, x = .error (.io cause)) ∨ TakesHold a tools w.files x w'.files := by
  rw [setup, Session.outcome_files_bind] at h
  split at h
  next hf =>
    cases ho : a.readOwner w.files with
    | error e =>
      rw [ho, Session.outcome_bind_of_error (Session.outcome_ofExcept (.error e))] at h
      cases h
      rcases readOwner_of_error ho with rfl | ⟨cause, rfl⟩
      · exact .inr (.malformed ho)
      · exact .inl ⟨cause, rfl⟩
    | ok o =>
      rw [Session.outcome_ofExcept_bind ho] at h
      by_cases hown : a.isOwnedBy o = true
      · rw [if_pos hown, Session.outcome_log] at h
        cases h
        exact .inr (.reused ho hown)
      rw [if_neg hown] at h
      rw [Bool.not_eq_true] at hown
      by_cases hw : a.overwrites = true
      · rw [if_pos hw, Session.outcome_log_bind] at h
        generalize w.log ++ [_] = log at h
        have hremove := @outcome_operate { w with log } (FileTree.removeFolder a.directory)
        cases hr : (FileTree.removeFolder a.directory (w.disk w.clock) w.files).1 with
        | error cause =>
          rw [hr] at hremove
          rw [Session.outcome_bind_of_error hremove] at h
          cases h
          exact .inl ⟨cause, rfl⟩
        | ok u =>
          have hne := FileTree.resolve_ne_nil (FileTree.unremovable?_of_ok hr)
          rw [hr, FileTree.removeFolder_of_ok hr] at hremove
          rw [Session.outcome_bind_of_ok hremove] at h
          rcases claim_cases hnow h with hio | ⟨htree, rfl, ha⟩ | ⟨rfl, hc⟩
          · exact .inl hio
          · exact .inr (.cleared htree ho hown hw hne ha)
          · exact .inr (.overwritten ho hown hw hne hc)
      · rw [if_neg hw, Session.outcome_throw] at h
        cases h
        exact .inr (.refused ho hown (eq_false_of_ne_true hw))
  next hf =>
    have hf := eq_false_of_ne_true hf
    rcases claim_cases hnow h with hio | ⟨htree, rfl, ha⟩ | ⟨rfl, hc⟩
    · exact .inl hio
    · exact .inr (.unrecorded htree hf ha)
    · exact .inr (.claimed hf hc)

theorem exists_outcome_setup_of_belongsTo (h : a.BelongsTo w.files) (tools : Tools) :
    ∃ log, (a.setup tools).outcome w = (.ok (), { w with log }) := by
  obtain ⟨o, ho, hown⟩ := h
  rw [setup, Session.outcome_files_bind, if_pos (finds_of_readOwner ho),
    Session.outcome_ofExcept_bind ho, if_pos hown]
  exact ⟨_, Session.outcome_log _⟩

theorem TakesHold.belongsTo (h : TakesHold a tools t (.ok ()) t') : a.BelongsTo t' := by
  cases h with
  | reused ho hown => exact ⟨_, ho, hown⟩
  | claimed hf hc => exact hc.belongsTo
  | overwritten ho hown hw hne hc => exact hc.belongsTo

theorem BelongsTo.settled (h : a.BelongsTo t) : Settled a t := by
  obtain ⟨o, ho, -⟩ := h
  exact settled_of_way (readOwner_eq_ok_iff.1 ho).1

end Setup

end SimCampaign.Archive
