import SimCampaign.Proofs.Lookup
import SimCampaign.Proofs.Storage.Path
import SimCampaign.Storage.FileTree

/-! What each change of a file tree does at every location, whether or not a fault stops it. -/

namespace SimCampaign
namespace FileTree
variable {t t' t'' : FileTree} {p q : Location} {n : Node} {doc : Document}

section Nodes

theorem node?_nil (t : FileTree) : t.node? [] = some .folder := rfl

theorem node?_empty (h : p ≠ []) : empty.node? p = none := if_neg h

theorem node?_eq_lookup (h : p ≠ []) : t.node? p = t.nodes.lookup p := if_neg h

theorem exists?_iff : t.exists? p = true ↔ ∃ n, t.node? p = some n := Option.isSome_iff_exists

theorem exists?_eq_false_iff : t.exists? p = false ↔ t.node? p = none := by
  rw [exists?, Option.isSome_eq_false_iff, Option.isNone_iff_eq_none]

theorem isFile_iff : t.isFile p = true ↔ ∃ doc, t.node? p = some (.file doc) := by
  unfold isFile
  cases t.node? p with
  | none => simp
  | some n => cases n <;> simp [Node.isFile]

theorem exists?_of_isFolder (h : t.isFolder p = true) : t.exists? p = true :=
  exists?_iff.2 ⟨_, isFolder_iff.1 h⟩

theorem exists?_of_isFile (h : t.isFile p = true) : t.exists? p = true := by
  obtain ⟨doc, hd⟩ := isFile_iff.1 h
  exact exists?_iff.2 ⟨_, hd⟩

theorem isFolder_dropLast (h : t.exists? p = true) : t.isFolder p.dropLast = true := by
  obtain ⟨n, hn⟩ := exists?_iff.1 h
  rw [isFolder_iff]
  by_cases hp : p = []
  · rw [hp]
    rfl
  · rw [node?_eq_lookup hp] at hn
    exact t.closed (p, n) (mem_of_lookup_eq_some hn)

theorem isFolder_of_above {r : Location} (h : t.exists? (p ++ r) = true) (hr : r ≠ []) :
    t.isFolder p = true := by
  induction r using List.reverseRecOn with
  | nil => exact absurd rfl hr
  | append_singleton r name ih =>
    have hf := isFolder_dropLast h
    rw [← List.append_assoc, List.dropLast_concat] at hf
    by_cases hnil : r = []
    · rwa [hnil, List.append_nil] at hf
    · exact ih (exists?_of_isFolder hf) hnil

end Nodes

section Place

theorem lookup_replaceNodes_self {nodes : List (Location × Node)} (h : p ∈ nodes.map Prod.fst) :
    (replaceNodes p n nodes).lookup p = some n := by
  induction nodes with
  | nil => simp at h
  | cons entry nodes ih =>
    by_cases he : entry.1 = p
    · simp [replaceNodes, he]
    · have hm : p ∈ nodes.map Prod.fst := by
        rcases List.mem_cons.1 h with rfl | hm
        · exact absurd rfl he
        · exact hm
      have ih := ih hm
      have hb : (p == entry.1) = false := beq_eq_false_iff_ne.2 (Ne.symm he)
      unfold replaceNodes at ih ⊢
      rw [List.map_cons, if_neg he, List.lookup_cons, hb]
      exact ih

theorem HasRoom.ne_nil (h : t.HasRoom p) : p ≠ [] := by
  rintro rfl
  exact h.notFolder rfl

theorem node?_place_self (h : t.HasRoom p) : (t.place p n).node? p = some n := by
  rw [node?_eq_lookup h.ne_nil, place, dif_pos h]
  split
  next hm => exact lookup_replaceNodes_self hm
  next hm => simp [List.lookup_append, lookup_eq_none_iff.2 hm]

theorem node?_place_of_ne (h : q ≠ p) : (t.place p n).node? q = t.node? q := by
  rw [place]
  split
  · split
    · exact nodeAt_replaceNodes_of_ne h
    · exact nodeAt_append_of_ne h
  · rfl

theorem place_of_no_room (h : ¬ t.HasRoom p) : t.place p n = t := dif_neg h

theorem node?_write_self (hp : t.isFolder p.dropLast = true) (hn : ¬ t.isFolder p = true) :
    (t.write p doc).node? p = some (.file doc) := node?_place_self ⟨hp, hn⟩

theorem node?_write_of_ne (h : q ≠ p) : (t.write p doc).node? q = t.node? q := node?_place_of_ne h

theorem isFolder_of_write (h : (t.write p doc).isFolder q = true) : t.isFolder q = true := by
  by_cases he : q = p
  · by_cases hr : t.HasRoom p
    · rw [he, isFolder_iff, write, node?_place_self hr] at h
      cases h
    · rwa [write, place_of_no_room hr] at h
  · rwa [isFolder_iff, node?_write_of_ne he, ← isFolder_iff] at h

theorem node?_addFolder_of_ne (h : q ≠ p) : (t.addFolder p).node? q = t.node? q := by
  unfold addFolder
  split
  · rfl
  · exact node?_place_of_ne h

theorem node?_addFolder_of_some (h : t.node? q = some n) : (t.addFolder p).node? q = some n := by
  by_cases he : q = p
  · subst he
    rw [addFolder, if_pos (exists?_iff.2 ⟨n, h⟩), h]
  · rw [node?_addFolder_of_ne he, h]

theorem node?_addFolder_self (h : t.node? p = none) (hp : t.isFolder p.dropLast = true) :
    (t.addFolder p).node? p = some .folder := by
  have he : ¬ t.exists? p = true := by simp [exists?_eq_false_iff.2 h]
  have hf : ¬ t.isFolder p = true := fun hf => he (exists?_of_isFolder hf)
  rw [addFolder, if_neg he, node?_place_self ⟨hp, hf⟩]

theorem node?_addFolder_or (t : FileTree) (p q : Location) :
    (t.addFolder p).node? q = t.node? q ∨
      q = p ∧ t.node? q = none ∧ (t.addFolder p).node? q = some .folder := by
  cases hn : t.node? q with
  | some n => exact .inl (node?_addFolder_of_some hn)
  | none =>
    by_cases he : q = p
    · subst he
      by_cases hp : t.isFolder q.dropLast = true
      · exact .inr ⟨rfl, rfl, node?_addFolder_self hn hp⟩
      · have hr : ¬ t.HasRoom q := fun hr => hp hr.parent
        have he : ¬ t.exists? q = true := by simp [exists?_eq_false_iff.2 hn]
        rw [addFolder, if_neg he, place_of_no_room hr]
        exact .inl hn
    · exact .inl ((node?_addFolder_of_ne he).trans hn)

end Place

section Growth

/-- Whether everything stays, as a file or as a folder. -/
def Grows (t t' : FileTree) : Prop :=
  ∀ p n, t.node? p = some n → ∃ n', t'.node? p = some n' ∧ n'.isFile = n.isFile

theorem Grows.refl (t : FileTree) : Grows t t := fun _ n h => ⟨n, h, rfl⟩

theorem Grows.trans (h : Grows t t') (h' : Grows t' t'') : Grows t t'' := by
  intro p n hn
  obtain ⟨n', hn', hk⟩ := h p n hn
  obtain ⟨n'', hn'', hk'⟩ := h' p n' hn'
  exact ⟨n'', hn'', hk'.trans hk⟩

theorem Grows.exists? (h : Grows t t') (hp : t.exists? p = true) : t'.exists? p = true := by
  obtain ⟨n, hn⟩ := exists?_iff.1 hp
  obtain ⟨n', hn', -⟩ := h p n hn
  exact exists?_iff.2 ⟨n', hn'⟩

theorem Grows.isFolder (h : Grows t t') (hp : t.isFolder p = true) : t'.isFolder p = true := by
  obtain ⟨n', hn', hk⟩ := h p .folder (isFolder_iff.1 hp)
  cases n' with
  | folder => exact isFolder_iff.2 hn'
  | file doc => cases hk

theorem Grows.isFile (h : Grows t t') (hp : t.isFile p = true) : t'.isFile p = true := by
  obtain ⟨doc, hd⟩ := isFile_iff.1 hp
  obtain ⟨n', hn', hk⟩ := h p _ hd
  cases n' with
  | folder => cases hk
  | file doc => exact isFile_iff.2 ⟨doc, hn'⟩

theorem grows_write (t : FileTree) (p : Location) (doc : Document) : Grows t (t.write p doc) := by
  intro q n hn
  by_cases hr : t.HasRoom p
  · by_cases he : q = p
    · subst he
      cases n with
      | folder => exact absurd (isFolder_iff.2 hn) hr.notFolder
      | file old => exact ⟨_, node?_place_self hr, rfl⟩
    · exact ⟨n, (node?_write_of_ne he).trans hn, rfl⟩
  · rw [write, place_of_no_room hr]
    exact ⟨n, hn, rfl⟩

theorem grows_addFolder (t : FileTree) (p : Location) : Grows t (t.addFolder p) :=
  fun _ n hn => ⟨n, node?_addFolder_of_some hn, rfl⟩

end Growth

section Ways
variable {path name : String} {qs : List Location}

theorem enter_eq_ok_iff : t.enter qs = .ok () ↔ ∀ q ∈ qs, t.isFolder q = true := by
  induction qs with
  | nil => simp [enter]
  | cons q qs ih =>
    rw [enter, List.forall_mem_cons, isFolder_iff, ← ih]
    cases t.node? q with
    | none => simp
    | some n => cases n <;> simp

theorem find_eq_ok_iff : t.find path = .ok n ↔
    path ≠ "" ∧ (∀ q ∈ (Path.way path).dropLast, t.isFolder q = true) ∧
      t.node? (Path.resolve path) = some n := by
  rw [← enter_eq_ok_iff, find]
  by_cases hp : path = ""
  · simp [hp, bind, Except.bind, throw, throwThe, MonadExceptOf.throw]
  · cases he : t.enter (Path.way path).dropLast with
    | error e => simp [hp, bind, Except.bind]
    | ok u => cases t.node? (Path.resolve path) <;> simp [hp, bind, Except.bind]

theorem finds_iff : t.finds path = true ↔ ∃ n, t.find path = .ok n := by
  rw [finds]
  cases t.find path <;> simp [Except.isOk, Except.toBool]

theorem Grows.finds (h : Grows t t') (hp : t.finds path = true) : t'.finds path = true := by
  obtain ⟨n, hn⟩ := finds_iff.1 hp
  obtain ⟨hne, hway, hn⟩ := find_eq_ok_iff.1 hn
  obtain ⟨n', hn', -⟩ := h _ _ hn
  exact finds_iff.2 ⟨n', find_eq_ok_iff.2 ⟨hne, fun q hq => h.isFolder (hway q hq), hn'⟩⟩

theorem Grows.exists_find_file (h : Grows t t') (hf : ∃ doc, t.find path = .ok (.file doc)) :
    ∃ doc, t'.find path = .ok (.file doc) := by
  obtain ⟨doc, hd⟩ := hf
  obtain ⟨hne, hway, hn⟩ := find_eq_ok_iff.1 hd
  obtain ⟨n', hn', hk⟩ := h _ _ hn
  cases n' with
  | folder => cases hk
  | file doc' => exact ⟨doc', find_eq_ok_iff.2 ⟨hne, fun q hq => h.isFolder (hway q hq), hn'⟩⟩

theorem join_ne_empty (a : String) (h : Path.Plain name) : Path.join a name ≠ "" := by
  intro he
  have hr := Path.resolve_join_plain a h
  have hnil : Path.resolve "" = [] := by decide
  rw [he, hnil] at hr
  exact absurd hr.symm (by simp)

theorem find_join_eq_ok_iff (h : Path.Plain name) : t.find (Path.join path name) = .ok n ↔
    (∀ q ∈ Path.way path, t.isFolder q = true) ∧ t.node? (Path.resolve path ++ [name]) = some n := by
  rw [find_eq_ok_iff, Path.resolve_join_plain path h, and_iff_right (join_ne_empty path h)]
  refine and_congr_left fun _ => forall_congr' fun q => ?_
  rw [Path.mem_dropLast_way_join path h]

theorem readText_eq_ok_iff {text : String} : t.readText path = .ok text ↔
    ∃ doc, t.find path = .ok (.file doc) ∧ documentText doc = .ok text := by
  rw [readText]
  cases hf : t.find path with
  | error e => simp [bind, Except.bind]
  | ok n => cases n <;> simp [bind, Except.bind]

theorem documentText_text (s : String) : documentText (.text s) = .ok s := by
  have hs : Text.decode? (Text.encode s) = some s := dif_pos s.isValidUTF8
  rw [Document.text, documentText, hs]

end Ways

section MakeFolders
variable {made : List Location} {reached : Location → Bool} {m : Bool} {path : String}
  {fault? : Option Fault}

/-- Whether nothing but folders is added, and only at given locations. -/
def Adds (made : List Location) (t t' : FileTree) : Prop :=
  ∀ q, t'.node? q = t.node? q ∨ q ∈ made ∧ t.node? q = none ∧ t'.node? q = some .folder

theorem Adds.refl (made : List Location) (t : FileTree) : Adds made t t := fun _ => .inl rfl

theorem Adds.trans (h : Adds made t t') (h' : Adds made t' t'') : Adds made t t'' := by
  intro q
  rcases h' q with h' | ⟨hm, hn, h'⟩
  · rw [h']
    exact h q
  · rcases h q with h | ⟨-, -, hs⟩
    · exact .inr ⟨hm, h ▸ hn, h'⟩
    · rw [hs] at hn
      cases hn

theorem Adds.mono {more : List Location} (h : Adds made t t') (hm : ∀ q ∈ made, q ∈ more) :
    Adds more t t' := fun q => (h q).imp_right fun h => ⟨hm q h.1, h.2⟩

theorem Adds.grows (h : Adds made t t') : Grows t t' := by
  intro p n hn
  rcases h p with h | ⟨-, hnone, -⟩
  · exact ⟨n, h.trans hn, rfl⟩
  · rw [hn] at hnone
    cases hnone

theorem Adds.node?_of_not_mem (h : Adds made t t') (hq : q ∉ made) : t'.node? q = t.node? q :=
  (h q).resolve_right fun h => hq h.1

theorem Adds.node?_of_file (h : Adds made t t') (hq : t'.node? q = some (.file doc)) :
    t.node? q = some (.file doc) := by
  rcases h q with h | ⟨-, -, hs⟩
  · rwa [← h]
  · rw [hs] at hq
    cases hq

theorem adds_makeAlong (reached : Location → Bool) (m : Bool) (t : FileTree)
    (qs : List Location) : Adds qs t (makeAlong reached m t qs).2 := by
  induction qs generalizing t m with
  | nil => exact .refl _ t
  | cons q qs ih =>
    have hrest (m) (t : FileTree) : Adds (q :: qs) t (makeAlong reached m t qs).2 :=
      (ih m t).mono fun r hr => List.mem_cons_of_mem _ hr
    rw [makeAlong]
    split
    next => exact hrest m t
    next => exact .refl _ t
    next hn =>
      split
      · refine Adds.trans (fun r => ?_) (hrest true (t.addFolder q))
        rcases node?_addFolder_or t q r with h | ⟨rfl, h⟩
        · exact .inl h
        · exact .inr ⟨List.mem_cons_self .., h⟩
      · exact .refl _ t

theorem adds_makeFolders (path : String) (fault? : Option Fault) (t : FileTree) :
    Adds (Path.way path) t (makeFolders path fault? t).2 := by
  cases fault? with
  | none => exact adds_makeAlong _ _ _ _
  | some f => exact adds_makeAlong _ _ _ _

theorem Adds.isFolder (h : Adds made t t') (hq : t.isFolder q = true) : t'.isFolder q = true :=
  h.grows.isFolder hq

/-- What is passed is a folder already or becomes one, as the folder above it is there. -/
theorem exists_makeAlong_eq {qs : List Location} (hq : t.isFolder q.dropLast = true)
    (h : (makeAlong (fun _ => true) m t (q :: qs)).1 = .ok ()) :
    ∃ m' t', t'.isFolder q = true ∧
      makeAlong (fun _ => true) m t (q :: qs) = makeAlong (fun _ => true) m' t' qs := by
  rw [makeAlong] at h ⊢
  cases hn : t.node? q with
  | none => exact ⟨true, _, isFolder_iff.2 (node?_addFolder_self hn hq), rfl⟩
  | some n =>
    cases n with
    | folder => exact ⟨m, t, isFolder_iff.2 hn, rfl⟩
    | file doc =>
      rw [hn] at h
      cases h

theorem isFolder_of_makeAlong {cs : List String} (hq : t.isFolder q.dropLast = true)
    (h : (makeAlong (fun _ => true) m t (Path.wayFrom q cs)).1 = .ok ()) :
    ∀ r ∈ Path.wayFrom q cs,
      (makeAlong (fun _ => true) m t (Path.wayFrom q cs)).2.isFolder r = true := by
  induction cs generalizing q m t with
  | nil =>
    obtain ⟨m', t', hf, he⟩ := exists_makeAlong_eq hq h
    rw [Path.wayFrom, he]
    intro r hr
    rw [List.mem_singleton.1 hr]
    exact hf
  | cons c cs ih =>
    rw [Path.wayFrom] at h ⊢
    obtain ⟨m', t', hf, he⟩ := exists_makeAlong_eq hq h
    rw [he] at h ⊢
    have hparent : t'.isFolder q.dropLast = true := isFolder_dropLast (exists?_of_isFolder hf)
    have hnext : t'.isFolder (Path.step q c).dropLast = true := by
      rcases Path.step_cases q c with hs | hs | hs
      · rwa [hs]
      · rw [hs]
        exact isFolder_dropLast (exists?_of_isFolder hparent)
      · rwa [hs]
    exact List.forall_mem_cons.2 ⟨(adds_makeAlong _ _ _ _).isFolder hf, ih hnext h⟩

theorem makeAlong_of_no_file {qs : List Location} (h : ∀ q ∈ qs, ¬ t.isFile q = true) :
    (makeAlong reached m t qs).1 = .ok () := by
  induction qs generalizing t m with
  | nil => rfl
  | cons q qs ih =>
    obtain ⟨hq, hqs⟩ := List.forall_mem_cons.1 h
    rw [makeAlong]
    split
    next => exact ih hqs
    next hn => exact absurd (isFile_iff.2 ⟨_, hn⟩) hq
    next hn =>
      split
      · refine ih fun r hr hf => hqs r hr ?_
        obtain ⟨doc, hd⟩ := isFile_iff.1 hf
        rcases node?_addFolder_or t q r with hs | ⟨-, -, hs⟩
        · exact isFile_iff.2 ⟨doc, hs ▸ hd⟩
        · rw [hs] at hd
          cases hd
      · rfl

theorem not_isFile_of_isFolder (h : t.isFolder p = true) : ¬ t.isFile p = true := by
  intro hf
  obtain ⟨doc, hd⟩ := isFile_iff.1 hf
  rw [isFolder_iff.1 h] at hd
  cases hd

theorem isFolder_of_makeFolders (h : (makeFolders path none t).1 = .ok ()) :
    ∀ q ∈ Path.way path, (makeFolders path none t).2.isFolder q = true := by
  refine isFolder_of_makeAlong ?_ h
  rw [Path.dropLast_start]
  rfl

theorem makeFolders_ok_iff : (makeFolders path fault? t).1 = .ok () ↔
    fault? = none ∧ ∀ q ∈ Path.way path, ¬ t.isFile q = true := by
  cases fault? with
  | some f => exact iff_of_false (by rintro ⟨⟩) (by rintro ⟨⟨⟩, -⟩)
  | none =>
    rw [and_iff_right rfl]
    refine ⟨fun h q hq hf => ?_, makeAlong_of_no_file⟩
    have hg := (adds_makeFolders path none t).grows.isFile hf
    exact not_isFile_of_isFolder (isFolder_of_makeFolders h q hq) hg

theorem node?_makeFolders_of_ok (h : (makeFolders path fault? t).1 = .ok ()) (q : Location) :
    (makeFolders path fault? t).2.node? q =
      if q ∈ Path.way path then some .folder else t.node? q := by
  obtain ⟨rfl, -⟩ := makeFolders_ok_iff.1 h
  split
  next hq => exact isFolder_iff.1 (isFolder_of_makeFolders h q hq)
  next hq => exact (adds_makeFolders path none t).node?_of_not_mem hq

end MakeFolders

section Write
variable {path folder name : String} {fault? : Option Fault}

/-- A file that is written is there in the end. One that is not is as it was, or holds the front of
what should be in it. -/
theorem writeAt_cases (p : Location) (doc : Document) (fault? : Option Fault) (t : FileTree) :
    (writeAt p doc fault? t = (.ok (), t.write p doc) ∧ fault? = none) ∨
      ∃ e, writeAt p doc fault? t = (.error e, t) ∨ ∃ f data, fault? = some f ∧ f.reached p = true ∧
        writeAt p doc fault? t = (.error e, t.write p (.bytes data)) := by
  unfold writeAt
  split
  · exact .inr ⟨_, .inl rfl⟩
  cases fault? with
  | none => exact .inl ⟨rfl, rfl⟩
  | some f =>
    refine .inr ⟨f.cause, ?_⟩
    by_cases hr : f.reached p = true
    · exact .inr ⟨f, doc.data.extract 0 f.length, rfl, hr, by simp [hr]⟩
    · exact .inl (by simp [hr])

theorem writeAt_ok_iff : (writeAt p doc fault? t).1 = .ok () ↔
    fault? = none ∧ ¬ t.isFolder p = true := by
  unfold writeAt
  split
  next h => exact iff_of_false (by rintro ⟨⟩) fun hn => hn.2 h
  next h => cases fault? <;> simp [h]

theorem writeAt_of_ok (h : (writeAt p doc fault? t).1 = .ok ()) :
    (writeAt p doc fault? t).2 = t.write p doc := by
  obtain ⟨rfl, hn⟩ := writeAt_ok_iff.1 h
  rw [writeAt, if_neg hn]

theorem node?_writeAt_of_ne (h : q ≠ p) : (writeAt p doc fault? t).2.node? q = t.node? q := by
  obtain ⟨hw, -⟩ | ⟨e, hw | ⟨f, data, -, -, hw⟩⟩ := writeAt_cases p doc fault? t
  · rw [hw, node?_write_of_ne h]
  · rw [hw]
  · rw [hw, node?_write_of_ne h]

theorem grows_writeAt (p : Location) (doc : Document) (fault? : Option Fault) (t : FileTree) :
    Grows t (writeAt p doc fault? t).2 := by
  obtain ⟨hw, -⟩ | ⟨e, hw | ⟨f, data, -, -, hw⟩⟩ := writeAt_cases p doc fault? t
  · rw [hw]
    exact grows_write t p doc
  · rw [hw]
    exact .refl t
  · rw [hw]
    exact grows_write t p _

theorem writeFile_eq (h : ∀ q ∈ (Path.way path).dropLast, t.isFolder q = true) :
    writeFile path doc fault? t = writeAt (Path.resolve path) doc fault? t := by
  rw [writeFile, enter_eq_ok_iff.2 h]

theorem writeFile_ok_iff : (writeFile path doc fault? t).1 = .ok () ↔
    (∀ q ∈ (Path.way path).dropLast, t.isFolder q = true) ∧ fault? = none ∧
      ¬ t.isFolder (Path.resolve path) = true := by
  by_cases h : ∀ q ∈ (Path.way path).dropLast, t.isFolder q = true
  · rw [writeFile_eq h, writeAt_ok_iff, and_iff_right h]
  · refine iff_of_false (fun hok => ?_) fun hok => h hok.1
    rw [← enter_eq_ok_iff] at h
    rw [writeFile] at hok
    cases he : t.enter (Path.way path).dropLast with
    | ok u => exact h he
    | error e =>
      rw [he] at hok
      cases hok

theorem writeFile_of_ok (h : (writeFile path doc fault? t).1 = .ok ()) :
    (writeFile path doc fault? t).2 = t.write (Path.resolve path) doc := by
  obtain ⟨hway, hrest⟩ := writeFile_ok_iff.1 h
  rw [writeFile_eq hway]
  exact writeAt_of_ok (writeAt_ok_iff.2 hrest)

theorem node?_writeFile_of_ne (h : q ≠ Path.resolve path) :
    (writeFile path doc fault? t).2.node? q = t.node? q := by
  rw [writeFile]
  split
  · exact node?_writeAt_of_ne h
  · rfl

theorem grows_writeFile (path : String) (doc : Document) (fault? : Option Fault) (t : FileTree) :
    Grows t (writeFile path doc fault? t).2 := by
  rw [writeFile]
  split
  · exact grows_writeAt _ _ _ _
  · exact .refl t

theorem find_of_writeFile (hn : Path.Plain name)
    (h : (writeFile (Path.join folder name) doc fault? t).1 = .ok ()) :
    (writeFile (Path.join folder name) doc fault? t).2.find (Path.join folder name) =
      .ok (.file doc) := by
  obtain ⟨hway, -, hfree⟩ := writeFile_ok_iff.1 h
  have hg := grows_writeFile (Path.join folder name) doc fault? t
  have hway : ∀ q ∈ Path.way folder, t.isFolder q = true :=
    fun q hq => hway q ((Path.mem_dropLast_way_join folder hn).2 hq)
  refine (find_join_eq_ok_iff hn).2 ⟨fun q hq => hg.isFolder (hway q hq), ?_⟩
  rw [writeFile_of_ok h, Path.resolve_join_plain folder hn] at *
  refine node?_write_self ?_ hfree
  rw [List.dropLast_concat]
  exact hway _ (Path.resolve_mem_way folder)

end Write

section Removal
variable {path : String} {reached : Location → Bool} {fault? : Option Fault}

theorem node?_removePart_of_stays (h : t.stays p reached q = true) :
    (t.removePart p reached).node? q = t.node? q := by
  by_cases hq : q = []
  · rw [hq, node?_nil, node?_nil]
  rw [node?_eq_lookup hq, node?_eq_lookup hq]
  cases ht : t.nodes.lookup q with
  | some m => exact lookup_filter_of_keep ht h
  | none =>
    rw [lookup_eq_none_iff] at ht ⊢
    exact fun hm => ht ((List.filter_sublist.map Prod.fst).subset hm)

theorem node?_removePart_of_not_stays (h : ¬ t.stays p reached q = true) (hq : q ≠ []) :
    (t.removePart p reached).node? q = none := by
  rw [node?_eq_lookup hq]
  refine lookup_eq_none_iff.2 fun hm => ?_
  obtain ⟨entry, he, rfl⟩ := List.mem_map.1 hm
  exact h (List.mem_filter.1 he).2

theorem stays_of_outside (h : ¬ p <+: q) : t.stays p reached q = true := by
  have hb : p.isPrefixOf q = false := by
    rw [Bool.eq_false_iff, ne_eq, List.isPrefixOf_iff_prefix]
    exact h
  rw [stays, hb]
  rfl

theorem node?_removePart_of_outside (h : ¬ p <+: q) :
    (t.removePart p reached).node? q = t.node? q :=
  node?_removePart_of_stays (stays_of_outside h)

theorem node?_removePart_or (t : FileTree) (p : Location) (reached : Location → Bool)
    (q : Location) : (t.removePart p reached).node? q = t.node? q ∨
      p <+: q ∧ (t.removePart p reached).node? q = none := by
  by_cases hs : t.stays p reached q = true
  · exact .inl (node?_removePart_of_stays hs)
  by_cases hq : q = []
  · rw [hq, node?_nil, node?_nil]
    exact .inl rfl
  · have hp : p <+: q := not_not.1 fun hp => hs (stays_of_outside hp)
    exact .inr ⟨hp, node?_removePart_of_not_stays hs hq⟩

theorem node?_of_removePart (h : (t.removePart p reached).node? q = some n) :
    t.node? q = some n := by
  rcases node?_removePart_or t p reached q with hs | ⟨-, hs⟩
  · rwa [← hs]
  · rw [hs] at h
    cases h

theorem node?_remove_of_outside (h : ¬ p <+: q) : (t.remove p).node? q = t.node? q :=
  node?_removePart_of_outside h

theorem node?_remove_of_below (h : p <+: q) (hq : q ≠ []) : (t.remove p).node? q = none := by
  refine node?_removePart_of_not_stays ?_ hq
  simp [stays, List.isPrefixOf_iff_prefix.2 h]

/-- A removal takes all of a folder away, or a part of it if it fails. -/
theorem removeFolder_cases (path : String) (fault? : Option Fault) (t : FileTree) :
    (removeFolder path fault? t = (.ok (), t.remove (Path.resolve path)) ∧ fault? = none ∧
        t.find path = .ok .folder) ∨
      ∃ e, removeFolder path fault? t = (.error e, t) ∨ ∃ reached,
        removeFolder path fault? t = (.error e, t.removePart (Path.resolve path) reached) := by
  rw [removeFolder]
  cases t.find path with
  | error e => exact .inr ⟨e, .inl rfl⟩
  | ok n =>
    cases n with
    | file doc => exact .inr ⟨_, .inl rfl⟩
    | folder =>
      cases fault? with
      | some f => exact .inr ⟨_, .inr ⟨_, rfl⟩⟩
      | none =>
        dsimp only
        split
        · exact .inr ⟨_, .inr ⟨_, rfl⟩⟩
        · exact .inr ⟨_, .inr ⟨_, rfl⟩⟩
        · exact .inl ⟨rfl, rfl, rfl⟩

theorem removeFolder_of_ok (h : (removeFolder path fault? t).1 = .ok ()) :
    (removeFolder path fault? t).2 = t.remove (Path.resolve path) := by
  rcases removeFolder_cases path fault? t with ⟨hr, -⟩ | ⟨e, hr | ⟨reached, hr⟩⟩
  · rw [hr]
  all_goals
    rw [hr] at h
    cases h

theorem node?_removeFolder_or (path : String) (fault? : Option Fault) (t : FileTree)
    (q : Location) : (removeFolder path fault? t).2.node? q = t.node? q ∨
      Path.resolve path <+: q ∧ (removeFolder path fault? t).2.node? q = none := by
  rcases removeFolder_cases path fault? t with ⟨hr, -⟩ | ⟨e, hr | ⟨reached, hr⟩⟩
  · rw [hr]
    exact node?_removePart_or _ _ _ q
  · rw [hr]
    exact .inl rfl
  · rw [hr]
    exact node?_removePart_or _ _ _ q

theorem removeFolder_eq (hf : t.find path = .ok .folder) (hu : unremovable? path = none)
    (hw : ∀ q ∈ (Path.way path).dropLast, Path.resolve path <+: q → q = Path.resolve path) :
    removeFolder path none t = (.ok (), t.remove (Path.resolve path)) := by
  obtain ⟨hne, hway, hn⟩ := find_eq_ok_iff.1 hf
  have hself : (t.removePart (Path.resolve path) fun q => q != Path.resolve path).node?
      (Path.resolve path) = some .folder := by
    by_cases hp : Path.resolve path = []
    · rw [hp, node?_nil]
    rw [node?_removePart_of_stays, hn]
    have hm : (Path.resolve path, Node.folder) ∈ t.nodes := by
      rw [node?_eq_lookup hp] at hn
      exact mem_of_lookup_eq_some hn
    rw [stays, Bool.or_eq_true]
    refine .inr (List.any_eq_true.2 ⟨_, hm, ?_⟩)
    simp
  have hfind : (t.removePart (Path.resolve path) fun q => q != Path.resolve path).find path =
      .ok .folder := by
    refine find_eq_ok_iff.2 ⟨hne, fun q hq => ?_, hself⟩
    by_cases hp : Path.resolve path <+: q
    · rw [hw q hq hp]
      exact isFolder_iff.2 hself
    · rw [isFolder_iff, node?_removePart_of_outside hp, ← isFolder_iff]
      exact hway q hq
  rw [removeFolder, hf]
  dsimp only
  rw [hu, hfind]

/-- A path that ends in a name does not lead to the working folder. -/
theorem resolve_ne_nil (h : unremovable? path = none) : Path.resolve path ≠ [] := by
  rw [unremovable?] at h
  rw [Path.resolve]
  generalize Path.start path = q
  generalize Path.pieces path = cs at h
  induction cs using List.reverseRecOn with
  | nil => cases h
  | append_singleton cs c ih =>
    rw [List.foldl_append]
    by_cases hc : c = ""
    · subst hc
      have hempty : (cs ++ [""]).filter (· != "") = cs.filter (· != "") := by simp
      rw [hempty] at h
      exact ih h
    · have hlast : ((cs ++ [c]).filter (· != "")).getLast? = some c := by simp [hc]
      rw [hlast] at h
      have hdot : c ≠ "." := by
        rintro rfl
        cases h
      have hdots : c ≠ ".." := by
        rintro rfl
        cases h
      simp [Path.step, hc, hdot, hdots]

theorem unremovable?_of_ok (h : (removeFolder path fault? t).1 = .ok ()) :
    unremovable? path = none := by
  rw [removeFolder] at h
  cases hf : t.find path with
  | error e =>
    rw [hf] at h
    cases h
  | ok n =>
    rw [hf] at h
    cases n with
    | file doc => cases h
    | folder =>
      cases fault? with
      | some f => cases h
      | none =>
        cases hu : unremovable? path with
        | none => rfl
        | some e => simp [hu] at h

theorem unremovable?_join (folder : String) {name : String} (hn : Path.Plain name) :
    unremovable? (Path.join folder name) = none := by
  obtain ⟨cs, hcs⟩ := Path.exists_pieces_join folder hn
  have hl : ((Path.pieces (Path.join folder name)).filter (· != "")).getLast? = some name := by
    simp [hcs, hn.ne_empty]
  unfold unremovable?
  rw [hl]
  split
  next h => cases h
  next h => exact absurd (Option.some.inj h) hn.ne_dot
  next h => exact absurd (Option.some.inj h) hn.ne_dots
  next => rfl

end Removal

section Children

theorem mem_children_iff {name : String} :
    (name, n) ∈ t.children p ↔ t.node? (p ++ [name]) = some n := by
  have hne : p ++ [name] ≠ [] := by simp
  rw [node?_eq_lookup hne, children, List.mem_filterMap]
  constructor
  · rintro ⟨⟨r, m⟩, hm, hr⟩
    have hr : r = p ++ [name] ∧ m = n := by
      cases hl : r.getLast? with
      | none => simp [hl] at hr
      | some last =>
        simp only [hl, Option.ite_none_right_eq_some, Option.some.injEq, Prod.mk.injEq] at hr
        obtain ⟨hr, rfl, rfl⟩ := hr
        exact ⟨hr, rfl⟩
    obtain ⟨rfl, rfl⟩ := hr
    exact lookup_eq_some_of_mem t.nodup hm
  · intro h
    exact ⟨(p ++ [name], n), mem_of_lookup_eq_some h, by simp⟩

end Children

end FileTree
end SimCampaign
