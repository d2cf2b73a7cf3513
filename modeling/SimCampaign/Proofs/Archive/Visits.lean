import Mathlib.Data.List.Induction
import SimCampaign.Proofs.Archive.Ownership

/-! Visits of several archives to one directory. What an owner recorded is not there any more once
another owner has taken hold of the directory. -/

namespace SimCampaign.Archive

/-- An archive takes hold of its directory and, if it succeeds, does some work there. -/
structure Visit where
  archive : Archive
  tools : Tools
  work : Session Error Unit

def Visit.outcome (v : Visit) (w : World) : Except Error Unit × World :=
  (do v.archive.setup v.tools; v.work : Session Error Unit).outcome w

def afterVisits (visits : List Visit) (w : World) : World :=
  visits.foldl (fun w v => (v.outcome w).2) w

variable {a z : Archive} {tools : Tools} {v u : Visit} {visits : List Visit} {w w₀ w' : World}
  {x : Except Error Unit} {t t' : FileTree} {dir : Location} {id : String}

/-- Steps that leave alone the file that names the owner of the directory. -/
def LeavesOwner (a : Archive) (work : Session Error Unit) : Prop :=
  ∀ w : World, Settled a w.files →
    (work.outcome w).2.files.node? a.ownerFile = w.files.node? a.ownerFile

theorem leavesOwner_runMissing (a : Archive) (tools : Tools) (space : Param.Space) (runs : Nat) :
    LeavesOwner a (a.runMissing tools space runs) :=
  fun _ hs => node?_ownerFile_runMissing hs rfl

namespace Visit

def Enters (v : Visit) (w w' : World) : Prop :=
  (v.archive.setup v.tools).outcome w = (.ok (), w')

/-- The record of a run is not there when the archive has taken hold of the directory, and is when
it leaves. -/
def Records (v : Visit) (id : String) (w : World) : Prop :=
  ∃ w', v.Enters w w' ∧ w'.files.isFile (v.archive.recordFile id) = false ∧
    (v.work.outcome w').2.files.isFile (v.archive.recordFile id) = true

/-- A visit to a directory with a clock that tells the time. -/
structure To (dir : Location) (v : Visit) : Prop where
  directory : Path.resolve v.archive.directory = dir
  clock : ∀ moment, Timestamp.isValid (v.tools.now moment) = true
  work : LeavesOwner v.archive v.work

/-- Whether a visit finds the record of the owner if there is one, and no operation on the files
fails while it takes hold of the directory. -/
structure Undisturbed (v : Visit) (w : World) : Prop where
  visible : w.files.exists? v.archive.ownerFile = true → w.files.finds v.archive.ownerPath = true
  succeeds : ∀ cause, ((v.archive.setup v.tools).outcome w).1 ≠ .error (.io cause)

end Visit

structure Regular (dir : Location) (visits : List Visit) (w₀ : World) : Prop where
  leads : ∀ v ∈ visits, v.To dir
  undisturbed : ∀ before v after, visits = before ++ v :: after →
    v.Undisturbed (afterVisits before w₀)

/-- A path without pairs of points leads only through folders above what it leads to. -/
theorem visible_of_plain (h : ".." ∉ Path.pieces a.directory)
    (he : t.exists? a.ownerFile = true) : t.finds a.ownerPath = true := by
  refine finds_ownerPath_iff.2 ⟨fun q hq => ?_, he⟩
  obtain ⟨rest, hrest⟩ := Path.prefix_resolve h hq
  rw [ownerFile_eq, ← hrest, List.append_assoc] at he
  exact FileTree.isFolder_of_above he (by simp)

section Step

theorem afterVisits_concat (visits : List Visit) (v : Visit) (w : World) :
    afterVisits (visits ++ [v]) w = (v.outcome (afterVisits visits w)).2 := by
  rw [afterVisits, List.foldl_append]
  rfl

/-- Whether the file that names the owner is there and names that of an archive. -/
def Owns (z : Archive) (t : FileTree) : Prop :=
  ∃ o, Names t z.ownerFile o ∧ z.isOwnedBy o = true

theorem BelongsTo.owns (h : z.BelongsTo t) : Owns z t := by
  obtain ⟨o, ho, hown⟩ := h
  exact ⟨o, (readOwner_eq_ok_iff.1 ho).2, hown⟩

theorem Owns.congr (h : Owns z t) (hn : t'.node? z.ownerFile = t.node? z.ownerFile) :
    Owns z t' := by
  obtain ⟨o, ho, hown⟩ := h
  exact ⟨o, ho.congr hn, hown⟩

/-- Whether there is neither an owner nor a run in a directory. -/
structure Abandoned (dir : Location) (t : FileTree) : Prop where
  owner : t.isFile (dir ++ ["campaign.json"]) = false
  runs : ∀ id, Path.Plain id → t.isFile (dir ++ ["data", id, recordName]) = false

theorem isFile_of_adds {made : List Location} {p : Location} (h : FileTree.Adds made t t')
    (hf : t'.isFile p = true) : t.isFile p = true := by
  obtain ⟨doc, hd⟩ := FileTree.isFile_iff.1 hf
  exact FileTree.isFile_iff.2 ⟨doc, h.node?_of_file hd⟩

theorem Abandoned.adds {made : List Location} (h : Abandoned dir t)
    (ha : FileTree.Adds made t t') : Abandoned dir t' where
  owner := Bool.eq_false_iff.2 fun hf => Bool.eq_false_iff.1 h.owner (isFile_of_adds ha hf)
  runs id hi := Bool.eq_false_iff.2 fun hf =>
    Bool.eq_false_iff.1 (h.runs id hi) (isFile_of_adds ha hf)

theorem abandoned_remove (hne : dir ≠ []) : Abandoned dir (t.remove dir) where
  owner := Bool.eq_false_iff.2 (not_isFile_remove hne)
  runs _ _ := Bool.eq_false_iff.2 (not_isFile_remove hne)

end Step

section History

/-- A run was recorded in one of the visits, by the owner of an archive. -/
def RecordedFor (visits : List Visit) (w : World) (z : Archive) (id : String) : Prop :=
  ∃ before v after, visits = before ++ v :: after ∧ v.Records id (afterVisits before w) ∧
    SameOwner v.archive z

theorem RecordedFor.concat (h : RecordedFor visits w z id) (v : Visit) :
    RecordedFor (visits ++ [v]) w z id := by
  obtain ⟨before, u, after, rfl, hu, hs⟩ := h
  exact ⟨before, u, after ++ [v], by simp, hu, hs⟩

theorem RecordedFor.congr (h : RecordedFor visits w z id) (hs : SameOwner z a) :
    RecordedFor visits w a id := by
  obtain ⟨before, u, after, hv, hu, hz⟩ := h
  exact ⟨before, u, after, hv, hu, hz.trans hs⟩

/-- An archive holds a directory, and if it is not of the first owner, the runs are its own. -/
structure HeldBy (a : Archive) (dir : Location) (visits : List Visit) (w₀ : World) (z : Archive)
    (t : FileTree) : Prop where
  owns : Owns z t
  directory : Path.resolve z.directory = dir
  recorded : ¬ SameOwner a z → ∀ id, Path.Plain id → t.isFile (z.recordFile id) = true →
    RecordedFor visits w₀ z id

/-- A directory is held by an archive, or neither owner nor run is there. -/
def Kept (a : Archive) (dir : Location) (visits : List Visit) (w₀ : World) (t : FileTree) : Prop :=
  (∃ z, HeldBy a dir visits w₀ z t) ∨ Abandoned dir t

theorem Kept.concat (h : Kept a dir visits w₀ t) (v : Visit) : Kept a dir (visits ++ [v]) w₀ t := by
  refine h.imp_left fun ⟨z, hz⟩ => ⟨z, hz.owns, hz.directory, fun hne id hi hf => ?_⟩
  exact (hz.recorded hne id hi hf).concat v

theorem recordFile_of_to (hv : v.To dir) (hi : Path.Plain id) :
    v.archive.recordFile id = dir ++ ["data", id, recordName] := by
  rw [recordFile_eq_directory hi, hv.directory]

theorem ownerFile_of_to (hv : v.To dir) : v.archive.ownerFile = dir ++ ["campaign.json"] := by
  rw [ownerFile_eq, hv.directory]

theorem HeldBy.ownerFile_eq (h : HeldBy a dir visits w₀ z t) (hv : v.To dir) :
    z.ownerFile = v.archive.ownerFile := by
  rw [ownerFile_of_to hv, Archive.ownerFile_eq, h.directory]

/-- The record of the owner is in the way of all that takes hold of the directory by a path that
leads there. -/
theorem HeldBy.finds (h : HeldBy a dir visits w₀ z w.files) (hv : v.To dir)
    (hu : v.Undisturbed w) : w.files.finds v.archive.ownerPath = true := by
  obtain ⟨o, ho, -⟩ := h.owns
  exact hu.visible (FileTree.exists?_of_isFile (h.ownerFile_eq hv ▸ ho.isFile))

theorem isFile_recordFile_of_cleared (hi : Path.Plain id) (hne : Path.resolve a.directory ≠ [])
    (hc : Claimed a tools (t.remove (Path.resolve a.directory)) t') :
    ¬ t'.isFile (a.recordFile id) = true := by
  intro hf
  have hf := hc.isFile (recordFile_ne_ownerFile hi) hf
  rw [recordFile_eq_directory hi] at hf
  exact not_isFile_remove hne hf

/-- The runs that are there when another archive has taken hold were recorded for its owner. -/
theorem Kept.recorded_of_enters (h : Kept a dir visits w₀ w.files) (hv : v.To dir)
    (hu : v.Undisturbed w) (he : v.Enters w w') (hs : ¬ SameOwner a v.archive)
    (hi : Path.Plain id) (hf : w'.files.isFile (v.archive.recordFile id) = true) :
    RecordedFor visits w₀ v.archive id := by
  obtain ⟨cause, hx⟩ | ht := takesHold_setup hv.clock he
  · cases hx
  generalize w'.files = t' at ht hf
  generalize hok : (Except.ok () : Except Error Unit) = y at ht
  cases ht with
  | refused | malformed | unrecorded | cleared => cases hok
  | @reused o ho hown =>
    obtain ⟨-, ho⟩ := readOwner_eq_ok_iff.1 ho
    rcases h with ⟨z, hz⟩ | habandoned
    · obtain ⟨o', ho', hown'⟩ := hz.owns
      obtain rfl := ho.unique (hz.ownerFile_eq hv ▸ ho')
      have hsame := sameOwner_of_isOwnedBy hown' hown
      have hfile : z.recordFile id = v.archive.recordFile id := by
        rw [recordFile_of_to hv hi, recordFile_eq_directory hi, hz.directory]
      exact (hz.recorded (fun ha => hs (ha.trans hsame)) id hi (hfile ▸ hf)).congr hsame
    · have hn := ho.isFile
      rw [ownerFile_of_to hv, habandoned.owner] at hn
      cases hn
  | claimed hfinds hc =>
    rcases h with ⟨z, hz⟩ | habandoned
    · rw [hz.finds hv hu] at hfinds
      cases hfinds
    · have hf := hc.isFile (recordFile_ne_ownerFile hi) hf
      rw [recordFile_of_to hv hi, habandoned.runs id hi] at hf
      cases hf
  | overwritten ho hown hw hne hc => exact absurd hf (isFile_recordFile_of_cleared hi hne hc)

theorem Kept.of_error {e : Error} (h : Kept a dir visits w₀ w.files) (hv : v.To dir) (hu : v.Undisturbed w)
    (he : (v.archive.setup v.tools).outcome w = (.error e, w')) :
    Kept a dir visits w₀ w'.files := by
  obtain ⟨cause, hx⟩ | ht := takesHold_setup hv.clock he
  · have hs := hu.succeeds cause
    rw [he] at hs
    exact absurd hx hs
  generalize w'.files = t' at ht ⊢
  generalize herror : (Except.error e : Except Error Unit) = y at ht
  cases ht with
  | reused | claimed | overwritten => cases herror
  | refused | malformed => exact h
  | unrecorded htree hfinds ha =>
    rcases h with ⟨z, hz⟩ | habandoned
    · rw [hz.finds hv hu] at hfinds
      cases hfinds
    · exact .inr (habandoned.adds ha)
  | cleared htree ho hown hw hne ha =>
    rw [hv.directory] at hne ha
    exact .inr ((abandoned_remove hne).adds ha)

theorem kept_afterVisits (ha : Owns a w₀.files) (hdir : Path.resolve a.directory = dir)
    (hr : Regular dir visits w₀) :
    Kept a dir visits w₀ (afterVisits visits w₀).files := by
  induction visits using List.reverseRecOn with
  | nil =>
    refine .inl ⟨a, ha, hdir, fun hs => absurd ?_ hs⟩
    obtain ⟨o, -, hown⟩ := ha
    exact sameOwner_of_isOwnedBy hown hown
  | append_singleton visits v ih =>
    have hvisits : Regular dir visits w₀ := by
      refine ⟨fun u hu => hr.leads u (List.mem_append_left _ hu), fun before u after hs => ?_⟩
      exact hr.undisturbed before u (after ++ [v]) (by simp [hs])
    have hk := ih hvisits
    have hv : v.To dir := hr.leads v (List.mem_append_right _ (List.mem_singleton_self v))
    have hu : v.Undisturbed (afterVisits visits w₀) := hr.undisturbed visits v [] rfl
    rw [afterVisits_concat, Visit.outcome]
    cases ho : (v.archive.setup v.tools).outcome (afterVisits visits w₀) with
    | mk x w' =>
      cases x with
      | error e =>
        rw [Session.outcome_bind_of_error ho]
        exact (hk.of_error hv hu ho).concat v
      | ok y =>
        rw [Session.outcome_bind_of_ok ho]
        obtain ⟨cause, hx⟩ | ht := takesHold_setup hv.clock ho
        · cases hx
        have hb := ht.belongsTo
        refine .inl ⟨v.archive, hb.owns.congr (hv.work w' hb.settled), hv.directory, ?_⟩
        intro hs id hi hf
        -- A run that is there at the end was there when the visit began, or is recorded by it.
        cases hf' : w'.files.isFile (v.archive.recordFile id) with
        | true => exact (hk.recorded_of_enters hv hu ho hs hi hf').concat v
        | false =>
          obtain ⟨o, -, hown⟩ := hb.owns
          exact ⟨visits, v, [], rfl, ⟨w', ho, hf', hf⟩, sameOwner_of_isOwnedBy hown hown⟩

end History

section Results

/-- Why an archive does not take hold of its directory, and what is left then: all, unless the path of
the simulator's tree is no text, which is noticed only after the directory was made or cleared. -/
structure Refused (a : Archive) (t t' : FileTree) (e : Error) : Prop where
  cause : (∃ o, a.readOwner t = .ok o ∧ a.isOwnedBy o = false ∧ a.overwrites = false ∧
      e = .mismatch a.directory o.script) ∨
    (a.readOwner t = .error .malformed ∧ e = .malformed) ∨
    a.treeText? = none ∧ e = .unrecordable
  unchanged : e ≠ .unrecordable → t' = t
  lost : e = .unrecordable →
    t.finds a.ownerPath = false ∧ FileTree.Adds (Path.way a.runsFolder) t t' ∨
    (∃ o, a.readOwner t = .ok o ∧ a.isOwnedBy o = false) ∧ a.overwrites = true ∧
      FileTree.Adds (Path.way a.runsFolder) (t.remove (Path.resolve a.directory)) t'

/-- What is left once an archive has taken hold of its directory: all if it was its own, or if no record
of an owner was found, and nothing if it was another one's. To take hold again changes nothing. -/
structure Held (a : Archive) (tools : Tools) (w w' : World) : Prop where
  belongsTo : a.BelongsTo w'.files
  reused : a.BelongsTo w.files → w'.files = w.files
  claimed : w.files.finds a.ownerPath = false → Claimed a tools w.files w'.files
  overwritten : w.files.finds a.ownerPath = true → ¬ a.BelongsTo w.files →
    (∃ o, a.readOwner w.files = .ok o) ∧ a.overwrites = true ∧
      ∀ p n, Path.resolve a.directory <+: p → w'.files.node? p = some n →
        p = a.ownerFile ∨ n = .folder ∧ p ∈ Path.way a.runsFolder
  again : ∀ tools', ∃ log, (a.setup tools').outcome w' = (.ok (), { w' with log })

theorem not_belongsTo {o : Owner} (ho : a.readOwner t = .ok o) (hown : a.isOwnedBy o = false) :
    ¬ a.BelongsTo t := by
  rintro ⟨o', ho', hown'⟩
  obtain rfl := Except.ok.inj (ho.symm.trans ho')
  rw [hown] at hown'
  cases hown'

theorem TakesHold.refused_of_error {e : Error} (h : TakesHold a tools t (.error e) t') :
    Refused a t t' e := by
  generalize hx : (Except.error e : Except Error Unit) = y at h
  cases h with
  | reused | claimed | overwritten => cases hx
  | refused ho hown hw =>
    cases hx
    exact ⟨.inl ⟨_, ho, hown, hw, rfl⟩, fun _ => rfl, by rintro ⟨⟩⟩
  | malformed ho =>
    cases hx
    exact ⟨.inr (.inl ⟨ho, rfl⟩), fun _ => rfl, by rintro ⟨⟩⟩
  | unrecorded htree hf ha =>
    cases hx
    exact ⟨.inr (.inr ⟨htree, rfl⟩), fun hn => absurd rfl hn, fun _ => .inl ⟨hf, ha⟩⟩
  | cleared htree ho hown hw hne ha =>
    cases hx
    exact ⟨.inr (.inr ⟨htree, rfl⟩), fun hn => absurd rfl hn,
      fun _ => .inr ⟨⟨_, ho, hown⟩, hw, ha⟩⟩

theorem TakesHold.held (h : TakesHold a tools w.files (.ok ()) w'.files) : Held a tools w w' := by
  have hb := h.belongsTo
  refine ⟨hb, ?_, ?_, ?_, exists_outcome_setup_of_belongsTo hb⟩
  all_goals
    generalize w'.files = t' at h
    generalize hx : (Except.ok () : Except Error Unit) = y at h
  · intro hown
    cases h with
    | refused | malformed | unrecorded | cleared => cases hx
    | reused => rfl
    | claimed hf =>
      obtain ⟨o, ho, -⟩ := hown
      rw [finds_of_readOwner ho] at hf
      cases hf
    | overwritten ho hn => exact absurd hown (not_belongsTo ho hn)
  · intro hf
    cases h with
    | refused | malformed | unrecorded | cleared => cases hx
    | claimed _ hc => exact hc
    | reused ho | overwritten ho =>
      rw [finds_of_readOwner ho] at hf
      cases hf
  · intro hf hn
    cases h with
    | refused | malformed | unrecorded | cleared => cases hx
    | reused ho hown => exact absurd ⟨_, ho, hown⟩ hn
    | claimed hf' =>
      rw [hf] at hf'
      cases hf'
    | overwritten ho _ hw hne hc => exact ⟨⟨_, ho⟩, hw, fun p n => hc.eq_of_cleared hne⟩

end Results

/-- If no operation on the files fails, an archive either takes hold of its directory or is refused.
After any visits of several archives, each of which finds the record of the owner if there is one,
the runs that another archive finds when it has taken hold were recorded by visits of its owner. -/
theorem setup_clears_other_owner (a : Archive) (tools : Tools) (w w' : World)
    (x : Except Error Unit) (hnow : ∀ moment, Timestamp.isValid (tools.now moment) = true)
    (hio : ∀ cause, x ≠ .error (.io cause)) (h : (a.setup tools).outcome w = (x, w')) :
    (∀ e, x = .error e → Refused a w.files w'.files e) ∧
    (x = .ok () → Held a tools w w' ∧
      ∀ (work : Session Error Unit) (visits : List Visit) (u : Visit) (w₂ : World),
        LeavesOwner a work →
        Regular (Path.resolve a.directory) (visits ++ [u]) (work.outcome w').2 →
        ¬ SameOwner a u.archive → u.Enters (afterVisits visits (work.outcome w').2) w₂ →
        ∀ id, Path.Plain id → w₂.files.isFile (u.archive.recordFile id) = true →
          RecordedFor visits (work.outcome w').2 u.archive id) := by
  have ht : TakesHold a tools w.files x w'.files := by
    obtain ⟨cause, hx⟩ | ht := takesHold_setup hnow h
    · exact absurd hx (hio cause)
    · exact ht
  refine ⟨?_, ?_⟩
  · rintro e rfl
    exact ht.refused_of_error
  · rintro rfl
    refine ⟨ht.held, ?_⟩
    intro work visits u w₂ hwork hr hs he id hi hf
    have hb := ht.belongsTo
    have hvisits : Regular (Path.resolve a.directory) visits (work.outcome w').2 := by
      refine ⟨fun v hv => hr.leads v (List.mem_append_left _ hv), fun before v after hsplit => ?_⟩
      exact hr.undisturbed before v (after ++ [u]) (by simp [hsplit])
    have hk := kept_afterVisits (hb.owns.congr (hwork w' hb.settled)) rfl hvisits
    exact hk.recorded_of_enters (hr.leads u (by simp)) (hr.undisturbed visits u [] rfl) he hs hi hf

section Rivals

/-- Another script, which overwrites. -/
def rival : Visit where
  archive := { oneScript with script := "rival", overwrites := true }
  tools := leaving []
  work := pure ()

def heldWorld : World := ((oneScript.setup (leaving [])).outcome readyWorld).2

/-- The owner has recorded a run. -/
def recordedWorld : World := ((oneScript.runMissing (leaving []) sameTwice 1).outcome heldWorld).2

def rivalWorld : World := ((rival.archive.setup rival.tools).outcome recordedWorld).2

theorem isValid_now (effects : List Effect) (moment : Nat) :
    Timestamp.isValid ((leaving effects).now moment) = true := by
  change Timestamp.isValid "2020-01-01T00:00:00Z" = true
  decide +kernel

theorem setup_clears_other_owner_rival :
    (oneScript.setup (leaving [])).outcome readyWorld = (.ok (), heldWorld) ∧
      recordedWorld.files.isFile (oneScript.recordFile "bd76fa196301c598") = true ∧
      rival.Enters recordedWorld rivalWorld ∧
      rivalWorld.files.isFile (rival.archive.recordFile "bd76fa196301c598") = false := by
  have hfirst : ((oneScript.setup (leaving [])).outcome readyWorld).1 = .ok () := by decide +kernel
  have henters : ((rival.archive.setup rival.tools).outcome recordedWorld).1 = .ok () := by
    decide +kernel
  have hfirst : (oneScript.setup (leaving [])).outcome readyWorld = (.ok (), heldWorld) :=
    Prod.ext hfirst rfl
  have henters : rival.Enters recordedWorld rivalWorld := Prod.ext henters rfl
  have hregular : Regular (Path.resolve oneScript.directory) ([] ++ [rival]) recordedWorld := by
    refine ⟨fun v hv => ?_, fun before v after hsplit => ?_⟩
    · rw [List.nil_append, List.mem_singleton] at hv
      subst hv
      exact ⟨rfl, isValid_now [], fun _ _ => rfl⟩
    · obtain ⟨rfl, rfl, rfl⟩ : before = [] ∧ v = rival ∧ after = [] := by
        rcases before with - | ⟨b, before⟩ <;> simp_all
      have hplain : ".." ∉ Path.pieces rival.archive.directory := by decide
      refine ⟨visible_of_plain hplain, fun cause hx => ?_⟩
      have henters : (rival.archive.setup rival.tools).outcome recordedWorld =
          (.ok (), rivalWorld) := henters
      rw [show afterVisits [] recordedWorld = recordedWorld from rfl, henters] at hx
      cases hx
  have hne : ¬ SameOwner oneScript rival.archive := fun h => absurd h.script (by decide)
  have hplain : Path.Plain "bd76fa196301c598" := ⟨by decide, by decide, by decide, by decide⟩
  obtain ⟨-, hheld⟩ := setup_clears_other_owner oneScript (leaving []) readyWorld heldWorld (.ok ())
    (isValid_now []) (by rintro _ ⟨⟩) hfirst
  obtain ⟨-, hvisits⟩ := hheld rfl
  refine ⟨hfirst, by decide +kernel, henters, Bool.eq_false_iff.2 fun hf => ?_⟩
  obtain ⟨before, v, after, hv, -⟩ := hvisits (oneScript.runMissing (leaving []) sameTwice 1) []
    rival rivalWorld (leavesOwner_runMissing _ _ _ _) hregular hne henters _ hplain hf
  exact absurd hv.symm (by simp)

/-- The same directory by a path through a folder that is not there yet. -/
def hidden : Archive := { oneScript with script := "rival", directory := "missing/../campaign" }

/-- A tree with a path that is no text. -/
def unnamed : Archive := { oneScript with tree := ⟨#[0xff]⟩, overwrites := true }

/-- The owner of a directory is overwritten without a warning by a path that hides its record, and the
runs stay. A tree that cannot be recorded is refused, but the runs are gone. -/
theorem setup_ignores_owner :
    (((hidden.setup (leaving [])).outcome recordedWorld).1 = .ok () ∧
      (hidden.readOwner ((hidden.setup (leaving [])).outcome recordedWorld).2.files).toOption.map
        Owner.script = some "rival" ∧
      hidden.isDone ((hidden.setup (leaving [])).outcome recordedWorld).2.files
        "bd76fa196301c598" = true) ∧
    ((unnamed.setup (leaving [])).outcome recordedWorld).1 = .error .unrecordable ∧
      unnamed.isDone ((unnamed.setup (leaving [])).outcome recordedWorld).2.files
        "bd76fa196301c598" = false := by
  decide +kernel

end Rivals

end SimCampaign.Archive
