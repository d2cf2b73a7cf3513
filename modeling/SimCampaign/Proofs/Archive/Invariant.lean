import SimCampaign.Proofs.Archive.Ownership

/-! What holds of an archive after any history of calls, of deletions, and of whatever else leaves
the records alone: each run that is done has its own record. -/

namespace SimCampaign.Archive
open Param (Space)

variable {a : Archive} {tools : Tools} {r : PendingRun} {w w' : World} {x : Except Error Unit}
  {t t' : FileTree} {id : String} {ids : List String} {space : Space} {runs : Nat}

def Sound (a : Archive) (t : FileTree) : Prop :=
  ∀ id, Path.Plain id → a.isDone t id = true → ∃ r, r.id = id ∧ KeepsRecord a t id r

section Kept

theorem Sound.of_node?_eq (h : Sound a t) (hs : Settled a t) (hi : Path.Plain id)
    (hd : a.isDone t' id = true)
    (hn : t'.node? (a.recordFile id) = t.node? (a.recordFile id)) :
    ∃ r, r.id = id ∧ KeepsRecord a t' id r := by
  have he := (isDone_iff.1 hd).2
  rw [FileTree.exists?, hn] at he
  obtain ⟨r, hr, hk⟩ := h id hi ((hs.isDone_iff hi).2 he)
  exact ⟨r, hr, hk.congr hn⟩

/-- A call that succeeds leaves the record of the last run of each id that was missing, and all
others as they were. -/
theorem Sound.of_ok (h : Sound a w.files) (hs : Settled a w.files)
    (ho : (a.runMissing tools space runs).outcome w = (.ok (), w')) : Sound a w'.files := by
  intro id hi hd
  have hplain : ∀ j ∈ (a.missingRuns w.files space runs).map PendingRun.id, Path.Plain j :=
    List.forall_mem_map.2 fun _ hr => plain_id_of_mem_missingRuns hr
  by_cases hm : id ∈ (a.missingRuns w.files space runs).map PendingRun.id
  · obtain ⟨log, -, hx, -⟩ | ⟨log, log', tasks, w₁, starts, finished, hmoves, he, hx, rfl⟩ :=
      runMissing_cases (reached_runTasks a tools) ho
    · cases hx
    have hkept := he.kept_of_ok hx
    rw [← hmoves.map_run, List.map_map] at hm
    obtain ⟨task, ht, rfl⟩ := List.mem_map.1 hm
    obtain ⟨s, -, e, hu⟩ := hmoves.underway task ht [] (hkept task ht)
    obtain ⟨doc, hdoc⟩ := FileTree.isFile_iff.1 (hu.recorded rfl)
    obtain ⟨r, hl, hk⟩ | ⟨hn, -⟩ := hmoves.exists_lastOf
      (fun r hr => plain_id_of_mem_missingRuns hr) hi (fun t ht _ => .inr (hkept t ht)) hdoc
    · exact ⟨r, hl.id_eq, hk⟩
    · refine absurd (List.mem_map_of_mem ?_) hn
      rw [hmoves.finished_perm.mem_iff, runsAt_eq_map rfl hkept]
      exact List.mem_map_of_mem ht
  · exact h.of_node?_eq hs hi hd ((within_runMissing ho).node?_runFolder hs hplain hi hm _)

/-- A call that fails leaves no other records, unless one is spoiled. -/
theorem Sound.of_unspoiled (h : Sound a w.files) (hs : Settled a w.files)
    (ho : (a.runMissing tools space runs).outcome w = (x, w'))
    (hn : ∀ starts id, w'.started = w.started ++ starts → ¬ Spoiled a tools w w' starts id) :
    Sound a w'.files := by
  intro id hi hd
  obtain ⟨log, -, -, rfl⟩ | ⟨log, log', tasks, w₁, starts, finished, hmoves, -, -, rfl⟩ :=
    runMissing_cases (reached_runTasks a tools) ho
  · exact h id hi hd
  · rcases hmoves.node?_recordFile hs (fun r hr => plain_id_of_mem_missingRuns hr) hi with
      he | hspoiled | ⟨r, -, hid, hk⟩
    · exact h.of_node?_eq hs hi hd he
    · exact absurd hspoiled (hn starts id hmoves.started_eq)
    · exact ⟨r, hid, hk⟩

end Kept

/-- The states of an archive: without runs at first, then after calls that succeed, or in which nothing
has come in the place of a record but the record itself, and after anything that leaves the
records of the runs that are then done as they were, such as the deletion of others. -/
inductive Reachable (a : Archive) : FileTree → Prop
  | fresh {t : FileTree} (hs : Settled a t) (h : ∀ id, Path.Plain id → a.isDone t id = false) :
    Reachable a t
  | call {tools : Tools} {space : Space} {runs : Nat} {w w' : World} {x : Except Error Unit}
      (before : Reachable a w.files) (h : (a.runMissing tools space runs).outcome w = (x, w'))
      (hx : x = .ok () ∨ ∀ starts id, w'.started = w.started ++ starts →
        ¬ Spoiled a tools w w' starts id) :
      Reachable a w'.files
  | elsewhere {t t' : FileTree} (before : Reachable a t) (hs : Settled a t')
      (h : ∀ id, Path.Plain id → a.isDone t' id = true →
        t'.node? (a.recordFile id) = t.node? (a.recordFile id)) : Reachable a t'

theorem Reachable.settled (h : Reachable a t) : Settled a t := by
  induction h with
  | fresh hs h => exact hs
  | call before h hx ih => exact ih.grows fun _ => (grows_runMissing h).isFolder
  | elsewhere before hs h ih => exact hs

theorem Reachable.sound (h : Reachable a t) : Sound a t := by
  induction h with
  | fresh hs h =>
    intro id hi hd
    rw [h id hi] at hd
    cases hd
  | call before h hx ih =>
    rcases hx with rfl | hn
    · exact ih.of_ok before.settled h
    · exact ih.of_unspoiled before.settled h hn
  | elsewhere before hs h ih =>
    exact fun id hi hd => ih.of_node?_eq before.settled hi hd (h id hi hd)

section Closed

theorem Reachable.clears (h : Reachable a w.files) (hd : Direct a)
    (hp : ∀ id ∈ ids, Path.Plain id) (hc : Clears a ids w w') : Reachable a w'.files := by
  refine h.elsewhere ?_ fun id hi hdone => ?_
  · intro q hq
    refine (h.settled q hq).imp_right fun hf => ?_
    rwa [FileTree.isFolder_iff, hc.node?_of_outside fun j hj => hd j (hp j hj) q hq,
      ← FileTree.isFolder_iff]
  · refine (hc.node?_or _).resolve_right fun hn => ?_
    have he := (isDone_iff.1 hdone).2
    rw [FileTree.exists?, hn.2] at he
    cases he

theorem Reachable.removeRuns (h : Reachable a w.files) (hd : Direct a)
    (hp : ∀ id ∈ ids, Path.Plain id) : Reachable a ((a.removeRuns ids).outcome w).2.files :=
  h.clears hd hp (clears_removeRuns a ids w)

/-- A record of a run is not on the way to the folder of the runs. -/
theorem Reachable.not_mem_way (h : Reachable a t) (hi : Path.Plain id) :
    a.recordFile id ∉ Path.way a.runsFolder := by
  intro hm
  have hway : a.runFolder id ++ [recordName] ∈ Path.way (a.runPath id) :=
    (mem_way_runPath hi).2 (.inl hm)
  have hf := h.settled.isFolder_child hi hi hway
  obtain ⟨r, -, tools, moment, hk⟩ :=
    h.sound id hi ((h.settled.isDone_iff hi).2 (FileTree.exists?_of_isFolder hf))
  exact absurd (hk.symm.trans (FileTree.isFolder_iff.1 hf)) (by rintro ⟨⟩)

theorem Reachable.claimed (h : Reachable a t) (hc : Claimed a tools t t') : Reachable a t' := by
  refine h.elsewhere hc.belongsTo.settled fun id hi _ => ?_
  have hne := recordFile_ne_ownerFile (a := a) hi
  cases hn : t.node? (a.recordFile id) with
  | some n => exact hc.kept _ n hne hn
  | none =>
    cases hn' : t'.node? (a.recordFile id) with
    | none => rfl
    | some n => exact absurd (hc.added _ n hne hn hn').2 (h.not_mem_way hi)

/-- An archive is where it was, or without runs, once it has taken hold of its directory. -/
theorem Reachable.setup (h : Reachable a w.files)
    (hnow : ∀ moment, Timestamp.isValid (tools.now moment) = true)
    (ho : (a.setup tools).outcome w = (.ok (), w')) : Reachable a w'.files := by
  obtain ⟨cause, hx⟩ | ht := takesHold_setup hnow ho
  · cases hx
  have hs := ht.belongsTo.settled
  generalize w'.files = t' at ht hs
  generalize hok : (Except.ok () : Except Error Unit) = y at ht
  cases ht with
  | refused | malformed | unrecorded | cleared => cases hok
  | reused => exact h
  | claimed hf hc => exact h.claimed hc
  | overwritten ho hown hw hne hc =>
    refine h.elsewhere hs fun id hi hd => ?_
    obtain ⟨n, hn⟩ := FileTree.exists?_iff.1 (isDone_iff.1 hd).2
    have hbelow : Path.resolve a.directory <+: a.recordFile id := by
      rw [recordFile_eq_directory hi]
      exact List.prefix_append _ _
    rcases hc.eq_of_cleared hne hbelow hn with he | ⟨-, hm⟩
    · exact absurd he (recordFile_ne_ownerFile hi)
    · exact absurd hm (h.not_mem_way hi)

end Closed

end SimCampaign.Archive
