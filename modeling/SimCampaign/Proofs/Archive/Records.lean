import SimCampaign.Proofs.Archive.Progress

/-! What becomes of the record of a run while a pool works: it is written by an execution of that run,
or stays as it is, unless a simulator or a fault puts something in its place. -/

namespace SimCampaign.Archive

variable {a : Archive} {tools : Tools} {fits : List Task → List Task → Prop} {r : PendingRun}
  {rs : List PendingRun} {w₀ w w' : World} {tasks : List Task} {starts : List Start}
  {finished : List PendingRun} {t t' : FileTree} {id : String}

section Last
variable {rs : List PendingRun}

def LastOf (rs : List PendingRun) (id : String) (r : PendingRun) : Prop :=
  ∃ before after, rs = before ++ r :: after ∧ r.id = id ∧ id ∉ after.map PendingRun.id

theorem LastOf.mem (h : LastOf rs id r) : r ∈ rs := by
  obtain ⟨before, after, rfl, -, -⟩ := h
  exact List.mem_append_right _ (List.mem_cons_self ..)

theorem LastOf.id_eq (h : LastOf rs id r) : r.id = id := by
  obtain ⟨before, after, -, hid, -⟩ := h
  exact hid

theorem LastOf.append_left (h : LastOf rs id r) (earlier : List PendingRun) :
    LastOf (earlier ++ rs) id r := by
  obtain ⟨before, after, rfl, hid, hn⟩ := h
  exact ⟨earlier ++ before, after, (List.append_assoc ..).symm, hid, hn⟩

theorem LastOf.append_right (h : LastOf rs id r) {later : List PendingRun}
    (hl : id ∉ later.map PendingRun.id) : LastOf (rs ++ later) id r := by
  obtain ⟨before, after, rfl, hid, hn⟩ := h
  refine ⟨before, after ++ later, List.append_assoc .., hid, ?_⟩
  rw [List.map_append, List.mem_append, not_or]
  exact ⟨hn, hl⟩

end Last

section Settled

/-- Whether the path to the folder of the runs leads only through folders that are there, or that lie
above it. -/
def Settled (a : Archive) (t : FileTree) : Prop :=
  ∀ q ∈ Path.way a.runsFolder, q <+: Path.resolve a.runsFolder ∨ t.isFolder q = true

theorem plain_data : Path.Plain "data" := ⟨by decide, by decide, by decide, by decide⟩

theorem settled_of_plain (h : ".." ∉ Path.pieces a.directory) (t : FileTree) : Settled a t := by
  intro q hq
  refine .inl ?_
  rw [runsFolder, Path.resolve_join_plain _ plain_data]
  rcases (Path.mem_way_join _ plain_data).1 hq with hq | rfl
  · exact (Path.prefix_resolve h hq).trans (List.prefix_append _ _)
  · exact List.prefix_refl _

theorem Settled.grows (h : Settled a t) (hg : ∀ q, t.isFolder q = true → t'.isFolder q = true) :
    Settled a t' := fun q hq => (h q hq).imp_right (hg q)

theorem recordFile_eq (hi : Path.Plain id) :
    a.recordFile id = Path.resolve a.runsFolder ++ [id, recordName] := by
  rw [recordFile, runFolder_eq hi, List.append_assoc]
  rfl

theorem Settled.isDone_iff (h : Settled a t) (hi : Path.Plain id) :
    a.isDone t id = true ↔ t.exists? (a.recordFile id) = true := by
  rw [Archive.isDone_iff, and_iff_right_of_imp]
  intro he q hq
  have habove {p : Location} (hp : p <+: a.runFolder id) : t.isFolder p = true := by
    obtain ⟨rest, hrest⟩ := hp
    rw [recordFile, ← hrest, List.append_assoc] at he
    exact FileTree.isFolder_of_above he (by simp)
  rcases (mem_way_runPath hi).1 hq with hq | rfl
  · rcases h q hq with hp | hf
    · exact habove (runFolder_eq hi ▸ hp.trans (List.prefix_append _ _))
    · exact hf
  · exact habove (List.prefix_refl _)

theorem Settled.isFolder_child (h : Settled a t) {j name : String} (hi : Path.Plain id)
    (hj : Path.Plain j) (hm : a.runFolder id ++ [name] ∈ Path.way (a.runPath j)) :
    t.isFolder (a.runFolder id ++ [name]) = true := by
  have hlength : (a.runFolder id ++ [name]).length = (Path.resolve a.runsFolder).length + 2 := by
    rw [runFolder_eq hi]
    simp
  rcases (mem_way_runPath hj).1 hm with hm | hm
  · rcases h _ hm with hp | hf
    · have := hp.length_le
      omega
    · exact hf
  · have hj := congrArg List.length (hm.trans (runFolder_eq hj))
    rw [hlength] at hj
    simp at hj

end Settled

section Records

/-- Whether the record of an id is that of a run, as it was started at some moment. -/
def KeepsRecord (a : Archive) (t : FileTree) (id : String) (r : PendingRun) : Prop :=
  ∃ tools moment, t.node? (a.recordFile id) =
    some (.file (.text (r.record tools moment).toJson.renderIndented))

theorem KeepsRecord.congr (h : KeepsRecord a t id r)
    (hn : t'.node? (a.recordFile id) = t.node? (a.recordFile id)) : KeepsRecord a t' id r := by
  obtain ⟨tools, moment, hk⟩ := h
  exact ⟨tools, moment, hn.trans hk⟩

/-- Whether the simulator itself leaves something in the place of the record. -/
def LeavesRecord (a : Archive) (tools : Tools) (s : Start) : Prop :=
  ∃ e, tools.simulator.run s.moment (commandLine s.run.params) a.libraries = .ok e ∧
    ∃ f ∈ e.effects, f.place = [recordName]

/-- Whether something other than a record may have come in the place of the record of an id: the
simulator left it, or a fault of the disk stopped the writing of the record. -/
def Spoiled (a : Archive) (tools : Tools) (w w' : World) (starts : List Start) (id : String) :
    Prop :=
  (∃ s ∈ starts, s.id = id ∧ LeavesRecord a tools s) ∨
    ∃ moment f, w.clock ≤ moment ∧ moment < w'.clock ∧ w.disk moment = some f ∧
      f.reached (a.recordFile id) = true

theorem Spoiled.mono (h : Spoiled a tools w₀ w starts id) (hc : w.clock ≤ w'.clock)
    (more : List Start) : Spoiled a tools w₀ w' (starts ++ more) id := by
  rcases h with ⟨s, hs, hid, hl⟩ | ⟨moment, f, hfrom, hto, hf⟩
  · exact .inl ⟨s, List.mem_append_left _ hs, hid, hl⟩
  · exact .inr ⟨moment, f, hfrom, hto.trans_le hc, hf⟩

theorem mem_steps_iff {moment : Nat} {e : Execution} {s : Step} : s ∈ steps tools r moment e ↔
    (∃ f ∈ e.effects, s = .effect f) ∨ s = .keep Run.standardOutput (.bytes e.output) ∨
      s = .keep Run.standardError (.text (errorText e)) ∨
        s = .record (.text (r.record tools moment).toJson.renderIndented) := by
  simp [steps, eq_comm]

theorem Underway.mem_steps {s : Start} {e : Execution} {step : Step} {rest : List Step}
    (h : Underway a tools r (step :: rest) t s e) : step ∈ steps tools r s.moment e :=
  h.suffix.subset (List.mem_cons_self ..)

/-- Nothing but the record is kept under its name. -/
theorem Underway.ne_recordFile {s : Start} {e : Execution} {name : String} {doc : Document}
    {rest : List Step} (h : Underway a tools r (.keep name doc :: rest) t s e) :
    a.recordFile r.id ≠ a.runFolder r.id ++ [name] := by
  intro he
  rw [recordFile, List.append_cancel_left_eq] at he
  have hname : recordName = name := (List.cons.inj he).1
  rcases mem_steps_iff.1 h.mem_steps with ⟨f, -, hf⟩ | hf | hf | hf
  · cases hf
  · cases hf
    exact absurd hname (by decide)
  · cases hf
    exact absurd hname (by decide)
  · cases hf

theorem Underway.keepsRecord {s : Start} {e : Execution} {doc : Document} {rest : List Step}
    (h : Underway a tools r (.record doc :: rest) w.files s e)
    (hk : (wrote w (a.recordFile r.id) doc).1 = .ok ()) :
    KeepsRecord a (wrote w (a.recordFile r.id) doc).2 r.id r := by
  have hdoc : doc = .text (r.record tools s.moment).toJson.renderIndented := by
    rcases suffix_steps_cases h.suffix with ⟨hs, -⟩ | ⟨hs, -⟩
    · exact (Step.record.inj hs)
    · cases hs
  exact ⟨tools, s.moment, hdoc ▸ h.isFile_wrote hk⟩

theorem wrote_cases (w : World) (p : Location) (doc : Document) :
    (wrote w p doc = (.ok (), w.files.write p doc) ∧ w.disk w.clock = none) ∨
      ∃ e, wrote w p doc = (.error e, w.files) ∨ ∃ f data, w.disk w.clock = some f ∧
        f.reached p = true ∧ wrote w p doc = (.error e, w.files.write p (.bytes data)) :=
  FileTree.writeAt_cases p doc (w.disk w.clock) w.files

section Step
variable {s s' : Stage} {starts' : List Start} {finished' : List PendingRun}

theorem Advanced.node?_recordFile_of_ne (h : Advanced a tools r w s s' w' starts' finished')
    (hr : Path.Plain r.id) (hi : Path.Plain id) (hne : id ≠ r.id) :
    w'.files.node? (a.recordFile id) = w.files.node? (a.recordFile id) ∨
      a.recordFile id ∈ Path.way (a.runPath r.id) ∧ w.files.node? (a.recordFile id) = none ∧
        w'.files.node? (a.recordFile id) = some .folder := by
  have hout : ∀ j ∈ [r.id], ¬ a.runFolder j <+: a.recordFile id := by
    intro j hj
    rw [List.mem_singleton.1 hj]
    exact not_runFolder_above hr hi (Ne.symm hne) [recordName]
  refine (h.within _ hout).imp_right ?_
  rintro ⟨⟨j, hj, hway⟩, hn⟩
  exact ⟨List.mem_singleton.1 hj ▸ hway, hn⟩

theorem Advanced.node?_recordFile_self (h : Advanced a tools r w s s' w' starts' finished')
    (hu : ∀ rest, s = .running rest →
      ∃ s ∈ starts, ∃ e, Underway a tools r rest w.files s e) :
    w'.files.node? (a.recordFile r.id) = w.files.node? (a.recordFile r.id) ∨
      (a.recordFile r.id ∈ Path.way (a.runPath r.id) ∧
        w.files.node? (a.recordFile r.id) = none ∧
        w'.files.node? (a.recordFile r.id) = some .folder) ∨
      Spoiled a tools w w' starts r.id ∨
        (finished' = [r] ∧ KeepsRecord a w'.files r.id r) := by
  have hmade := (FileTree.adds_makeFolders (a.runPath r.id) (w.disk w.clock) w.files)
    (a.recordFile r.id)
  cases h with
  | took => exact .inl rfl
  | refused | launched =>
    rcases hmade with h | h
    · exact .inl h
    · exact .inr (.inl h)
  | acted f rest =>
    obtain ⟨start, hs, e, hu⟩ := hu _ rfl
    by_cases hp : f.place = [recordName]
    · refine .inr (.inr (.inl (.inl ⟨start, hs, congrArg PendingRun.id hu.run_eq, e, ?_, f, ?_, hp⟩)))
      · rw [hu.run_eq]
        exact hu.execution
      · rcases mem_steps_iff.1 hu.mem_steps with ⟨g, hg, he⟩ | h | h | h
        · cases he
          exact hg
        all_goals cases h
    · refine .inl (Effect.node?_apply_of_ne fun he => hp ?_)
      rw [recordFile, List.append_cancel_left_eq] at he
      exact he.symm
  | kept name doc rest hk =>
    obtain ⟨start, hs, e, hu⟩ := hu _ rfl
    exact .inl (FileTree.node?_writeAt_of_ne hu.ne_recordFile)
  | unkept name doc rest cause hk =>
    obtain ⟨start, hs, e, hu⟩ := hu _ rfl
    exact .inl (FileTree.node?_writeAt_of_ne hu.ne_recordFile)
  | recorded doc rest hk =>
    obtain ⟨start, hs, e, hu⟩ := hu _ rfl
    exact .inr (.inr (.inr ⟨rfl, hu.keepsRecord hk⟩))
  | unrecorded doc rest cause hk =>
    obtain ⟨hw, -⟩ | ⟨e, hw | ⟨f, data, hf, hreached, -⟩⟩ := wrote_cases w (a.recordFile r.id) doc
    · rw [hw] at hk
      exact absurd rfl hk
    · rw [hw]
      exact .inl rfl
    · exact .inr (.inr (.inl (.inr ⟨w.clock, f, Nat.le_refl _, Nat.lt_succ_self _, hf, hreached⟩)))

theorem Advanced.keepsRecord_of_kept
    (h : Advanced a tools r w s (.running []) w' starts' finished')
    (hu : ∀ rest, s = .running rest →
      ∃ s ∈ starts, ∃ e, Underway a tools r rest w.files s e) :
    finished' = [r] ∧ KeepsRecord a w'.files r.id r := by
  have hlast {step : Archive.Step} (hs : s = .running [step]) : step.isRecord = true := by
    obtain ⟨start, -, e, hu⟩ := hu _ hs
    rcases suffix_steps_cases hu.suffix with ⟨rfl, -⟩ | ⟨-, hn⟩
    · rfl
    · exact absurd rfl hn
  generalize hs' : Stage.running [] = s' at h
  cases h with
  | took | refused | unkept | unrecorded => cases hs'
  | launched e hl => exact absurd (Stage.running.inj hs').symm (steps_ne_nil _ _ _ _)
  | acted f rest =>
    obtain rfl := Stage.running.inj hs'
    cases hlast rfl
  | kept name doc rest hk =>
    obtain rfl := Stage.running.inj hs'
    cases hlast rfl
  | recorded doc rest hk =>
    obtain ⟨start, -, e, hu⟩ := hu _ rfl
    exact ⟨rfl, hu.keepsRecord hk⟩

end Step

theorem Spoiled.of_moves (h : Spoiled a tools w w' starts id)
    (hm : Moves a tools fits rs w₀ tasks w starts finished) (more : List Start) :
    Spoiled a tools w₀ w' (starts ++ more) id := by
  rcases h with ⟨s, hs, hid, hl⟩ | ⟨moment, f, hfrom, hto, hf, hreached⟩
  · exact .inl ⟨s, List.mem_append_left _ hs, hid, hl⟩
  · exact .inr ⟨moment, f, hm.clock_le.trans hfrom, hto, hm.disk_eq ▸ hf, hreached⟩

/-- A record that was there stays, and none comes but by an execution, unless one is spoiled. -/
theorem Moves.node?_recordFile (h : Moves a tools fits rs w₀ tasks w starts finished)
    (hs : Settled a w₀.files) (hp : ∀ r ∈ rs, Path.Plain r.id) (hi : Path.Plain id) :
    w.files.node? (a.recordFile id) = w₀.files.node? (a.recordFile id) ∨
      Spoiled a tools w₀ w starts id ∨ ∃ r ∈ finished, r.id = id ∧ KeepsRecord a w.files id r := by
  induction h with
  | start => exact .inl rfl
  | @step before after task s w w' starts starts' finished finished' h fit advanced ih =>
    have hm : task ∈ before ++ task :: after := List.mem_append_right _ (List.mem_cons_self ..)
    have hr : Path.Plain task.run.id := hp _ (h.mem_of_mem hm)
    have hmade : ¬ (a.recordFile id ∈ Path.way (a.runPath task.run.id) ∧
        w.files.node? (a.recordFile id) = none ∧
          w'.files.node? (a.recordFile id) = some .folder) := by
      rintro ⟨hway, hn, -⟩
      have hf := (hs.grows fun q hq => h.grows.isFolder hq).isFolder_child hi hr hway
      exact absurd (hn.symm.trans (FileTree.isFolder_iff.1 hf)) (by rintro ⟨⟩)
    have hsame (he : w'.files.node? (a.recordFile id) = w.files.node? (a.recordFile id)) :
        w'.files.node? (a.recordFile id) = w₀.files.node? (a.recordFile id) ∨
          Spoiled a tools w₀ w' (starts ++ starts') id ∨
            ∃ r ∈ finished ++ finished', r.id = id ∧ KeepsRecord a w'.files id r := by
      rcases ih with h₀ | hspoiled | ⟨r, hr, hid, hk⟩
      · exact .inl (he.trans h₀)
      · exact .inr (.inl (hspoiled.mono advanced.clock_le _))
      · exact .inr (.inr ⟨r, List.mem_append_left _ hr, hid, hk.congr he⟩)
    by_cases hne : id = task.run.id
    · subst hne
      rcases advanced.node?_recordFile_self (h.underway task hm) with
        he | hfolder | hspoiled | ⟨rfl, hk⟩
      · exact hsame he
      · exact absurd hfolder hmade
      · exact .inr (.inl (hspoiled.of_moves h _))
      · exact .inr (.inr ⟨_, List.mem_append_right _ (List.mem_singleton_self _), rfl, hk⟩)
    · rcases advanced.node?_recordFile_of_ne hr hi hne with he | hfolder
      · exact hsame he
      · exact absurd hfolder hmade

/-- Once none of its runs is under way, the record of an id is that of the last run that was kept
under it. -/
theorem Moves.exists_lastOf (h : Moves a tools fits rs w₀ tasks w starts finished)
    (hp : ∀ r ∈ rs, Path.Plain r.id) (hi : Path.Plain id) {doc : Document}
    (hq : ∀ t ∈ tasks, t.run.id = id → t.stage = .waiting ∨ t.stage = .running [])
    (hd : w.files.node? (a.recordFile id) = some (.file doc)) :
    (∃ r, LastOf finished id r ∧ KeepsRecord a w.files id r) ∨
      id ∉ finished.map PendingRun.id ∧ w₀.files.node? (a.recordFile id) = some (.file doc) := by
  induction h with
  | start => exact .inr ⟨List.not_mem_nil, hd⟩
  | @step before after task s w w' starts starts' finished finished' h fit advanced ih =>
    have hm : task ∈ before ++ task :: after := List.mem_append_right _ (List.mem_cons_self ..)
    obtain ⟨-, hfinished⟩ := advanced.finished_eq_runAt fun step rest hs => h.isRecord_iff hm hs
    by_cases hne : id = task.run.id
    · -- The step of a run of this id is the one that keeps it.
      subst hne
      have hs : s = .running [] := by
        rcases hq { task with stage := s } (by simp) rfl with hw | hk
        · have hn := advanced.isWaiting
          cases hw
          cases hn
        · exact hk
      obtain ⟨rfl, hk⟩ := Advanced.keepsRecord_of_kept (hs ▸ advanced) (h.underway task hm)
      exact .inl ⟨task.run, ⟨finished, [], rfl, rfl, List.not_mem_nil⟩, hk⟩
    · have hnew : id ∉ finished'.map PendingRun.id := by
        rw [hfinished, runAt]
        split
        · simpa using hne
        · exact List.not_mem_nil
      have he : w'.files.node? (a.recordFile id) = w.files.node? (a.recordFile id) := by
        rcases advanced.node?_recordFile_of_ne (hp _ (h.mem_of_mem hm)) hi hne with he | ⟨-, -, hf⟩
        · exact he
        · rw [hf] at hd
          cases hd
      have hold : ∀ t ∈ before ++ task :: after, t.run.id = id →
          t.stage = .waiting ∨ t.stage = .running [] := by
        intro t ht hid
        rcases List.mem_append.1 ht with ht | ht
        · exact hq t (List.mem_append_left _ ht) hid
        · rcases List.mem_cons.1 ht with rfl | ht
          · exact absurd hid.symm hne
          · exact hq t (List.mem_append_right _ (List.mem_cons_of_mem _ ht)) hid
      rcases ih hold (he ▸ hd) with ⟨r, hl, hk⟩ | ⟨hn, h₀⟩
      · exact .inl ⟨r, hl.append_right hnew, hk.congr he⟩
      · refine .inr ⟨?_, h₀⟩
        rw [List.map_append, List.mem_append, not_or]
        exact ⟨hn, hnew⟩

end Records

end SimCampaign.Archive
