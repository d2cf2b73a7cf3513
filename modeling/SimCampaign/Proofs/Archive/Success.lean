import SimCampaign.Proofs.Archive.Records

/-! When nothing is in the way of runs, all of them are executed, in whatever order the workers go
on. -/

namespace SimCampaign.Archive
open Param (Space)

variable {a : Archive} {tools : Tools} {fits : List Task → List Task → Prop} {r : PendingRun}
  {rs : List PendingRun} {w₀ w w' : World} {tasks : List Task} {starts : List Start}
  {finished : List PendingRun} {t t' : FileTree} {id name : String} {p q : Location}

/-- The names of the files that are kept of every execution. -/
def keptNames : List String := [Run.standardOutput, Run.standardError, recordName]

/-- Whether an execution leaves room for the files that are kept of it. -/
def LeavesRoom (e : Execution) : Prop := ∀ name ∈ keptNames, .folder [name] ∉ e.effects

section Clear

/-- Whether the program of the runs is a file, unless its path is not text. -/
def HasProgram (a : Archive) (t : FileTree) : Prop :=
  ∀ path, a.program? = some path → ∃ doc, t.find path = .ok (.file doc)

theorem HasProgram.grows (h : HasProgram a t) (hg : FileTree.Grows t t') : HasProgram a t' :=
  fun path hpath => hg.exists_find_file (h path hpath)

/-- Whether the files are in the way of no run: the program is there, no file is where a folder has to
be, and no folder where a file will be kept. -/
structure Clear (a : Archive) (rs : List PendingRun) (t : FileTree) : Prop where
  program : HasProgram a t
  way : ∀ r ∈ rs, ∀ q ∈ Path.way (a.runPath r.id), ¬ t.isFile q = true
  free : ∀ r ∈ rs, ∀ name ∈ keptNames, ¬ t.isFolder (a.runFolder r.id ++ [name]) = true

/-- What is in the folder of a run and on the way to another one is a folder already. -/
theorem Settled.isFolder_of_below (hs : Settled a t) {j : String} (hi : Path.Plain id)
    (hj : Path.Plain j) (hf : t.isFolder (a.runFolder id) = true)
    (hm : a.runFolder id ++ p ∈ Path.way (a.runPath j)) :
    t.isFolder (a.runFolder id ++ p) = true := by
  rcases (mem_way_runPath hj).1 hm with hm | hm
  · rcases hs _ hm with hle | hfolder
    · have hl := hle.length_le
      rw [runFolder_eq hi] at hl
      simp only [List.length_append, List.length_singleton] at hl
      omega
    · exact hfolder
  · by_cases hne : id = j
    · subst hne
      rwa [hm]
    · refine absurd ?_ (not_runFolder_above (a := a) hi hj hne [])
      rw [List.append_nil, ← hm]
      exact List.prefix_append _ _

variable (hp : ∀ r ∈ rs, Path.Plain r.id) (hr : r ∈ rs)
include hp hr

theorem Clear.made (h : Clear a rs t) (hs : Settled a t)
    (ha : FileTree.Adds (Path.way (a.runPath r.id)) t t') : Clear a rs t' where
  program := h.program.grows ha.grows
  way s hm q hq hf := by
    obtain ⟨doc, hd⟩ := FileTree.isFile_iff.1 hf
    exact h.way s hm q hq (FileTree.isFile_iff.2 ⟨doc, ha.node?_of_file hd⟩)
  free s hm name hname hf := by
    rcases ha (a.runFolder s.id ++ [name]) with he | ⟨hway, hn, -⟩
    · rw [FileTree.isFolder_iff, he, ← FileTree.isFolder_iff] at hf
      exact h.free s hm name hname hf
    · exact h.free s hm name hname (hs.isFolder_child (hp s hm) (hp r hr) hway)

theorem Clear.write (h : Clear a rs t) (hs : Settled a t)
    (hf : t.isFolder (a.runFolder r.id) = true) (place : Location) (doc : Document) :
    Clear a rs (t.write (a.runFolder r.id ++ place) doc) where
  program := h.program.grows (FileTree.grows_write _ _ _)
  way s hm q hq hfile := by
    by_cases hne : q = a.runFolder r.id ++ place
    · subst hne
      have hfolder := hs.isFolder_of_below (hp r hr) (hp s hm) hf hq
      have hroom : ¬ t.HasRoom (a.runFolder r.id ++ place) := fun hroom => hroom.notFolder hfolder
      rw [FileTree.write, FileTree.place_of_no_room hroom] at hfile
      exact h.way s hm _ hq hfile
    · obtain ⟨doc', hd⟩ := FileTree.isFile_iff.1 hfile
      rw [FileTree.node?_write_of_ne hne] at hd
      exact h.way s hm q hq (FileTree.isFile_iff.2 ⟨doc', hd⟩)
  free s hm name hname hfolder := h.free s hm name hname (FileTree.isFolder_of_write hfolder)

theorem Clear.addFolder (h : Clear a rs t) (place : Location)
    (hn : ∀ name ∈ keptNames, place ≠ [name]) :
    Clear a rs (t.addFolder (a.runFolder r.id ++ place)) where
  program := h.program.grows (FileTree.grows_addFolder _ _)
  way s hm q hq hf := by
    obtain ⟨doc, hd⟩ := FileTree.isFile_iff.1 hf
    rcases FileTree.node?_addFolder_or t (a.runFolder r.id ++ place) q with he | ⟨-, -, he⟩
    · exact h.way s hm q hq (FileTree.isFile_iff.2 ⟨doc, he ▸ hd⟩)
    · rw [he] at hd
      cases hd
  free s hm name hname hf := by
    have hne : a.runFolder s.id ++ [name] ≠ a.runFolder r.id ++ place := by
      intro he
      by_cases hid : r.id = s.id
      · rw [hid, List.append_cancel_left_eq] at he
        exact hn name hname he.symm
      · refine not_runFolder_above (a := a) (hp r hr) (hp s hm) hid [name] ?_
        rw [he]
        exact List.prefix_append _ _
    rw [FileTree.isFolder_iff, FileTree.node?_addFolder_of_ne hne, ← FileTree.isFolder_iff] at hf
    exact h.free s hm name hname hf

end Clear

section Steps

/-- Whether the executions of runs find what they need, whenever they begin: there are threads, the disk
has no faults, and every program starts and leaves room for the files that are kept. -/
structure Served (a : Archive) (tools : Tools) (rs : List PendingRun) (w : World) : Prop where
  pool : ∀ moment ≥ w.clock, tools.spawns moment (a.workers tools) = true
  disk : ∀ moment ≥ w.clock, w.disk moment = none
  speakable : ∀ r ∈ rs, ¬ (commandLine r.params).any holdsNul = true
  starts : ∀ r ∈ rs, ∀ moment, ∃ e,
    tools.simulator.run moment (commandLine r.params) a.libraries = .ok e ∧ LeavesRoom e

/-- Whether nothing is in the way of runs, neither of their programs nor of their files. -/
structure Unhindered (a : Archive) (tools : Tools) (rs : List PendingRun) (w : World) : Prop
    extends Served a tools rs w where
  clear : Clear a rs w.files

theorem Served.later (h : Served a tools rs w) (hd : w'.disk = w.disk) (hc : w.clock ≤ w'.clock) :
    Served a tools rs w' where
  pool moment hm := h.pool moment (hc.trans hm)
  disk moment hm := hd ▸ h.disk moment (hc.trans hm)
  speakable := h.speakable
  starts := h.starts

theorem Unhindered.launches (h : Unhindered a tools rs w) (hp : ∀ r ∈ rs, Path.Plain r.id)
    (hr : r ∈ rs) (hs : Settled a w.files) : ∃ e, Launches a tools r w e := by
  obtain ⟨e, he, -⟩ := h.starts r hr (w.clock + 1)
  have hmade : Clear a rs (a.made r w).2 :=
    h.clear.made hp hr hs (FileTree.adds_makeFolders _ _ _)
  refine ⟨e, ?_, checkProgram_eq_ok_iff.2 ⟨hmade.program, h.speakable r hr⟩, he⟩
  exact FileTree.makeFolders_ok_iff.2 ⟨h.disk _ (Nat.le_refl _), h.clear.way r hr⟩

theorem Unhindered.wrote (h : Unhindered a tools rs w) (hr : r ∈ rs) (hn : name ∈ keptNames)
    (doc : Document) : (wrote w (a.runFolder r.id ++ [name]) doc).1 = .ok () :=
  FileTree.writeAt_ok_iff.2 ⟨h.disk _ (Nat.le_refl _), h.clear.free r hr name hn⟩

theorem Underway.keep_mem_keptNames {s : Start} {e : Execution} {doc : Document}
    {rest : List Step} (h : Underway a tools r (.keep name doc :: rest) t s e) :
    name ∈ keptNames := by
  rcases mem_steps_iff.1 h.mem_steps with ⟨f, -, hf⟩ | hf | hf | hf
  · cases hf
  · cases hf
    decide
  · cases hf
    decide
  · cases hf

theorem Underway.effect_mem {s : Start} {e : Execution} {f : Effect} {rest : List Step}
    (h : Underway a tools r (.effect f :: rest) t s e) : f ∈ e.effects := by
  rcases mem_steps_iff.1 h.mem_steps with ⟨g, hg, he⟩ | hf | hf | hf
  · cases he
    exact hg
  all_goals cases hf

theorem recordName_mem_keptNames : recordName ∈ keptNames := by decide

theorem Unhindered.advance {s s' : Stage} {starts' : List Start} {finished' : List PendingRun}
    (h : Unhindered a tools rs w) (hs : Settled a w.files) (hp : ∀ r ∈ rs, Path.Plain r.id)
    (hr : r ∈ rs) (ha : Advanced a tools r w s s' w' starts' finished')
    (hu : ∀ rest, s = .running rest →
      ∃ s ∈ starts, ∃ e, Underway a tools r rest w.files s e) :
    s'.failure?.isSome = false ∧ Unhindered a tools rs w' := by
  have hfolder {rest : List Step} (hrest : s = .running rest) :
      w.files.isFolder (a.runFolder r.id) = true := by
    obtain ⟨s, -, e, hu⟩ := hu rest hrest
    exact hu.way _ (runFolder_mem_way a r.id)
  have hmade : Clear a rs (a.made r w).2 :=
    h.clear.made hp hr hs (FileTree.adds_makeFolders _ _ _)
  have hkept {rest : List Step} (hrest : s = .running rest) {name : String} {doc : Document}
      (hk : (Archive.wrote w (a.runFolder r.id ++ [name]) doc).1 = .ok ()) :
      Clear a rs (Archive.wrote w (a.runFolder r.id ++ [name]) doc).2 := by
    rw [Archive.wrote, FileTree.writeAt_of_ok hk]
    exact h.clear.write hp hr hs (hfolder hrest) [name] doc
  have hlater (hf : Clear a rs w'.files) : Unhindered a tools rs w' :=
    ⟨h.toServed.later ha.disk_eq ha.clock_le, hf⟩
  cases ha with
  | took => exact ⟨rfl, h⟩
  | refused cause hn =>
    obtain ⟨e, he⟩ := h.launches hp hr hs
    exact absurd he (hn e)
  | launched e he => exact ⟨rfl, hlater hmade⟩
  | acted f rest =>
    refine ⟨rfl, hlater ?_⟩
    cases f with
    | write place data => exact h.clear.write hp hr hs (hfolder rfl) place (.bytes data)
    | folder place =>
      obtain ⟨start, -, e, hu⟩ := hu _ rfl
      obtain ⟨e', he', hroom⟩ := h.starts r hr start.moment
      obtain rfl := Except.ok.inj (he'.symm.trans hu.execution)
      refine h.clear.addFolder hp hr place fun name hname hplace => ?_
      exact hroom name hname (hplace ▸ hu.effect_mem)
  | kept name doc rest hk => exact ⟨rfl, hlater (hkept rfl hk)⟩
  | unkept name doc rest cause hk =>
    obtain ⟨start, -, e, hu⟩ := hu _ rfl
    exact absurd (h.wrote hr hu.keep_mem_keptNames doc) hk
  | recorded doc rest hk => exact ⟨rfl, hlater (hkept rfl hk)⟩
  | unrecorded doc rest cause hk =>
    exact absurd (h.wrote hr recordName_mem_keptNames doc) hk

theorem Moves.unhindered (h : Moves a tools fits rs w₀ tasks w starts finished)
    (h₀ : Unhindered a tools rs w₀) (hs : Settled a w₀.files) (hp : ∀ r ∈ rs, Path.Plain r.id) :
    hasFailed tasks = false ∧ Unhindered a tools rs w := by
  rw [not_hasFailed_iff]
  induction h with
  | start => exact ⟨List.forall_mem_map.2 fun r _ => rfl, h₀⟩
  | @step before after task s w w' starts starts' finished finished' h fit advanced ih =>
    have hm : task ∈ before ++ task :: after := List.mem_append_right _ (List.mem_cons_self ..)
    obtain ⟨hfailed, hw⟩ := ih
    obtain ⟨hstep, hw'⟩ := hw.advance (hs.grows fun _ => h.grows.isFolder) hp (h.mem_of_mem hm)
      advanced (h.underway task hm)
    refine ⟨?_, hw'⟩
    rw [List.forall_mem_append, List.forall_mem_cons] at hfailed ⊢
    exact ⟨hfailed.1, hstep, hfailed.2.2⟩

end Steps

theorem runMissing_of_unhindered {space : Space} {runs : Nat} {x : Except Error Unit}
    (hs : Settled a w.files) (hu : Unhindered a tools (a.missingRuns w.files space runs) w)
    (h : (a.runMissing tools space runs).outcome w = (x, w')) : x = .ok () := by
  obtain ⟨log, hpool, -, -⟩ | ⟨log, log', tasks, w₁, starts, finished, hm, -, hx, -⟩ :=
    runMissing_cases (reached_runTasks a tools) h
  · rw [hu.pool w.clock (Nat.le_refl _)] at hpool
    cases hpool
  · have hu : Unhindered a tools (a.missingRuns w.files space runs) { w with log } :=
      ⟨hu.toServed.later rfl (Nat.le_refl _), hu.clear⟩
    obtain ⟨hfailed, -⟩ := hm.unhindered hu hs fun r hr => plain_id_of_mem_missingRuns hr
    rw [← hx, result_eq_ok_iff.2 hfailed]

end SimCampaign.Archive
