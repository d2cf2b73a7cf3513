import Mathlib.Data.List.Nodup
import SimCampaign.Archive.Basic
import SimCampaign.Proofs.Archive.Metadata
import SimCampaign.Proofs.Except
import SimCampaign.Proofs.Storage.FileTree

/-! What is read of the folder of a run: the record, and the texts of all other files. -/

namespace SimCampaign

theorem FileTree.nodup_children (t : FileTree) (p : Location) :
    ((t.children p).map Prod.fst).Nodup := by
  have hd : t.nodes.Pairwise fun m n => m.1 ≠ n.1 := List.pairwise_map.1 t.nodup
  rw [List.Nodup, List.pairwise_map, FileTree.children, List.pairwise_filterMap]
  -- A child and the folder determine the location of its node.
  refine hd.imp fun {m n} hne c hc d hd he => hne ?_
  cases hm : m.1.getLast? with
  | none => simp [hm] at hc
  | some a =>
    cases hn : n.1.getLast? with
    | none => simp [hn] at hd
    | some b =>
      simp only [hm, Option.ite_none_right_eq_some, Option.some.injEq] at hc
      simp only [hn, Option.ite_none_right_eq_some, Option.some.injEq] at hd
      obtain ⟨hma, rfl⟩ := hc
      obtain ⟨hnb, rfl⟩ := hd
      rw [hma, hnb]
      exact congrArg (p ++ [·]) he

namespace Archive
variable {a : Archive} {t : FileTree} {id name text : String} {run : Run} {folder : Location}

/-- Whether a file of a folder that is not the record has a text. -/
def Holds (t : FileTree) (folder : Location) (name text : String) : Prop :=
  name ≠ recordName ∧ ∃ doc, t.node? (folder ++ [name]) = some (.file doc) ∧
    FileTree.documentText doc = .ok text

theorem artifact?_eq_ok_iff {child : String × Node} :
    artifact? child = some (.ok (name, text)) ↔ name ≠ recordName ∧
      ∃ doc, child = (name, .file doc) ∧ FileTree.documentText doc = .ok text := by
  obtain ⟨n, node⟩ := child
  cases node with
  | folder => simp [artifact?]
  | file doc =>
    by_cases hn : n = recordName
    · subst hn
      simp only [artifact?, if_pos, reduceCtorEq, false_iff]
      rintro ⟨hne, doc', hc, -⟩
      exact hne (congrArg Prod.fst hc).symm
    · simp only [artifact?, if_neg hn, Option.some.injEq]
      rw [map_eq_ok_iff]
      constructor
      · rintro ⟨s, hs, he⟩
        cases he
        exact ⟨hn, doc, rfl, mapError_eq_ok_iff.1 hs⟩
      · rintro ⟨-, doc', hc, hs⟩
        cases hc
        exact ⟨text, mapError_eq_ok_iff.2 hs, rfl⟩

theorem fst_eq_of_artifact? {child : String × Node} {x : Except Error (String × String)}
    (h : artifact? child = some x) {pair : String × String} (hx : x = .ok pair) :
    pair.1 = child.1 := by
  subst hx
  obtain ⟨-, doc, rfl, -⟩ := artifact?_eq_ok_iff.1 h
  rfl

section Artifacts
variable {artifacts : List (String × String)}
  (h : (t.children folder).filterMap artifact? = artifacts.map Except.ok)
include h

theorem mem_artifacts_iff : (name, text) ∈ artifacts ↔ Holds t folder name text := by
  have hm : (name, text) ∈ artifacts ↔
      Except.ok (name, text) ∈ (t.children folder).filterMap artifact? := by
    rw [h, List.mem_map_of_injective (fun _ _ he => Except.ok.inj he)]
  rw [hm, List.mem_filterMap]
  constructor
  · rintro ⟨child, hc, ha⟩
    obtain ⟨hn, doc, rfl, hd⟩ := artifact?_eq_ok_iff.1 ha
    exact ⟨hn, doc, FileTree.mem_children_iff.1 hc, hd⟩
  · rintro ⟨hn, doc, hnode, hd⟩
    exact ⟨(name, .file doc), FileTree.mem_children_iff.2 hnode,
      artifact?_eq_ok_iff.2 ⟨hn, doc, rfl, hd⟩⟩

theorem nodup_artifacts : (artifacts.map Prod.fst).Nodup := by
  have hc : (t.children folder).Pairwise fun c d => c.1 ≠ d.1 :=
    List.pairwise_map.1 (t.nodup_children folder)
  have hx : ((t.children folder).filterMap artifact?).Pairwise fun x y =>
      ∀ p q, x = .ok p → y = .ok q → p.1 ≠ q.1 := by
    rw [List.pairwise_filterMap]
    refine hc.imp fun {c d} hne x hx y hy p q hp hq => ?_
    rw [fst_eq_of_artifact? hx hp, fst_eq_of_artifact? hy hq]
    exact hne
  rw [h, List.pairwise_map] at hx
  rw [List.Nodup, List.pairwise_map]
  exact hx.imp fun {p q} hpq => hpq p q rfl rfl

theorem lookup_artifacts_iff : artifacts.lookup name = some text ↔ Holds t folder name text := by
  rw [← mem_artifacts_iff h]
  exact ⟨mem_of_lookup_eq_some, lookup_eq_some_of_mem (nodup_artifacts h)⟩

end Artifacts

/-- What is loaded beside a record, if that could be read. -/
def loadBeside (a : Archive) (t : FileTree) (id : String) : Option RunRecord → Except Error Run
  | none => .error .malformed
  | some record => do
    let artifacts ← ((t.children (a.runFolder id)).filterMap artifact?).mapM (·)
    .ok { id := record.id, repetition := record.repetition, params := record.params, artifacts }

theorem loadRun_of_find {record : RunRecord} (h : t.find (a.recordPath id) =
    .ok (.file (.text record.toJson.renderIndented))) :
    a.loadRun t id = a.loadBeside t id record.again? := by
  have ht : t.readText (a.recordPath id) = .ok record.toJson.renderIndented :=
    FileTree.readText_eq_ok_iff.2 ⟨_, h, FileTree.documentText_text _⟩
  rw [loadRun, ht, ← RunRecord.read?_toJson]
  cases hr : RunRecord.read? record.toJson.renderIndented with
  | none => simp [hr, loadBeside, bind, Except.bind, Except.mapError]
  | some s => simp [hr, loadBeside, bind, Except.bind, Except.mapError]

/-- A run is loaded from a record that can be read, and the files beside it if all of them are
texts. -/
theorem loadRun_eq_ok_iff :
    a.loadRun t id = .ok run ↔ ∃ text record artifacts,
      t.readText (a.recordPath id) = .ok text ∧ RunRecord.read? text = some record ∧
      (t.children (a.runFolder id)).filterMap artifact? = artifacts.map Except.ok ∧
      run = { id := record.id, repetition := record.repetition, params := record.params,
              artifacts } := by
  rw [loadRun, bind_eq_ok_iff]
  constructor
  · rintro ⟨text, ht, h⟩
    cases hr : RunRecord.read? text with
    | none => simp [hr] at h
    | some record =>
      simp only [hr] at h
      obtain ⟨artifacts, hm, he⟩ := bind_eq_ok_iff.1 h
      exact ⟨text, record, artifacts, mapError_eq_ok_iff.1 ht, hr, mapM_id_eq_ok_iff.1 hm,
        (Except.ok.inj he).symm⟩
  · rintro ⟨text, record, artifacts, ht, hr, hm, rfl⟩
    refine ⟨text, mapError_eq_ok_iff.2 ht, ?_⟩
    simp only [hr]
    exact bind_eq_ok_iff.2 ⟨artifacts, mapM_id_eq_ok_iff.2 hm, rfl⟩

theorem artifact?_of_loadRun (h : a.loadRun t id = .ok run) :
    run.artifact? name = some text ↔ Holds t (a.runFolder id) name text := by
  obtain ⟨-, record, artifacts, -, -, hm, rfl⟩ := loadRun_eq_ok_iff.1 h
  exact lookup_artifacts_iff hm

theorem exists_text_of_loadRun (h : a.loadRun t id = .ok run) (hn : name ≠ recordName)
    {doc : Document} (hd : t.node? (a.runFolder id ++ [name]) = some (.file doc)) :
    ∃ text, FileTree.documentText doc = .ok text := by
  obtain ⟨-, record, artifacts, -, -, hm, -⟩ := loadRun_eq_ok_iff.1 h
  have hx : ((FileTree.documentText doc).mapError Error.io).map (name, ·) ∈
      (t.children (a.runFolder id)).filterMap artifact? :=
    List.mem_filterMap.2 ⟨(name, .file doc), FileTree.mem_children_iff.2 hd, by
      simp [artifact?, hn]⟩
  rw [hm] at hx
  obtain ⟨pair, -, hp⟩ := List.mem_map.1 hx
  obtain ⟨text, ht, -⟩ := map_eq_ok_iff.1 hp.symm
  exact ⟨text, mapError_eq_ok_iff.1 ht⟩

theorem exists_artifact?_iff (h : a.loadRun t id = .ok run) (hn : name ≠ recordName) :
    (∃ text, run.artifact? name = some text) ↔
      ∃ doc, t.node? (a.runFolder id ++ [name]) = some (.file doc) := by
  constructor
  · rintro ⟨text, ht⟩
    obtain ⟨-, doc, hd, -⟩ := (artifact?_of_loadRun h).1 ht
    exact ⟨doc, hd⟩
  · rintro ⟨doc, hd⟩
    obtain ⟨text, ht⟩ := exists_text_of_loadRun h hn hd
    exact ⟨text, (artifact?_of_loadRun h).2 ⟨hn, doc, hd, ht⟩⟩

theorem exists_loadRun {text : String} {record : RunRecord}
    (ht : t.readText (a.recordPath id) = .ok text) (hr : RunRecord.read? text = some record)
    (hs : ∀ name doc, name ≠ recordName →
      t.node? (a.runFolder id ++ [name]) = some (.file doc) →
      ∃ text, FileTree.documentText doc = .ok text) :
    ∃ run, a.loadRun t id = .ok run ∧ run.id = record.id ∧
      run.repetition = record.repetition ∧ run.params = record.params := by
  have hx : ∀ x ∈ (t.children (a.runFolder id)).filterMap artifact?, ∃ pair, x = .ok pair := by
    intro x hx
    obtain ⟨⟨name, node⟩, hc, hx⟩ := List.mem_filterMap.1 hx
    cases node with
    | folder => simp [artifact?] at hx
    | file doc =>
      by_cases hn : name = recordName
      · simp [artifact?, hn] at hx
      · obtain ⟨s, hs⟩ := hs name doc hn (FileTree.mem_children_iff.1 hc)
        refine ⟨(name, s), ?_⟩
        simpa [artifact?, hn, hs, Except.mapError, Except.map] using hx.symm
  obtain ⟨artifacts, hm⟩ := exists_forall₂ hx
  refine ⟨_, loadRun_eq_ok_iff.2 ⟨text, record, artifacts, ht, hr, ?_, rfl⟩, rfl, rfl, rfl⟩
  rwa [← List.forall₂_eq_eq_eq, List.forall₂_map_right_iff]

end Archive
end SimCampaign
