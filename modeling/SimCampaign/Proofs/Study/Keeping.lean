import SimCampaign.Proofs.Except
import SimCampaign.Proofs.Storage.Operations
import SimCampaign.Study.Plots

/-! The files of charts: what steps do to them, and where the charts are found in the end. -/

namespace SimCampaign.Study
open Operation (Ready Unblocked perform)

section Performing
variable {α : Type} {steps rest : Session Report Unit} {ops ops' : List Operation} {w w' : World}

/-- The steps are some operations on the files, and fail as these do. Besides, they only log. -/
def Performs (steps : Session Report Unit) (ops : List Operation) : Prop :=
  ∀ w : World, ∃ ms, steps.outcome w = (((perform ops).outcome w).1.mapError Report.ofIo,
    { ((perform ops).outcome w).2 with log := w.log ++ ms })

theorem outcome_perform_with_log (ops : List Operation) (w : World) (ms : List Message) :
    (perform ops).outcome { w with log := ms } =
      (((perform ops).outcome w).1, { ((perform ops).outcome w).2 with log := ms }) := by
  induction ops generalizing w with
  | nil => rfl
  | cons o ops ih =>
    rw [Operation.outcome_perform_cons, Operation.outcome_perform_cons]
    cases (o.change (w.disk w.clock) w.files).1 with
    | ok u => exact ih (Operation.after w o)
    | error e => rfl

theorem outcome_perform_append (ops ops' : List Operation) (w : World) :
    (perform (ops ++ ops')).outcome w = match (perform ops).outcome w with
      | (.ok (), w') => (perform ops').outcome w'
      | (.error e, w') => (.error e, w') := by
  induction ops generalizing w with
  | nil => rfl
  | cons o ops ih =>
    rw [List.cons_append, Operation.outcome_perform_cons, Operation.outcome_perform_cons]
    cases (o.change (w.disk w.clock) w.files).1 with
    | ok u => exact ih (Operation.after w o)
    | error e => rfl

theorem Performs.bind (h : Performs steps ops) (hr : Performs rest ops') :
    Performs (steps >>= fun _ => rest) (ops ++ ops') := by
  intro w
  obtain ⟨ms, hw⟩ := h w
  rw [outcome_perform_append]
  generalize (perform ops).outcome w = result at hw
  obtain ⟨x, w'⟩ := result
  cases x with
  | error e => exact ⟨ms, Session.outcome_bind_of_error hw⟩
  | ok u =>
    obtain ⟨ms', hw'⟩ := hr { w' with log := w.log ++ ms }
    refine ⟨ms ++ ms', (Session.outcome_bind_of_ok hw).trans (hw'.trans ?_)⟩
    rw [outcome_perform_with_log, List.append_assoc]

theorem performs_operate (o : Operation) : Performs (operate o.change) [o] := by
  intro w
  refine ⟨[], ?_⟩
  rw [operate, Session.outcome_mapError, Session.outcome_operate, Operation.outcome_perform_cons,
    List.append_nil]
  cases (o.change (w.disk w.clock) w.files).1 <;> rfl

theorem performs_log (m : Message) : Performs (Session.log m) [] := fun _ => ⟨[m], rfl⟩

theorem performs_logAll (ms : List Message) : Performs (Session.logAll ms) [] := fun _ => ⟨ms, rfl⟩

theorem Performs.ofExcept_bind {x : Except Report α} {a : α} {f : α → Session Report Unit}
    (h : Performs (f a) ops) (hx : x = .ok a) : Performs (Session.ofExcept x >>= f) ops := by
  intro w
  obtain ⟨ms, hw⟩ := h w
  exact ⟨ms, (Session.outcome_ofExcept_bind hx f).trans hw⟩

theorem performs_pure : Performs (pure ()) [] := fun w => ⟨[], by rw [List.append_nil]; rfl⟩

theorem Performs.ok_iff (h : Performs steps ops) :
    (steps.outcome w).1 = .ok () ↔ ((perform ops).outcome w).1 = .ok () := by
  obtain ⟨ms, hw⟩ := h w
  rw [hw]
  exact mapError_eq_ok_iff

theorem Performs.files_eq (h : Performs steps ops) :
    (steps.outcome w).2.files = ((perform ops).outcome w).2.files := by
  obtain ⟨ms, hw⟩ := h w
  rw [hw]

end Performing

/-- A chart, and where it is left. -/
structure Drawing where
  folder : String
  file : String
  figure : Chart.Figure
  table : Aggregate

namespace Drawing
variable {d : Drawing} {ds : List Drawing} {w : World}

def operations (d : Drawing) : List Operation := [
  .makeFolders d.folder, .write d.folder (d.file ++ ".html") (.page d.figure),
  .write d.folder (d.file ++ ".json") (.figure d.figure), .makeFolders d.folder,
  .write d.folder (d.file ++ ".csv") (.text d.table.csv)]

/-- A page, its description and its table are the files of a chart. -/
structure FoundIn (t : FileTree) (d : Drawing) : Prop where
  page : t.find (Path.join d.folder (d.file ++ ".html")) = .ok (.file (.page d.figure))
  description : t.find (Path.join d.folder (d.file ++ ".json")) = .ok (.file (.figure d.figure))
  table : t.find (Path.join d.folder (d.file ++ ".csv")) = .ok (.file (.text d.table.csv))

def places (d : Drawing) : List Location :=
  [".html", ".json", ".csv"].map fun ending => Path.resolve (Path.join d.folder (d.file ++ ending))

/-- No operation fails on its own. Where a folder is to be is no file, and where a file is to be no
folder, neither before nor by the charts themselves. -/
structure Writable (w : World) (ds : List Drawing) : Prop where
  disk : ∀ m, w.clock ≤ m → w.disk m = none
  ways : ∀ d ∈ ds, ∀ q ∈ Path.way d.folder, ¬ w.files.isFile q = true
  places : ∀ d ∈ ds, ∀ p ∈ d.places, ¬ w.files.isFolder p = true
  apart : ∀ d ∈ ds, ∀ e ∈ ds, ∀ p ∈ d.places, p ∉ Path.way e.folder

theorem performs_keepChart (d : Drawing) :
    Performs (keepChart d.folder d.file d.figure d.table) d.operations :=
  (performs_operate (.makeFolders _)).bind <| (performs_operate (.write _ _ _)).bind <|
    (performs_operate (.write _ _ _)).bind <| (performs_operate (.makeFolders _)).bind <|
    performs_operate (.write _ _ _)

section Names

theorem plain_ending {file ending : String} (hf : '/' ∉ file.toList)
    (he : ending ∈ [".html", ".json", ".csv"]) : Path.Plain (file ++ ending) := by
  have hlong : 2 < ending.length ∧ '/' ∉ ending.toList := by
    revert ending
    decide
  have hlength : 2 < (file ++ ending).length := by
    rw [String.length_append]
    omega
  refine ⟨?_, ?_, ?_, ?_⟩
  · intro h
    rw [h] at hlength
    exact absurd hlength (by decide)
  · rw [String.toList_append, List.mem_append]
    exact fun h => h.elim hf hlong.2
  · intro h
    rw [h] at hlength
    exact absurd hlength (by decide)
  · intro h
    rw [h] at hlength
    exact absurd hlength (by decide)

theorem getLast?_append_ending (file : String) {ending : String}
    (h : ending ∈ [".html", ".json", ".csv"]) :
    (file ++ ending).toList.getLast? = ending.toList.getLast? := by
  have hne : ending.toList ≠ [] := by
    revert ending
    decide
  rw [String.toList_append, List.getLast?_append_of_ne_nil _ hne]

/-- The last letter tells the endings apart. -/
theorem ending_injective {file file' ending ending' : String}
    (h : ending ∈ [".html", ".json", ".csv"]) (h' : ending' ∈ [".html", ".json", ".csv"])
    (he : file ++ ending = file' ++ ending') : file = file' ∧ ending = ending' := by
  have hends : ending.toList.getLast? = ending'.toList.getLast? := by
    rw [← getLast?_append_ending file h, ← getLast?_append_ending file' h', he]
  have hinj : ∀ e ∈ [".html", ".json", ".csv"], ∀ e' ∈ [".html", ".json", ".csv"],
      e.toList.getLast? = e'.toList.getLast? → e = e' := by
    decide
  obtain rfl := hinj _ h _ h' hends
  refine ⟨String.toList_injective ?_, rfl⟩
  rw [← String.toList_inj, String.toList_append, String.toList_append] at he
  exact List.append_cancel_right he

end Names

section Files

theorem mem_places (hf : '/' ∉ d.file.toList) {p : Location} : p ∈ d.places ↔
    ∃ ending ∈ [".html", ".json", ".csv"], p = Path.resolve d.folder ++ [d.file ++ ending] := by
  rw [places, List.mem_map]
  refine exists_congr fun ending => and_congr_right fun he => ?_
  rw [Path.resolve_join_plain d.folder (plain_ending hf he), eq_comm]

theorem filterMap_place?_operations (d : Drawing) :
    d.operations.filterMap Operation.place? = d.places := rfl

theorem nodup_places (hf : '/' ∉ d.file.toList) : d.places.Nodup := by
  refine List.Nodup.map_on (fun e he e' he' h => ?_) (by decide)
  rw [Path.resolve_join_plain d.folder (plain_ending hf he),
    Path.resolve_join_plain d.folder (plain_ending hf he')] at h
  have hname := (List.append_inj' h rfl).2
  exact (ending_injective he he' (List.singleton_inj.1 hname)).2

/-- Where a chart is: its folder and the front of the names of its files. -/
def home (d : Drawing) : Location × String := (Path.resolve d.folder, d.file)

theorem disjoint_places {e : Drawing} (hd : '/' ∉ d.file.toList) (he : '/' ∉ e.file.toList)
    (h : d.home ≠ e.home) : List.Disjoint d.places e.places := by
  intro p hp hp'
  obtain ⟨ending, hm, rfl⟩ := (mem_places hd).1 hp
  obtain ⟨ending', hm', hp'⟩ := (mem_places he).1 hp'
  obtain ⟨hfolder, hname⟩ := List.append_inj' hp' rfl
  refine h (Prod.ext hfolder ?_)
  exact (ending_injective hm hm' (List.singleton_inj.1 hname)).1

theorem nodup_place? (hf : ∀ d ∈ ds, '/' ∉ d.file.toList) (hh : (ds.map home).Nodup) :
    ((ds.flatMap operations).filterMap Operation.place?).Nodup := by
  have hplaces : (ds.flatMap operations).filterMap Operation.place? = ds.flatMap places := by
    rw [List.filterMap_flatMap]
    rfl
  rw [hplaces, List.nodup_flatMap]
  refine ⟨fun d hd => nodup_places (hf d hd), ?_⟩
  refine (List.pairwise_map.1 hh).imp_of_mem fun hd he hne => ?_
  exact disjoint_places (hf _ hd) (hf _ he) hne

theorem foundIn_of_performs {steps : Session Report Unit} {w' : World}
    (h : Performs steps (ds.flatMap operations)) (hf : ∀ d ∈ ds, '/' ∉ d.file.toList)
    (hh : (ds.map home).Nodup) (hw : steps.outcome w = (.ok (), w')) (hd : d ∈ ds) :
    d.FoundIn w'.files := by
  have hok := h.ok_iff.1 (congrArg Prod.fst hw)
  have hfiles : w'.files = ((perform (ds.flatMap operations)).outcome w).2.files := by
    rw [← h.files_eq, hw]
  have hnames := hf d hd
  have hfound (name) (doc) (hm : .write d.folder name doc ∈ d.operations)
      (hn : Path.Plain name) : w'.files.find (Path.join d.folder name) = .ok (.file doc) := by
    rw [hfiles]
    exact Operation.find_of_perform (Prod.ext hok rfl) (nodup_place? hf hh)
      (List.mem_flatMap.2 ⟨d, hd, hm⟩) hn
  refine ⟨hfound _ _ ?_ (plain_ending hnames ?_), hfound _ _ ?_ (plain_ending hnames ?_),
    hfound _ _ ?_ (plain_ending hnames ?_)⟩
  all_goals simp [operations]

/-- Where nothing is yet, only the charts themselves can be in the way. -/
theorem writable_of_empty (hdisk : ∀ m, w.disk m = none) (hw : w.files = .empty)
    (hf : ∀ d ∈ ds, '/' ∉ d.file.toList)
    (ha : ∀ d ∈ ds, ∀ e ∈ ds, ∀ p ∈ d.places, p ∉ Path.way e.folder) : Writable w ds := by
  refine ⟨fun m _ => hdisk m, fun d _ q _ hq => ?_, fun d hd p hp hq => ?_, ha⟩
  · rw [hw] at hq
    obtain ⟨doc, hdoc⟩ := FileTree.isFile_iff.1 hq
    by_cases hne : q = []
    · subst hne
      cases hdoc
    · cases (FileTree.node?_empty hne).symm.trans hdoc
  · rw [hw, FileTree.isFolder_iff] at hq
    obtain ⟨ending, -, rfl⟩ := (mem_places (hf d hd)).1 hp
    cases (FileTree.node?_empty (by simp)).symm.trans hq

theorem unblocked_of_writable (h : Writable w ds) :
    Unblocked w.files (ds.flatMap operations) := by
  have hway {o : Operation} {d : Drawing} (ho : o ∈ d.operations) {q : Location}
      (hq : q ∈ o.way) : q ∈ Path.way d.folder := by
    simp only [operations, List.mem_cons, List.not_mem_nil, or_false] at ho
    obtain rfl | rfl | rfl | rfl | rfl := ho
    all_goals first | exact hq | cases hq
  have hplace {o : Operation} {d : Drawing} (ho : o ∈ d.operations) {p : Location}
      (hp : o.place? = some p) : p ∈ d.places := by
    rw [← filterMap_place?_operations]
    exact List.mem_filterMap.2 ⟨o, ho, hp⟩
  refine ⟨fun o ho q hq => ?_, fun o ho p hp => ?_, fun o ho o' ho' p hp hq => ?_⟩
  · obtain ⟨d, hd, ho⟩ := List.mem_flatMap.1 ho
    exact h.ways d hd q (hway ho hq)
  · obtain ⟨d, hd, ho⟩ := List.mem_flatMap.1 ho
    exact h.places d hd p (hplace ho hp)
  · obtain ⟨d, hd, ho⟩ := List.mem_flatMap.1 ho
    obtain ⟨e, he, ho'⟩ := List.mem_flatMap.1 ho'
    exact h.apart d hd e he p (hplace ho hp) (hway ho' hq)

theorem ready_operations (hf : ∀ d ∈ ds, '/' ∉ d.file.toList) (made : List String) :
    Ready made (ds.flatMap operations) := by
  induction ds generalizing made with
  | nil => trivial
  | cons d ds ih =>
    obtain ⟨hd, hds⟩ := List.forall_mem_cons.1 hf
    have hmem {folders : List String} : d.folder ∈ d.folder :: folders := List.mem_cons_self ..
    exact ⟨hmem, plain_ending hd (by simp), hmem, plain_ending hd (by simp), hmem,
      plain_ending hd (by simp), ih hds _⟩

theorem ok_of_writable {steps : Session Report Unit}
    (h : Performs steps (ds.flatMap operations)) (hf : ∀ d ∈ ds, '/' ∉ d.file.toList)
    (hw : Writable w ds) : (steps.outcome w).1 = .ok () :=
  h.ok_iff.2 <| Operation.perform_ok hw.disk (unblocked_of_writable hw) (ready_operations hf [])
    fun _ hm => nomatch hm

end Files
end Drawing
end SimCampaign.Study
