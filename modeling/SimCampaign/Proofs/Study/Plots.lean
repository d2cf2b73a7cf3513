import SimCampaign.Proofs.Study.Drawing

/-! All charts of a sweep. Each step of plotting leaves its charts in the files and fails only as an
operation on these does. -/

namespace SimCampaign.Study
open Campaign (Results)
open Sweep (candidates)

section Steps
variable {α β : Type} {xs : List α} {f : α → Session Report Unit} {R : α → β → Prop}
  {operations : β → List Operation}

theorem exists_performs_forM (h : ∀ x ∈ xs, ∃ y, R x y ∧ Performs (f x) (operations y)) :
    ∃ ys, List.Forall₂ R xs ys ∧ Performs (xs.forM f) (ys.flatMap operations) := by
  induction xs with
  | nil => exact ⟨[], .nil, performs_pure⟩
  | cons x xs ih =>
    obtain ⟨y, hy, hx⟩ := h x (List.mem_cons_self ..)
    obtain ⟨ys, hys, hxs⟩ := ih fun z hz => h z (List.mem_cons_of_mem _ hz)
    exact ⟨y :: ys, .cons hy hys, hx.bind hxs⟩

theorem map_eq_of_forall₂ {γ : Type} {f : α → γ} {g : β → γ} {ys : List β}
    (h : List.Forall₂ R xs ys) (hR : ∀ x y, R x y → g y = f x) : ys.map g = xs.map f := by
  induction h with
  | nil => rfl
  | cons hxy _ ih => rw [List.map_cons, List.map_cons, hR _ _ hxy, ih]

end Steps

section Charts
variable {results : Results} {runs : Nat} {s : Sweep} {l : Layout} {d : Drawing}

theorem performs_loggedAggregate_bind {space : Param.Space} {reducer : Metric.Reducer}
    {a : Aggregate} (ha : aggregate results runs space reducer = .ok a)
    {f : Aggregate → Session Report Unit} {ops : List Operation} (h : Performs (f a) ops) :
    Performs (loggedAggregate results runs space reducer >>= f) ops := by
  rw [loggedAggregate, bind_assoc]
  exact (performs_logAll _).bind (h.ofExcept_bind ha)

theorem LineDrawn.performs {c : LineChart}
    (h : LineDrawn results runs s l (c.file, c.reducer) d)
    (hf : lineFigure s c d.table = .ok d.figure) :
    Performs (drawLine results runs s l c) d.operations := by
  have hkeep := Drawing.performs_keepChart d
  rw [h.place.1, h.place.2] at hkeep
  have hdraw := hkeep.ofExcept_bind (f := fun f => keepChart l.lineFolder c.file f d.table) hf
  exact (performs_log _).bind (performs_loggedAggregate_bind h.table hdraw)

theorem BarDrawn.performs {c : BarChart} {folder : String × Param.Value} {part : Param.Space}
    (h : BarDrawn results runs s l (c.file, c.reducer) folder d)
    (hpart : barSpace s folder.2 = .ok part)
    (ha : aggregate results runs part c.reducer = .ok d.table)
    (hf : barFigure c d.table = .ok d.figure) :
    Performs (drawBar results runs s l c folder) d.operations := by
  have hkeep := Drawing.performs_keepChart d
  rw [h.place.1, h.place.2] at hkeep
  have hdraw := hkeep.ofExcept_bind
    (f := fun f => keepChart (l.barFolder folder.1) c.file f d.table)
    (mapError_eq_ok_iff (f := Report.ofChart).2 hf)
  exact Performs.ofExcept_bind
    ((performs_log _).bind (performs_loggedAggregate_bind ha hdraw)) hpart

/-- Every line chart, and both bar charts for each of their folders. -/
structure AllDrawn (results : Results) (runs : Nat) (s : Sweep) (n : Normalization) (l : Layout)
    (lines : List Drawing) (bars : List (List Drawing)) : Prop where
  lines : List.Forall₂ (LineDrawn results runs s l) (lineMetrics n) lines
  bars : List.Forall₂ (fun m ds => List.Forall₂ (BarDrawn results runs s l m) s.barFolders ds)
    (barMetrics n) bars

theorem Plottable.exists_performs (h : Plottable s) (hr : 0 < runs) {n : Normalization}
    (hsup : Supplies results s.space runs n) (l : Layout) :
    ∃ lines bars, AllDrawn results runs s n l lines bars ∧
      Performs (plotAll results runs s n l)
        ((lines ++ bars.flatten).flatMap Drawing.operations) := by
  have hline (c) (hc : c ∈ lineCharts n) : ∃ d, LineDrawn results runs s l (c.file, c.reducer) d ∧
      Performs (drawLine results runs s l c) d.operations := by
    have hm : (c.file, c.reducer) ∈ lineMetrics n :=
      map_lineCharts n ▸ List.mem_map_of_mem (f := fun c : LineChart => (c.file, c.reducer)) hc
    obtain ⟨d, hd, hf⟩ := exists_lineDrawn h hr hsup l hm
    exact ⟨d, hd, hd.performs hf⟩
  have hbar (c) (hc : c ∈ barCharts n) : ∃ ds, List.Forall₂
      (BarDrawn results runs s l (c.file, c.reducer)) s.barFolders ds ∧
      Performs (s.barFolders.forM (drawBar results runs s l c))
        (ds.flatMap Drawing.operations) := by
    have hm : (c.file, c.reducer) ∈ barMetrics n :=
      map_barCharts n ▸ List.mem_map_of_mem (f := fun c : BarChart => (c.file, c.reducer)) hc
    refine exists_performs_forM fun folder hf => ?_
    have hv : folder.2 ∈ candidates s.space s.forEach := h.values ▸ List.mem_map_of_mem hf
    obtain ⟨d, part, hd, hpart, ha, hf⟩ := exists_barDrawn h hr hsup l hm hv
    exact ⟨d, hd, hd.performs hpart ha hf⟩
  obtain ⟨lines, hlines, hl⟩ := exists_performs_forM hline
  obtain ⟨bars, hbars, hb⟩ := exists_performs_forM hbar
  refine ⟨lines, bars, ⟨?_, ?_⟩, ?_⟩
  · rw [← map_lineCharts, List.forall₂_map_left_iff]
    exact hlines
  · rw [← map_barCharts, List.forall₂_map_left_iff]
    exact hbars
  · rw [List.flatMap_append, List.flatten_eq_flatMap, List.flatMap_assoc]
    exact hl.bind hb

end Charts

section Places
variable {results : Results} {runs : Nat} {s : Sweep} {n : Normalization} {l : Layout}
  {lines : List Drawing} {bars : List (List Drawing)}

/-- The names of the files do not depend on the window. -/
theorem map_fst_metrics (n : Normalization) : (lineMetrics n ++ barMetrics n).map Prod.fst =
    (lineMetrics ⟨.full, n.load⟩ ++ barMetrics ⟨.full, n.load⟩).map Prod.fst := by
  obtain ⟨window, load⟩ := n
  cases load <;> rfl

theorem nodup_files (n : Normalization) : ((lineMetrics n ++ barMetrics n).map Prod.fst).Nodup := by
  rw [map_fst_metrics]
  cases n.load <;> decide

theorem no_slash_of_mem {m : String × Metric.Reducer} (h : m ∈ lineMetrics n ++ barMetrics n) :
    '/' ∉ m.1.toList := by
  have hfiles : ∀ file ∈ (lineMetrics n ++ barMetrics n).map Prod.fst, '/' ∉ file.toList := by
    rw [map_fst_metrics]
    cases n.load <;> decide
  exact hfiles _ (List.mem_map_of_mem h)

namespace Layout

/-- The subfolder is a name, if there is one. -/
def Plain (l : Layout) : Prop := ∀ sub ∈ l.subfolder?, Path.Plain sub

theorem Plain.resolve_within (h : l.Plain) (folder : String) :
    Path.resolve (l.within folder) = Path.resolve folder ++ l.subfolder?.toList := by
  rw [within]
  cases hs : l.subfolder? with
  | none => rw [Option.toList_none, List.append_nil]
  | some sub => exact Path.resolve_join_plain folder (h sub hs)

theorem Plain.nodup_barFolders (h : l.Plain) {folders : List String}
    (hp : ∀ f ∈ folders, Path.Plain f) (hn : folders.Nodup) :
    (folders.map fun f => Path.resolve (l.barFolder f)).Nodup := by
  refine List.Nodup.map_on (fun f hf f' hf' he => ?_) hn
  rw [barFolder, barFolder, h.resolve_within, h.resolve_within,
    Path.resolve_join_plain _ (hp f hf), Path.resolve_join_plain _ (hp f' hf')] at he
  exact List.singleton_inj.1 (List.append_cancel_left (List.append_cancel_right he))

end Layout

theorem AllDrawn.of_mem (h : AllDrawn results runs s n l lines bars) {d : Drawing}
    (hd : d ∈ lines ++ bars.flatten) :
    (∃ m ∈ lineMetrics n, LineDrawn results runs s l m d) ∨
      ∃ m ∈ barMetrics n, ∃ f ∈ s.barFolders, BarDrawn results runs s l m f d := by
  rcases List.mem_append.1 hd with hd | hd
  · exact .inl (exists_of_mem_forall₂ h.lines hd)
  · obtain ⟨ds, hds, hd⟩ := List.mem_flatten.1 hd
    obtain ⟨m, hm, hds⟩ := exists_of_mem_forall₂ h.bars hds
    exact .inr ⟨m, hm, exists_of_mem_forall₂ hds hd⟩

theorem AllDrawn.no_slash (h : AllDrawn results runs s n l lines bars) :
    ∀ d ∈ lines ++ bars.flatten, '/' ∉ d.file.toList := by
  intro d hd
  rcases h.of_mem hd with ⟨m, hm, hd⟩ | ⟨m, hm, f, -, hd⟩
  · exact hd.place.2 ▸ no_slash_of_mem (List.mem_append_left _ hm)
  · exact hd.place.2 ▸ no_slash_of_mem (List.mem_append_right _ hm)

theorem AllDrawn.map_home (h : AllDrawn results runs s n l lines bars) :
    (lines ++ bars.flatten).map Drawing.home =
      (lineMetrics n).map (fun m => (Path.resolve l.lineFolder, m.1)) ++
        (barMetrics n).flatMap fun m =>
          s.barFolders.map fun f => (Path.resolve (l.barFolder f.1), m.1) := by
  rw [List.map_append, List.map_flatten, List.flatMap_def]
  congr 1
  · exact map_eq_of_forall₂ h.lines fun m d hd => by rw [Drawing.home, hd.place.1, hd.place.2]
  · refine congrArg _ (map_eq_of_forall₂ h.bars fun m ds hds => ?_)
    exact map_eq_of_forall₂ hds fun f d hd => by rw [Drawing.home, hd.place.1, hd.place.2]

/-- The charts have different files, but for the bar charts of one metric, which are in different
folders. -/
theorem AllDrawn.nodup_home (h : AllDrawn results runs s n l lines bars)
    (hf : (s.barFolders.map fun f => Path.resolve (l.barFolder f.1)).Nodup) :
    ((lines ++ bars.flatten).map Drawing.home).Nodup := by
  have hfiles := nodup_files n
  rw [List.map_append, List.nodup_append] at hfiles
  obtain ⟨hlines, hbars, happart⟩ := hfiles
  rw [h.map_home, List.nodup_append]
  refine ⟨?_, List.nodup_flatMap.2 ⟨fun m _ => ?_, ?_⟩, ?_⟩
  · refine List.Nodup.of_map Prod.snd ?_
    rwa [List.map_map]
  · refine List.Nodup.of_map Prod.fst ?_
    rwa [List.map_map]
  · refine (List.pairwise_map.1 hbars).imp fun {m m'} hne p hp hp' => hne ?_
    obtain ⟨f, -, rfl⟩ := List.mem_map.1 hp
    obtain ⟨f', -, he⟩ := List.mem_map.1 hp'
    exact (congrArg Prod.snd he).symm
  · intro p hp q hq he
    obtain ⟨m, hm, rfl⟩ := List.mem_map.1 hp
    obtain ⟨m', hm', hq⟩ := List.mem_flatMap.1 hq
    obtain ⟨f, -, rfl⟩ := List.mem_map.1 hq
    exact happart _ (List.mem_map_of_mem hm) _ (List.mem_map_of_mem hm') (congrArg Prod.snd he)

end Places

/-- The sweeps that a command can plot without a file of its own. -/
inductive Selection where
  | set (chosen : ParamSet)
  | fixedRate (rate : String) (smartStart access : Bool)

def Selection.sweep (b : Baseline) : Selection → Except Param.Error Sweep
  | .set chosen => chosen.sweep b
  | .fixedRate rate smartStart access => Study.fixedRate b rate smartStart access

theorem Selection.exists_plottable (b : Baseline) (selection : Selection) :
    ∃ s, selection.sweep b = .ok s ∧ Plottable s := by
  cases selection with
  | set chosen =>
    rw [Selection.sweep]
    exact chosen.exists_plottable b
  | fixedRate rate smartStart access =>
    rw [Selection.sweep]
    exact exists_plottable_fixedRate b rate smartStart access

/-- Two parameters are swept, one of which has a folder of bar charts for each value. The names of
these folders are different names of single folders. -/
structure Swept (s : Sweep) : Prop where
  several : ∀ name, name = s.x ∨ name = s.hue → 1 < (candidates s.space name).length
  forEach : s.forEach = s.x ∨ s.forEach = s.hue
  folders : (s.barFolders.map Prod.fst).Nodup
  plain : ∀ f ∈ s.barFolders, Path.Plain f.1
  values : s.barFolders.map Prod.snd = candidates s.space s.forEach

theorem Plottable.swept {s : Sweep} (h : Plottable s) : Swept s where
  several name hn := by
    have hm : name ∈ s.space.names := by
      rcases hn with rfl | rfl
      · exact mem_names_iff.2 h.charted.x_mem
      · exact mem_names_iff.2 h.charted.hue_mem
    obtain ⟨e, he⟩ := Record.exists_mem_pairs hm
    rw [candidates_of_mem he]
    exact h.charted.swept _ (Param.Space.mem_outline he) hn
  forEach := h.charted.folder
  folders := h.folders
  plain := h.plain
  values := h.values

/-- What steps of plotting do: they keep charts in files, and succeed if these can be written. Then
the charts of different folders and files are found there. -/
structure Plotted (steps : Session Report Unit) (ds : List Drawing) : Prop where
  performs : Performs steps (ds.flatMap Drawing.operations)
  succeeds : ∀ w, Drawing.Writable w ds → (steps.outcome w).1 = .ok ()
  found : (ds.map Drawing.home).Nodup → ∀ w w', steps.outcome w = (.ok (), w') →
    ∀ d ∈ ds, d.FoundIn w'.files

/-- Every selection is a sweep of any baseline. If the campaign supplies the results, all of its
charts are drawn, and nothing but the files can fail. With a plain subfolder, if any, the charts of
one metric are left in different folders, and no chart takes the place of another. -/
theorem exists_sweep_and_draws (b : Baseline) (selection : Selection) :
    ∃ s, selection.sweep b = .ok s ∧ Swept s ∧
      ∀ (results : Results) (runs : Nat) (n : Normalization) (l : Layout), 0 < runs →
        Supplies results s.space runs n →
        ∃ lines bars, AllDrawn results runs s n l lines bars ∧
          Plotted (plotAll results runs s n l) (lines ++ bars.flatten) ∧
          (l.Plain → (s.barFolders.map fun f => Path.resolve (l.barFolder f.1)).Nodup ∧
            ((lines ++ bars.flatten).map Drawing.home).Nodup) := by
  obtain ⟨s, hs, hp⟩ := selection.exists_plottable b
  refine ⟨s, hs, hp.swept, fun results runs n l hr hsup => ?_⟩
  obtain ⟨lines, bars, hall, hdraws⟩ := hp.exists_performs hr hsup l
  refine ⟨lines, bars, hall, ⟨hdraws, fun w => ?_, fun hh w w' hw d hd => ?_⟩, fun hl => ?_⟩
  · exact Drawing.ok_of_writable hdraws hall.no_slash
  · exact Drawing.foundIn_of_performs hdraws hall.no_slash hh hw hd
  · have hplain : ∀ name ∈ s.barFolders.map Prod.fst, Path.Plain name :=
      List.forall_mem_map.2 hp.plain
    have hfolders := hl.nodup_barFolders hplain hp.folders
    rw [List.map_map] at hfolders
    exact ⟨hfolders, hall.nodup_home hfolders⟩

section Samples

/-- A run without traffic. -/
def quietRun (a : Param.Assignment) (r : Nat) : Run :=
  ⟨"quiet", r, a.put randomStream (.ofNat r),
    [(PacketTrace.artifact, ""), (Schedule.artifact, "")]⟩

def quiet : Results := fun a runs => .ok ((List.range runs).map (quietRun a))

theorem measurable_quietRun :
    ∀ s ∈ ((Selection.set .smartStart).sweep {}).toOption,
      ∀ a ∈ s.space.assignments, Measurable .byPhysicalRate (quietRun a 0) := by
  decide +kernel

theorem last_barFolders : ∀ s ∈ ((Selection.set .smartStart).sweep {}).toOption,
    ∀ f ∈ s.barFolders, f.1.toList.getLast? = some 's' := by
  decide +kernel

section Written
variable {results : Results} {runs : Nat} {s : Sweep} {n : Normalization} {lines : List Drawing}
  {bars : List (List Drawing)} (h : AllDrawn results runs s n ⟨"images", none⟩ lines bars)
  (hp : ∀ f ∈ s.barFolders, Path.Plain f.1)
  (hl : ∀ f ∈ s.barFolders, f.1.toList.getLast? = some 's')
include h hp hl

theorem AllDrawn.last_of_mem_way {e : Drawing} (he : e ∈ lines ++ bars.flatten) {p : Location}
    {name : String} (hq : p ++ [name] ∈ Path.way e.folder) :
    name.toList.getLast? = some 's' := by
  have hresolve : Path.resolve "images" = ["images"] := by decide +kernel
  have himages (hq : p ++ [name] ∈ Path.way "images") : name.toList.getLast? = some 's' := by
    have hway : Path.way "images" = [[], ["images"]] := by decide +kernel
    rw [hway] at hq
    rcases List.mem_cons.1 hq with hq | hq
    · exact absurd hq (by simp)
    · obtain rfl := List.singleton_inj.1
        (List.append_inj' (List.mem_singleton.1 hq : p ++ [name] = [] ++ ["images"]) rfl).2
      decide
  rcases h.of_mem he with ⟨m, -, he⟩ | ⟨m, -, f, hf, he⟩
  · have hfolder : e.folder = "images" := he.place.1
    rw [hfolder] at hq
    exact himages hq
  · have hfolder : e.folder = Path.join "images" f.1 := he.place.1
    rw [hfolder, Path.mem_way_join _ (hp f hf), hresolve] at hq
    rcases hq with hq | hq
    · exact himages hq
    · obtain rfl := List.singleton_inj.1 (List.append_inj' hq rfl).2
      exact hl f hf

/-- Nothing hinders charts that are the first files at all: their folders end in another letter than
their files. -/
theorem AllDrawn.writable : Drawing.Writable default (lines ++ bars.flatten) := by
  refine Drawing.writable_of_empty (fun _ => rfl) rfl h.no_slash fun d hd e he p hpl hq => ?_
  obtain ⟨ending, hm, rfl⟩ := (Drawing.mem_places (h.no_slash d hd)).1 hpl
  have hlast := h.last_of_mem_way hp hl he hq
  have hends : ∀ e ∈ [".html", ".json", ".csv"], e.toList.getLast? ≠ some 's' := by decide
  rw [Drawing.getLast?_append_ending _ hm] at hlast
  exact hends ending hm hlast

end Written

theorem smartStart_draws_quiet :
    ∃ s, (Selection.set .smartStart).sweep {} = .ok s ∧ 0 < 1 ∧
      Supplies quiet s.space 1 .byPhysicalRate ∧
      ∃ ds, (∃ lines bars, ds = lines ++ bars.flatten ∧
          AllDrawn quiet 1 s .byPhysicalRate ⟨"images", none⟩ lines bars) ∧
        ∃ w, (plotAll quiet 1 s .byPhysicalRate ⟨"images", none⟩).outcome default = (.ok (), w) ∧
          ∀ d ∈ ds, d.FoundIn w.files := by
  obtain ⟨s, hs, hswept, hdraws⟩ := exists_sweep_and_draws {} (.set .smartStart)
  have hm := measurable_quietRun s (by rw [hs]; rfl)
  have hsup : Supplies quiet s.space 1 .byPhysicalRate := fun a ha =>
    ⟨[quietRun a 0], rfl, rfl, fun run hrun => by
      obtain rfl := List.mem_singleton.1 hrun
      exact ⟨⟨_, rfl⟩, hm a ha⟩⟩
  obtain ⟨lines, bars, hall, hplotted, hplaces⟩ := hdraws quiet 1 _ ⟨"images", none⟩ Nat.one_pos hsup
  have hw := hplotted.succeeds default
    (hall.writable hswept.plain (last_barFolders s (by rw [hs]; rfl)))
  refine ⟨s, hs, Nat.one_pos, hsup, _, ⟨lines, bars, rfl, hall⟩, _, Prod.ext hw rfl, ?_⟩
  exact hplotted.found (hplaces fun _ h => nomatch h).2 _ _ (Prod.ext hw rfl)

end Samples

end SimCampaign.Study
