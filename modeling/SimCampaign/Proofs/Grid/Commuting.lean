import Mathlib.Data.List.Induction
import Mathlib.Logic.Function.Basic
import SimCampaign.Proofs.First
import SimCampaign.Proofs.Grid.Named
import SimCampaign.Proofs.Grid.Slicing

/-! The order of slicing. Coordinates along different dimensions are selected in either order, before
or after the dimensions of one coordinate are dropped, and dropping those moves no cell. -/

namespace SimCampaign
open Param (Dim Value)

namespace Grid
variable {α : Type} {g : Grid α} {d : Dim} {before after : List Dim} {axis i n : Nat}
  {place place' : String → Nat}

section Places

theorem cell?_congr (h : ∀ d ∈ g.dims, place d.name = place' d.name) :
    g.cell? place = g.cell? place' := by
  rw [cell?, cell?, List.map_congr_left h]

theorem cell?_update (h : d.name ∉ g.dims.map Dim.name) :
    g.cell? (Function.update place d.name i) = g.cell? place := by
  refine cell?_congr fun e he => Function.update_of_ne ?_ _ _
  rintro hn
  exact h (hn ▸ List.mem_map_of_mem he)

theorem exists_place {names : List String} (hn : names.Nodup) {index : List Nat}
    (hl : index.length = names.length) :
    ∃ place : String → Nat, names.map place = index ∧ ∀ name ∉ names, place name = 0 := by
  induction names generalizing index with
  | nil => exact ⟨fun _ => 0, (List.length_eq_zero_iff.1 hl).symm, fun _ _ => rfl⟩
  | cons name names ih =>
    obtain ⟨i, index, rfl⟩ := List.exists_cons_of_length_eq_add_one hl
    obtain ⟨hname, hn⟩ := List.nodup_cons.1 hn
    obtain ⟨place, hp, hz⟩ := ih hn (Nat.succ.inj hl)
    refine ⟨Function.update place name i, ?_, fun other ho => ?_⟩
    · have hmap : names.map (Function.update place name i) = names.map place :=
        List.map_congr_left fun other ho => Function.update_of_ne (ne_of_mem_of_not_mem ho hname) _ _
      rw [List.map_cons, Function.update_self, hmap, hp]
    · obtain ⟨hne, ho⟩ := not_or.1 (mt List.mem_cons.2 ho)
      rw [Function.update_of_ne hne, hz other ho]

theorem cell?_dropAxis (hg : g.Full) (hd : g.dims[axis]? = some d) (hi : i < d.length)
    (hp : place d.name = i) : (g.dropAxis axis i).cell? place = g.cell? place := by
  obtain ⟨hlt, rfl⟩ := List.getElem?_eq_some_iff.1 hd
  have hl : axis < (g.dims.map fun d => place d.name).length := by rwa [List.length_map]
  have hinsert : ((g.dims.eraseIdx axis).map fun d => place d.name).insertIdx axis i =
      g.dims.map fun d => place d.name := by
    have h := List.insertIdx_eraseIdx_getElem hl
    rwa [List.getElem_map, hp, List.eraseIdx_map] at h
  rw [cell?, get?_dropAxis hg (getElem?_shape_of_dims hd) hi]
  exact congrArg g.get? hinsert

end Places

section Single

theorem flatMap_block (size n : Nat) (xs : List α) :
    ((List.range n).flatMap fun k => block size k xs) = xs.take (n * size) := by
  induction n with
  | zero => simp
  | succ n ih =>
    rw [List.range_succ, List.flatMap_append, ih, List.flatMap_singleton, Nat.succ_mul,
      List.take_add, block]

theorem slice_of_single {shape : List Nat} {xs : List α} (hn : shape[axis]? = some 1)
    (hx : xs.length = cellCount shape) : slice shape axis 0 xs = xs := by
  induction shape generalizing axis xs with
  | nil => simp at hn
  | cons m shape ih =>
    rw [cellCount_cons] at hx
    cases axis with
    | zero =>
      obtain rfl : m = 1 := by simpa using hn
      rw [slice, block, Nat.zero_mul, List.drop_zero, List.take_of_length_le (by omega)]
    | succ axis =>
      have hblock : ∀ k ∈ List.range m, slice shape axis 0 (block (cellCount shape) k xs) =
          block (cellCount shape) k xs := fun k hk =>
        ih (by simpa using hn) (length_block hx (List.mem_range.1 hk))
      rw [slice, List.flatMap_congr hblock, flatMap_block, ← hx, List.take_length]

theorem squeezeFirst_induction {P : Grid α → Prop} (hg : P g)
    (step : ∀ g axis, P g → g.shape[axis]? = some 1 → P (g.dropAxis axis 0)) (n : Nat) :
    P (g.squeezeFirst n) := by
  induction n generalizing g with
  | zero => exact hg
  | succ n ih =>
    rw [squeezeFirst]
    split
    next hn => exact ih (step g n hg hn)
    next => exact ih hg

theorem cells_squeeze (hg : g.Full) : g.squeeze.cells = g.cells := by
  refine (squeezeFirst_induction (P := fun h => h.Full ∧ h.cells = g.cells) ⟨hg, rfl⟩ ?_ _).2
  rintro h axis ⟨hh, hc⟩ hn
  exact ⟨hh.dropAxis hn Nat.one_pos, (slice_of_single hn hh).trans hc⟩

theorem cell?_squeeze (hg : g.Full) (hp : ∀ d ∈ g.dims, d.length = 1 → place d.name = 0) :
    g.squeeze.cell? place = g.cell? place := by
  refine (squeezeFirst_induction
    (P := fun h => h.Full ∧ h.dims ⊆ g.dims ∧ h.cell? place = g.cell? place)
    ⟨hg, List.Subset.refl _, rfl⟩ ?_ _).2.2
  rintro h axis ⟨hh, hs, hc⟩ hn
  obtain ⟨d, hd, h1⟩ := Option.map_eq_some_iff.1 ((List.getElem?_map ..).symm.trans hn)
  have hz : place d.name = 0 := hp d (hs (List.mem_of_getElem? hd)) h1
  refine ⟨hh.dropAxis hn Nat.one_pos, ?_, ?_⟩
  · exact fun e he => hs (List.mem_of_mem_eraseIdx he)
  · rw [cell?_dropAxis hh hd (h1 ▸ Nat.one_pos) hz, hc]

theorem dims_squeezeFirst (h : g.dims = before ++ after) :
    (g.squeezeFirst before.length).dims = before.filter (·.length != 1) ++ after := by
  -- The axes are gone through from the last one on, so the last of `before` comes first.
  induction before using List.reverseRecOn generalizing g after with
  | nil => exact h
  | append_singleton before d ih =>
    rw [List.append_assoc, List.singleton_append] at h
    rw [List.length_append, List.length_singleton, squeezeFirst, getElem?_shape h,
      List.filter_append]
    by_cases h1 : d.length = 1
    · have hd : (g.dropAxis before.length 0).dims = before ++ after := by
        rw [dropAxis, h, eraseIdx_length_append]
      rw [if_pos (congrArg some h1), ih hd, List.filter_cons_of_neg (by simp [h1])]
      simp
    · have hne : ¬ some d.length = some 1 := fun he => h1 (Option.some.inj he)
      rw [if_neg hne, ih h, List.filter_cons_of_pos (by simp [h1])]
      simp

theorem dims_squeeze (g : Grid α) : g.squeeze.dims = g.dims.filter (·.length != 1) := by
  rw [squeeze, dims_squeezeFirst (List.append_nil _).symm, List.append_nil]

end Single

end Grid

namespace Aggregate
variable {a b g : Aggregate} {d e : Dim} {u v x y : Value} {i j k : Nat} {name : String}

theorem Named.eq_of_cell?_eq (ha : a.Named) (hb : b.Named) (hd : a.dims = b.dims)
    (hr : a.runs = b.runs)
    (h : ∀ place : String → Nat, (∀ name ∉ a.dims.map Dim.name, place name = 0) →
      a.grid.cell? place = b.grid.cell? place) : a = b := by
  have hgrid : a.grid = b.grid := by
    refine Grid.eq_of_get?_eq hd ha.full hb.full fun index hi => ?_
    have hl : index.length = (a.dims.map Dim.name).length := by
      rw [hi.length_eq, Grid.shape, List.length_map, List.length_map]
      rfl
    obtain ⟨place, rfl, hz⟩ := Grid.exists_place ha.nodup hl
    have hp := h place hz
    rwa [Grid.cell?, Grid.cell?, ← dims, ← dims, ← hd, ← Function.comp_def place Dim.name,
      ← List.map_map] at hp
  exact congrArg₂ Aggregate.mk hgrid hr

section Squeeze

theorem dims_squeeze (a : Aggregate) : a.squeeze.dims = a.dims.filter (·.length != 1) :=
  a.grid.dims_squeeze

theorem Named.squeeze (ha : a.Named) : a.squeeze.Named where
  full := ha.full.squeeze
  nodup := by
    rw [dims_squeeze]
    exact ha.nodup.sublist (List.filter_sublist.map _)

theorem squeeze_squeeze (ha : a.grid.Full) : a.squeeze.squeeze = a.squeeze := by
  have hd : a.squeeze.grid.squeeze.dims = a.squeeze.grid.dims := by
    refine (Grid.dims_squeeze _).trans (List.filter_eq_self.2 fun d hd => ?_)
    have hd : d ∈ a.dims.filter (·.length != 1) := dims_squeeze a ▸ hd
    exact (List.mem_filter.1 hd).2
  have hc : a.squeeze.grid.squeeze.cells = a.squeeze.grid.cells := Grid.cells_squeeze ha.squeeze
  have hgrid : a.squeeze.grid.squeeze = a.squeeze.grid := congrArg₂ Grid.mk hd hc
  exact congrArg₂ Aggregate.mk hgrid rfl

end Squeeze

section Select

theorem position?_eq_some_iff :
    d.position? v = some k ↔ ∃ x, First (fun c => (c == v) = true) d.coords k x := by
  rw [Dim.position?, List.findIdx?_eq_some_iff_getElem]
  constructor
  · rintro ⟨hlt, hv, hb⟩
    refine ⟨d.coords[k], List.getElem?_eq_getElem hlt, hv, fun i hi y hy => ?_⟩
    obtain ⟨-, rfl⟩ := List.getElem?_eq_some_iff.1 hy
    exact hb i hi
  · rintro ⟨x, hx⟩
    obtain ⟨hlt, rfl⟩ := List.getElem?_eq_some_iff.1 hx.getElem?
    refine ⟨hlt, hx.holds, fun i hi => ?_⟩
    exact hx.before i hi _ (List.getElem?_eq_getElem (Nat.lt_trans hi hlt))

theorem select_of_not_mem (h : name ∉ a.dims.map Dim.name) (v : Value) :
    a.select name v = .error (.unknownDim name) := by
  have hi : Grid.axis? a.dims name = none := by
    refine List.findIdx?_eq_none_iff.2 fun d hd => beq_false_of_ne fun he => h ?_
    exact he ▸ List.mem_map_of_mem hd
  rw [select, axis, hi]
  rfl

theorem Named.select_of_position? (ha : a.Named) (hd : d ∈ a.dims) (h : d.position? v = none) :
    a.select d.name v = .error (.unknownCoord d.name v.display) := by
  obtain ⟨before, after, hs⟩ := List.append_of_mem hd
  have hi : axis a.dims d.name = .ok before.length := by
    rw [axis, hs, Grid.axis?_between (ha.not_mem_between hs).1]
  rw [select, hi, ha.dim? hd]
  simp only [bind, Except.bind, Option.bind, h]

theorem runs_select (h : a.select name v = .ok g) : g.runs = a.runs := by
  rw [select, bind_eq_ok_iff] at h
  obtain ⟨axis, -, h⟩ := h
  split at h
  · obtain rfl := Except.ok.inj h
    rfl
  · cases h

theorem Named.exists_of_select (ha : a.Named) (h : a.select name v = .ok g) :
    ∃ d ∈ a.dims, d.name = name ∧ ∃ k, d.position? v = some k := by
  by_cases hn : name ∈ a.dims.map Dim.name
  · obtain ⟨d, hd, rfl⟩ := List.mem_map.1 hn
    cases hk : d.position? v with
    | none => rw [ha.select_of_position? hd hk] at h; cases h
    | some k => exact ⟨d, hd, rfl, k, hk⟩
  · rw [select_of_not_mem hn] at h
    cases h

end Select

theorem Named.exists_select_select (ha : a.Named) (hd : d ∈ a.dims) (he : e ∈ a.dims)
    (hne : d.name ≠ e.name) (hu : d.position? u = some i) (hv : e.position? v = some j) :
    ∃ g, (do (← a.select d.name u).select e.name v) = .ok g ∧ g.Named ∧ g.runs = a.runs ∧
      g.dims = a.dims.filter (fun f => f.name != d.name && f.name != e.name) ∧
      ∀ place, place d.name = i → place e.name = j → g.grid.cell? place = a.grid.cell? place := by
  obtain ⟨b, hb, hbd, hbn, hbc⟩ := ha.exists_select hd hu
  have heb : e ∈ b.dims := hbd ▸ List.mem_filter.2 ⟨he, bne_iff_ne.2 hne.symm⟩
  obtain ⟨g, hg, hgd, hgn, hgc⟩ := hbn.exists_select heb hv
  refine ⟨g, bind_eq_ok_iff.2 ⟨b, hb, hg⟩, hgn, ?_, ?_, fun place hi hj => ?_⟩
  · rw [runs_select hg, runs_select hb]
  · rw [hgd, hbd, List.filter_filter]
    exact List.filter_congr fun f _ => Bool.and_comm _ _
  · rw [hgc place hj, hbc place hi]

theorem not_mem_map_name_filter {dims : List Dim} {p : Dim → Bool}
    (h : ∀ f ∈ dims, p f = true → f.name ≠ name) : name ∉ (dims.filter p).map Dim.name := by
  intro hm
  obtain ⟨f, hf, rfl⟩ := List.mem_map.1 hm
  obtain ⟨hf, hp⟩ := List.mem_filter.1 hf
  exact h f hf hp rfl

theorem Named.select_comm (ha : a.Named) (hd : d ∈ a.dims) (he : e ∈ a.dims)
    (hne : d.name ≠ e.name) (hu : d.position? u = some i) (hv : e.position? v = some j) :
    (do (← a.select d.name u).select e.name v) = (do (← a.select e.name v).select d.name u) := by
  obtain ⟨g, hg, hgn, hgr, hgd, hgc⟩ := ha.exists_select_select hd he hne hu hv
  obtain ⟨b, hb, hbn, hbr, hbd, hbc⟩ := ha.exists_select_select he hd hne.symm hv hu
  have hdims : g.dims = b.dims := by
    rw [hgd, hbd]
    exact List.filter_congr fun f _ => Bool.and_comm _ _
  suffices g = b by rw [hg, hb, this]
  refine hgn.eq_of_cell?_eq hbn hdims (hgr.trans hbr.symm) fun place _ => ?_
  -- What a place says along the dimensions that are gone does not matter: let it be the indices.
  have hgone : d.name ∉ g.dims.map Dim.name ∧ e.name ∉ g.dims.map Dim.name := by
    rw [hgd]
    exact ⟨not_mem_map_name_filter (by simp_all), not_mem_map_name_filter (by simp_all)⟩
  have hbgone : d.name ∉ b.dims.map Dim.name ∧ e.name ∉ b.dims.map Dim.name := hdims ▸ hgone
  let place' := Function.update (Function.update place d.name i) e.name j
  have hi : place' d.name = i := (Function.update_of_ne hne _ _).trans (Function.update_self ..)
  have hj : place' e.name = j := Function.update_self ..
  calc g.grid.cell? place
      = g.grid.cell? place' := by rw [Grid.cell?_update hgone.2, Grid.cell?_update hgone.1]
    _ = a.grid.cell? place' := hgc place' hi hj
    _ = b.grid.cell? place' := (hbc place' hj hi).symm
    _ = b.grid.cell? place := by
      rw [Grid.cell?_update hbgone.2, Grid.cell?_update hbgone.1]

theorem Named.select_eq_ok_comm (ha : a.Named) {name' : String} (hne : name ≠ name')
    (h : (do (← a.select name u).select name' v) = .ok g) :
    (do (← a.select name' v).select name u) = .ok g := by
  obtain ⟨b, hb, hg⟩ := bind_eq_ok_iff.1 h
  obtain ⟨d, hd, rfl, i, hi⟩ := ha.exists_of_select hb
  obtain ⟨b', hb', hbd, hbn, -⟩ := ha.exists_select hd hi
  obtain rfl : b' = b := Except.ok.inj (hb'.symm.trans hb)
  obtain ⟨e, he, rfl, j, hj⟩ := hbn.exists_of_select hg
  have he : e ∈ a.dims := (List.mem_filter.1 (hbd ▸ he)).1
  exact (ha.select_comm hd he hne hi hj).symm.trans h

section SelectSqueeze

theorem mem_dims_squeeze : d ∈ a.squeeze.dims ↔ d ∈ a.dims ∧ d.length ≠ 1 := by
  rw [dims_squeeze, List.mem_filter, bne_iff_ne]

theorem Named.not_mem_squeeze (ha : a.Named) (hd : d ∈ a.dims) (h1 : d.length = 1) :
    d.name ∉ a.squeeze.dims.map Dim.name := by
  intro hm
  obtain ⟨e, he, hn⟩ := List.mem_map.1 hm
  obtain ⟨he, hne⟩ := mem_dims_squeeze.1 he
  exact hne (ha.eq_of_name_eq he hd hn ▸ h1)

theorem Named.exists_select_squeeze (ha : a.Named) (hd : d ∈ a.dims) (h1 : d.length ≠ 1)
    (hk : d.position? v = some k) :
    ∃ g, a.select d.name v = .ok g ∧ a.squeeze.select d.name v = .ok g.squeeze := by
  obtain ⟨g, hg, hgd, hgn, hgc⟩ := ha.exists_select hd hk
  obtain ⟨b, hb, hbd, hbn, hbc⟩ := ha.squeeze.exists_select (mem_dims_squeeze.2 ⟨hd, h1⟩) hk
  have hdims : b.dims = g.squeeze.dims := by
    rw [hbd, dims_squeeze, dims_squeeze, hgd, List.filter_filter, List.filter_filter]
    exact List.filter_congr fun f _ => Bool.and_comm _ _
  have hruns : b.runs = g.squeeze.runs := (runs_select hb).trans (runs_select hg).symm
  suffices b = g.squeeze from ⟨g, hg, this ▸ hb⟩
  refine hbn.eq_of_cell?_eq hgn.squeeze hdims hruns fun place hz => ?_
  have hdb : d.name ∉ b.dims.map Dim.name := hbd ▸ not_mem_map_name_filter (by simp)
  have hdg : d.name ∉ g.dims.map Dim.name := hgd ▸ not_mem_map_name_filter (by simp)
  -- Along the dimensions of one coordinate, which are gone, the place is zero as it must be.
  have hsingle : ∀ f ∈ a.dims, f.length = 1 → place f.name = 0 := by
    intro f hf hf1
    have hsub : (b.dims.map Dim.name).Sublist (a.squeeze.dims.map Dim.name) :=
      hbd ▸ List.filter_sublist.map _
    exact hz _ fun hm => ha.not_mem_squeeze hf hf1 (hsub.subset hm)
  let place' := Function.update place d.name k
  have hp : place' d.name = k := Function.update_self ..
  have hsingle' : ∀ f ∈ a.dims, f.length = 1 → place' f.name = 0 := by
    intro f hf hf1
    have hfd : f.name ≠ d.name := fun he => h1 (ha.eq_of_name_eq hf hd he ▸ hf1)
    exact (Function.update_of_ne hfd _ _).trans (hsingle f hf hf1)
  have hgsub : g.dims ⊆ a.dims := hgd ▸ List.filter_subset_self _
  calc b.grid.cell? place
      = b.grid.cell? place' := (Grid.cell?_update hdb).symm
    _ = a.squeeze.grid.cell? place' := hbc place' hp
    _ = a.grid.cell? place' := Grid.cell?_squeeze ha.full hsingle'
    _ = g.grid.cell? place' := (hgc place' hp).symm
    _ = g.grid.cell? place := Grid.cell?_update hdg
    _ = g.squeeze.grid.cell? place :=
      (Grid.cell?_squeeze hgn.full fun f hf => hsingle f (hgsub hf)).symm

theorem Named.select_squeeze (ha : a.Named) (h : ∀ d ∈ a.dims, d.name = name → d.length ≠ 1)
    (v : Value) : a.squeeze.select name v = (a.select name v).map Aggregate.squeeze := by
  by_cases hn : name ∈ a.dims.map Dim.name
  · obtain ⟨d, hd, rfl⟩ := List.mem_map.1 hn
    have h1 := h d hd rfl
    cases hk : d.position? v with
    | none =>
      rw [ha.select_of_position? hd hk,
        ha.squeeze.select_of_position? (mem_dims_squeeze.2 ⟨hd, h1⟩) hk]
      rfl
    | some k =>
      obtain ⟨g, hg, hs⟩ := ha.exists_select_squeeze hd h1 hk
      rw [hg, hs]
      rfl
  · have hns : name ∉ a.squeeze.dims.map Dim.name := by
      rw [dims_squeeze]
      exact not_mem_map_name_filter fun f hf _ he => hn (he ▸ List.mem_map_of_mem hf)
    rw [select_of_not_mem hn, select_of_not_mem hns]
    rfl

end SelectSqueeze

/-- Selections along different dimensions commute and keep the cells at the first positions of
their coordinates. Squeezing drops the dimensions of one coordinate and moves no cell, changes
nothing when repeated, and commutes with selecting along a dimension that it keeps. -/
theorem sliced_in_any_order (ha : a.Named) :
    (∀ name name' u v g, name ≠ name' →
      ((do (← a.select name u).select name' v) = .ok g ↔
        (do (← a.select name' v).select name u) = .ok g)) ∧
    (∀ d ∈ a.dims, ∀ e ∈ a.dims, d.name ≠ e.name → ∀ u v i j x y,
      First (fun c => (c == u) = true) d.coords i x →
      First (fun c => (c == v) = true) e.coords j y →
        ∃ g, (do (← a.select d.name u).select e.name v) = .ok g ∧ g.Named ∧ g.runs = a.runs ∧
          g.dims = a.dims.filter (fun f => f.name != d.name && f.name != e.name) ∧
          ∀ place, place d.name = i → place e.name = j →
            g.grid.cell? place = a.grid.cell? place) ∧
    (a.squeeze.dims = a.dims.filter (·.length != 1) ∧ a.squeeze.means = a.means ∧
      a.squeeze.halfWidths = a.halfWidths ∧ a.squeeze.runs = a.runs) ∧
    a.squeeze.squeeze = a.squeeze ∧
    ∀ name v, (∀ d ∈ a.dims, d.name = name → d.length ≠ 1) →
      a.squeeze.select name v = (a.select name v).map squeeze := by
  have hcells : a.squeeze.grid.cells = a.grid.cells := Grid.cells_squeeze ha.full
  refine ⟨fun name name' u v g hne => ?_, fun d hd e he hne u v i j x y hu hv => ?_,
    ⟨dims_squeeze a, congrArg (List.map Estimate.mean) hcells,
      congrArg (List.map Estimate.halfWidth) hcells, rfl⟩,
    squeeze_squeeze ha.full, fun name v h => ha.select_squeeze h v⟩
  · exact ⟨ha.select_eq_ok_comm hne, ha.select_eq_ok_comm hne.symm⟩
  · exact ha.exists_select_select hd he hne (position?_eq_some_iff.2 ⟨x, hu⟩)
      (position?_eq_some_iff.2 ⟨y, hv⟩)

/-- One dimension has one coordinate, and a coordinate of another one occurs twice. -/
def layered : Aggregate where
  grid :=
    { dims := [⟨"load", [.int 1, .int 2]⟩, ⟨"band", [.text "60GHz"]⟩,
        ⟨"mode", [.text "low", .text "high", .text "low"]⟩]
      cells := (List.range 6).map fun k => ⟨Float.ofNat k, 0.5⟩ }
  runs := 3

theorem sliced_in_any_order_layered :
    layered.Named ∧
      (∃ g, (do (← layered.select "load" (.int 2)).select "mode" (.text "low")) = .ok g ∧
        (do (← layered.select "mode" (.text "low")).select "load" (.int 2)) = .ok g ∧
        g.dims = [⟨"band", [.text "60GHz"]⟩] ∧
        g.grid.cell? (Grid.placeAt "load" "mode" 1 0) = some ⟨Float.ofNat 3, 0.5⟩) ∧
      layered.squeeze.select "mode" (.text "low") =
        (layered.select "mode" (.text "low")).map squeeze := by
  have hn : layered.Named := ⟨rfl, by decide⟩
  obtain ⟨hcomm, hselect, -, -, hsqueeze⟩ := sliced_in_any_order hn
  have hu : First (fun c => (c == Value.int 2) = true) [.int 1, .int 2] 1 (.int 2) :=
    .succ (by decide) (.zero (by decide))
  have hv : First (fun c => (c == Value.text "low") = true)
      [.text "low", .text "high", .text "low"] 0 (.text "low") := .zero (by decide)
  obtain ⟨g, hg, -, -, hdims, hcell⟩ := hselect ⟨"load", _⟩ (.head _) ⟨"mode", _⟩
    (.tail _ (.tail _ (.head _))) (by decide) _ _ _ _ _ _ hu hv
  refine ⟨hn, ⟨g, hg, (hcomm _ _ _ _ _ (by decide)).1 hg, hdims, ?_⟩, hsqueeze _ _ ?_⟩
  · rw [hcell _ rfl rfl]
    rfl
  · decide

end Aggregate
end SimCampaign
