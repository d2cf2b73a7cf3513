import Mathlib.Data.List.Nodup
import SimCampaign.Proofs.Grid.Aggregate
import SimCampaign.Proofs.Param.Value

/-! Cells by the names of their dimensions, in whatever order the dimensions stand. -/

namespace SimCampaign
open Param (Dim Value)

namespace Grid

def cell? {α : Type} (g : Grid α) (place : String → Nat) : Option α :=
  g.get? (g.dims.map fun d => place d.name)

/-- The place with an index along each of two dimensions, and zero along every other. -/
def placeAt (x y : String) (i j : Nat) (name : String) : Nat :=
  if name = x then i else if name = y then j else 0

section Place
variable {x y name : String} {i j : Nat}

theorem placeAt_left : placeAt x y i j x = i := if_pos rfl

theorem placeAt_right (h : x ≠ y) : placeAt x y i j y = j := by
  rw [placeAt, if_neg h.symm, if_pos rfl]

theorem placeAt_of_ne (hx : name ≠ x) (hy : name ≠ y) : placeAt x y i j name = 0 := by
  rw [placeAt, if_neg hx, if_neg hy]

end Place

end Grid

namespace Aggregate
variable {a g : Aggregate} {d e : Dim} {v : Value} {k : Nat} {place : String → Nat}

/-- Every cell is there and has one place by name. -/
structure Named (a : Aggregate) : Prop where
  full : a.grid.Full
  nodup : (a.dims.map Dim.name).Nodup

theorem Named.eq_of_name_eq (ha : a.Named) (hd : d ∈ a.dims) (he : e ∈ a.dims)
    (h : d.name = e.name) : d = e :=
  List.inj_on_of_nodup_map ha.nodup hd he h

theorem Named.dim? (ha : a.Named) (hd : d ∈ a.dims) : a.dim? d.name = some d := by
  obtain ⟨e, he⟩ : ∃ e, a.dim? d.name = some e := Option.isSome_iff_exists.1
    (List.find?_isSome.2 ⟨d, hd, beq_self_eq_true _⟩)
  have hn : e.name = d.name := by simpa using List.find?_some he
  rw [he, ha.eq_of_name_eq (List.mem_of_find?_eq_some he) hd hn]

theorem mem_of_dim? {name : String} (h : a.dim? name = some d) : d ∈ a.dims ∧ d.name = name :=
  ⟨List.mem_of_find?_eq_some h, by simpa using List.find?_some h⟩

section Between
variable {before after : List Dim}

theorem Named.not_mem_between (ha : a.Named) (h : a.dims = before ++ d :: after) :
    d.name ∉ before.map Dim.name ∧ d.name ∉ after.map Dim.name := by
  have hn := ha.nodup
  rw [h, List.map_append, List.map_cons, List.nodup_middle, List.nodup_cons, List.mem_append,
    not_or] at hn
  exact hn.1

theorem filter_name_of_not_mem {name : String} {dims : List Dim} (h : name ∉ dims.map Dim.name) :
    dims.filter (·.name != name) = dims :=
  List.filter_eq_self.2 fun _ he => bne_iff_ne.2 fun hn => h (hn ▸ List.mem_map_of_mem he)

theorem Named.filter_name (ha : a.Named) (h : a.dims = before ++ d :: after) :
    a.dims.filter (·.name != d.name) = before ++ after := by
  obtain ⟨hb, hf⟩ := ha.not_mem_between h
  rw [h, List.filter_append, List.filter_cons_of_neg (by simp), filter_name_of_not_mem hb,
    filter_name_of_not_mem hf]

theorem Named.filter_eq_singleton (ha : a.Named) (hd : d ∈ a.dims) {p : Dim → Bool}
    (hp : ∀ e ∈ a.dims, p e = true ↔ e.name = d.name) : a.dims.filter p = [d] := by
  obtain ⟨before, after, h⟩ := List.append_of_mem hd
  obtain ⟨hb, hf⟩ := ha.not_mem_between h
  have hnil (dims : List Dim) (hs : dims ⊆ a.dims) (hn : d.name ∉ dims.map Dim.name) :
      dims.filter p = [] :=
    List.filter_eq_nil_iff.2 fun e he hpe => hn ((hp e (hs he)).1 hpe ▸ List.mem_map_of_mem he)
  have hbs : before ⊆ a.dims := h ▸ List.subset_append_left ..
  have hfs : after ⊆ a.dims := h ▸ fun e he => List.mem_append_right _ (.tail _ he)
  have hd' : (d :: after).filter p = [d] := by
    rw [List.filter_cons_of_pos ((hp d hd).2 rfl), hnil _ hfs hf]
  rw [h, List.filter_append, hnil _ hbs hb, hd', List.nil_append]

end Between

theorem Named.exists_select (ha : a.Named) (hd : d ∈ a.dims) (hk : d.position? v = some k) :
    ∃ g, a.select d.name v = .ok g ∧ g.dims = a.dims.filter (·.name != d.name) ∧ g.Named ∧
      ∀ place, place d.name = k → g.grid.cell? place = a.grid.cell? place := by
  obtain ⟨before, after, h⟩ := List.append_of_mem hd
  have hb := (ha.not_mem_between h).1
  obtain ⟨g, hg, hdims, -, hfull, hc⟩ := Aggregate.exists_select ha.full h hb hk
  have hf : g.dims = a.dims.filter (·.name != d.name) := hdims.trans (ha.filter_name h).symm
  have hsub : (g.dims.map Dim.name).Sublist (a.dims.map Dim.name) :=
    hf ▸ List.filter_sublist.map _
  refine ⟨g, hg, hf, ⟨hfull, ha.nodup.sublist hsub⟩, fun place hp => ?_⟩
  have hgd : g.grid.dims = before ++ after := hdims
  have had : a.grid.dims = before ++ d :: after := h
  rw [Grid.cell?, Grid.cell?, hgd, had, List.map_append, List.map_append, List.map_cons, hp]
  exact hc _ _ (List.length_map _)

/-- The means and half-widths of the cells at the first `n` of some places. -/
def ReadsAt (a : Aggregate) (n : Nat) (place : Nat → String → Nat) (means halfWidths : List Float) :
    Prop :=
  means.length = n ∧ halfWidths.length = n ∧ ∀ i < n, ∃ cell, a.grid.cell? (place i) = some cell ∧
    means[i]? = some cell.mean ∧ halfWidths[i]? = some cell.halfWidth

theorem ReadsAt.congr {n : Nat} {place : Nat → String → Nat} {means halfWidths : List Float}
    (h : g.ReadsAt n place means halfWidths)
    (hc : ∀ i, g.grid.cell? (place i) = a.grid.cell? (place i)) :
    a.ReadsAt n place means halfWidths := by
  obtain ⟨hm, hw, hcells⟩ := h
  refine ⟨hm, hw, fun i hi => ?_⟩
  rw [← hc]
  exact hcells i hi

theorem Named.exists_series (ha : a.Named) (h : a.dims = [d]) :
    ∃ means halfWidths, a.series = .ok (means, halfWidths) ∧
      ∀ place : Nat → String → Nat, (∀ i, place i d.name = i) →
        a.ReadsAt d.length place means halfWidths := by
  have hs : a.grid.shape = [d.length] := by rw [Grid.shape, ← dims, h]; rfl
  have hl : a.grid.cells.length = d.length := by
    rw [ha.full, hs, Grid.cellCount, Grid.cellCount, Nat.mul_one]
  refine ⟨a.means, a.halfWidths, by rw [series, h]; rfl, fun place hp => ⟨?_, ?_, fun i hi => ?_⟩⟩
  · rw [means, List.length_map, hl]
  · rw [halfWidths, List.length_map, hl]
  · have hw : Grid.Within [i] [d.length] := .cons hi .nil
    have hc : a.grid.cell? (place i) = a.grid.cells[i]? := by
      have hd : a.grid.dims = [d] := h
      rw [Grid.cell?, hd, List.map_singleton, hp, Grid.get?, hs, Grid.at?_eq_getElem? hw]
      simp [Grid.offset, Grid.cellCount]
    obtain ⟨cell, hi'⟩ : ∃ cell, a.grid.cells[i]? = some cell :=
      ⟨_, List.getElem?_eq_getElem (hl ▸ hi)⟩
    refine ⟨cell, hc.trans hi', ?_, ?_⟩
    · rw [means, List.getElem?_map, hi', Option.map_some]
    · rw [halfWidths, List.getElem?_map, hi', Option.map_some]

theorem Named.exists_select_series (ha : a.Named) (hd : d ∈ a.dims)
    (h : a.dims.filter (·.name != d.name) = [e]) (hk : d.position? v = some k) :
    ∃ means halfWidths, (do (← a.select d.name v).series) = .ok (means, halfWidths) ∧
      ∀ place : Nat → String → Nat, (∀ i, place i d.name = k ∧ place i e.name = i) →
        a.ReadsAt e.length place means halfWidths := by
  obtain ⟨g, hg, hdims, hgn, hc⟩ := ha.exists_select hd hk
  obtain ⟨means, halfWidths, hs, hr⟩ := hgn.exists_series (hdims.trans h)
  refine ⟨means, halfWidths, by rw [hg]; exact hs, fun place hp => ?_⟩
  exact (hr place fun i => (hp i).2).congr fun i => hc _ (hp i).1

end Aggregate
end SimCampaign
