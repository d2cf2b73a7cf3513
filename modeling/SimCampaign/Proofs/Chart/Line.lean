import SimCampaign.Proofs.Chart.Fixing
import SimCampaign.Proofs.Except

/-! What a line chart draws, and when it is not drawn. -/

namespace SimCampaign.Chart
open Aggregate (Named)
open Grid (placeAt)
open Param (Dim Value)

namespace LinePlot
variable {a : Aggregate} {p : LinePlot} {x hue : Dim}

def shownCoords (p : LinePlot) (x : Dim) : Coords := .ofValues (p.xValues?.getD x.coords)

/-- There is a value for each coordinate, if there are values. -/
def FitsValues (p : LinePlot) (x : Dim) : Prop := ∀ vs ∈ p.xValues?, vs.length = x.length

theorem xCoords_of_fits (h : p.FitsValues x) : p.xCoords x = .ok (p.shownCoords x) := by
  cases hv : p.xValues? with
  | none => simp only [xCoords, shownCoords, hv, Option.getD_none]
  | some vs => simp only [xCoords, shownCoords, hv, Option.getD_some, if_pos (h vs hv)]

/-- The line of the value `v`, at the index `j` of the hue: the cells along the x axis. -/
def DrawsLine (p : LinePlot) (a : Aggregate) (x hue : Dim) (j : Nat) (v : Value) (t : Trace) :
    Prop :=
  ∃ y errors, t = .line (some (hue.name ++ "=" ++ v.display)) (p.shownCoords x) y errors ∧
    a.ReadsAt x.length (fun i => placeAt x.name hue.name i j) y errors

/-- Two dimensions, along one of which there is a line for each coordinate of the other. -/
structure Spans (a : Aggregate) (x hue : Dim) : Prop where
  named : a.Named
  x_mem : x ∈ a.dims
  hue_mem : hue ∈ a.dims
  ne : x.name ≠ hue.name
  extra : extraDims a [x.name, hue.name] = []

theorem Spans.exists_kept (h : Spans a x hue) :
    ∃ g, keepDims a [x.name, hue.name] = .ok g ∧ g.Named ∧ hue ∈ g.dims ∧ x ∈ g.dims ∧
      g.dims.filter (·.name != hue.name) = [x] ∧
      ∀ i j, g.grid.cell? (placeAt x.name hue.name i j) =
        a.grid.cell? (placeAt x.name hue.name i j) := by
  obtain ⟨g, hg, hd, hn, hc⟩ := keepDims_eq h.named [x.name, hue.name]
  have hdims := hd h.extra
  rw [if_neg (not_not.2 h.extra)] at hg
  have hfound : ([x.name, hue.name].find? fun name => (a.dim? name).isNone) = none := by
    simp [h.named.dim? h.x_mem, h.named.dim? h.hue_mem]
  rw [hfound] at hg
  have hx : x ∈ g.dims := by
    rw [hdims]
    exact List.mem_filter.2 ⟨h.x_mem, by simp⟩
  have hhue : hue ∈ g.dims := by
    rw [hdims]
    exact List.mem_filter.2 ⟨h.hue_mem, by simp⟩
  refine ⟨g, hg, hn, hhue, hx, ?_, fun i j => hc _ fun d _ hk => ?_⟩
  · rw [hdims, List.filter_filter]
    refine h.named.filter_eq_singleton h.x_mem fun e _ => ?_
    have hne := h.ne
    by_cases he : e.name = x.name <;> simp_all
  · simp only [List.mem_cons, List.not_mem_nil, or_false, not_or] at hk
    exact Grid.placeAt_of_ne hk.1 hk.2

theorem Spans.exists_render (h : Spans a x hue) (hx : p.x = x.name) (hh : p.hue? = some hue.name)
    (hf : p.FitsValues x) :
    ∃ ts, p.render a = .ok (p.figure ts) ∧ List.Forall₂ (fun v t =>
      ∃ j, hue.position? v = some j ∧ p.DrawsLine a x hue j v t) hue.coords ts := by
  obtain ⟨g, hg, hn, hhue, hxm, hdims, hc⟩ := h.exists_kept
  have htrace (v) (hv : v ∈ hue.coords) : ∃ t, hueTrace g (p.shownCoords x) hue.name v = .ok t ∧
      ∃ j, hue.position? v = some j ∧ p.DrawsLine a x hue j v t := by
    obtain ⟨j, hj⟩ := Dim.exists_position? hv
    obtain ⟨y, errors, hs, hr⟩ := hn.exists_select_series hhue hdims hj
    refine ⟨_, ?_, j, hj, y, errors, rfl, ?_⟩
    · rw [hueTrace, ofAggregate, hs]
      rfl
    · exact (hr _ fun i => ⟨Grid.placeAt_right h.ne, Grid.placeAt_left⟩).congr fun i => hc i j
  obtain ⟨ts, hts⟩ := exists_forall₂ htrace
  refine ⟨ts, ?_, hts.imp fun _ _ ht => ht.2⟩
  have hreq (d : Dim) (hd : d ∈ g.dims) : require g d.name = .ok d := by
    rw [require, hn.dim? hd]
  have hall : hue.coords.mapM (hueTrace g (p.shownCoords x) hue.name) = .ok ts :=
    mapM_eq_ok_iff.2 (hts.imp fun _ _ ht => ht.1)
  rw [render, hx, hh]
  simp only [Option.toList_some, hg, bind, Except.bind, hreq x hxm, xCoords_of_fits hf]
  rw [traces, hh]
  simp only [bind, Except.bind, hreq hue hhue]
  rw [hall]

section Failure
variable {name : String}

end Failure

/-- The dimensions of a chart: the x axis, the hue, and no other with more or less than one
coordinate. -/
structure Suits (p : LinePlot) (a : Aggregate) (x hue : Dim) : Prop where
  x_mem : x ∈ a.dims
  x_name : x.name = p.x
  hue_mem : hue ∈ a.dims
  hue_name : p.hue? = some hue.name
  others : ∀ d ∈ a.dims, d.name ≠ p.x → d.name ≠ hue.name → d.length = 1
  fits : p.FitsValues x

theorem Suits.spans (h : p.Suits a x hue) (ha : a.Named) (hne : p.x ≠ hue.name) :
    Spans a x hue where
  named := ha
  x_mem := h.x_mem
  hue_mem := h.hue_mem
  ne := h.x_name ▸ hne
  extra := by
    refine List.filter_eq_nil_iff.2 fun d hd hf => ?_
    simp only [List.contains_cons, List.contains_nil, Bool.or_false, h.x_name, Bool.not_or,
      Bool.and_eq_true, Bool.not_eq_true', beq_eq_false_iff_ne, bne_iff_ne] at hf
    exact hf.2 (h.others d hd hf.1.1 hf.1.2)

end LinePlot
end SimCampaign.Chart
