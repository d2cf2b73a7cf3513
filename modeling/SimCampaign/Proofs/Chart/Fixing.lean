import Mathlib.Data.List.Find
import SimCampaign.Chart.Line
import SimCampaign.Proofs.Grid.Named

/-! Dimensions of length one, fixed one after another. The cells that are left are those of the
aggregate before, at index zero along every dimension that was fixed. -/

namespace SimCampaign.Chart
open Aggregate (Named)
open Param (Dim)

variable {a : Aggregate} {fixes : Dim → Bool} {kept dims : List Dim}

def single (fixes : Dim → Bool) (d : Dim) : Bool := fixes d && d.length == 1

theorem exists_fixSingles_of_append (ha : a.Named) (h : a.dims = kept ++ dims) :
    ∃ g, fixSingles fixes dims a = .ok g ∧
      g.dims = kept ++ dims.filter (fun d => !single fixes d) ∧ g.Named ∧
      ∀ place : String → Nat, (∀ d ∈ dims, single fixes d → place d.name = 0) →
        g.grid.cell? place = a.grid.cell? place := by
  -- The dimensions that were visited and kept stand before those still to be visited.
  induction dims generalizing a kept with
  | nil => exact ⟨a, rfl, by simpa using h, ha, fun _ _ => rfl⟩
  | cons d dims ih =>
    have hd : d ∈ a.dims := h ▸ List.mem_append_right _ (List.mem_cons_self ..)
    by_cases hs : single fixes d = true
    · obtain ⟨hf, hl⟩ := Bool.and_eq_true_iff.1 hs
      obtain ⟨only, hc⟩ := List.length_eq_one_iff.1 (beq_iff_eq.1 hl)
      have hp : d.position? only = some 0 := by
        rw [show d = ⟨d.name, [only]⟩ from hc ▸ rfl]
        exact Dim.position?_single ..
      obtain ⟨b, hb, hbd, hbn, hbc⟩ := ha.exists_select hd hp
      obtain ⟨g, hg, hgd, hgn, hgc⟩ := ih hbn (hbd.trans (ha.filter_name h))
      have hstep : fixSingles fixes (d :: dims) a = fixSingles fixes dims b := by
        rw [fixSingles, hf, hc]
        simp only [ofAggregate, hb]
        rfl
      refine ⟨g, hstep.trans hg, ?_, hgn, fun place hz => ?_⟩
      · rw [hgd, List.filter_cons_of_neg (by simp [hs])]
      · have hz' : ∀ e ∈ dims, single fixes e → place e.name = 0 := fun e he =>
          hz e (List.mem_cons_of_mem _ he)
        rw [hgc place hz', hbc place (hz d (List.mem_cons_self ..) hs)]
    · have hnext : a.dims = (kept ++ [d]) ++ dims := by simpa using h
      obtain ⟨g, hg, hgd, hgn, hgc⟩ := ih ha hnext
      have hstep : fixSingles fixes (d :: dims) a = fixSingles fixes dims a := by
        rw [fixSingles]
        split
        · rename_i only hf hc
          exact absurd (by simp [single, hf, Dim.length, hc]) hs
        · rfl
      refine ⟨g, hstep.trans hg, ?_, hgn, fun place hz => ?_⟩
      · rw [hgd, List.filter_cons_of_pos (by simpa using hs), List.append_assoc]
        rfl
      · exact hgc place fun e he => hz e (List.mem_cons_of_mem _ he)

theorem exists_fixSingles (ha : a.Named) (fixes : Dim → Bool) :
    ∃ g, fixSingles fixes a.dims a = .ok g ∧
      g.dims = a.dims.filter (fun d => !single fixes d) ∧ g.Named ∧
      ∀ place : String → Nat, (∀ d ∈ a.dims, single fixes d → place d.name = 0) →
        g.grid.cell? place = a.grid.cell? place :=
  exists_fixSingles_of_append ha (List.nil_append _).symm

section Keeping
variable {keep : List String}

/-- The dimensions that can be neither kept nor fixed. -/
def extraDims (a : Aggregate) (keep : List String) : List Dim :=
  a.dims.filter fun d => !keep.contains d.name && d.length != 1

theorem length_eq_one_of_extraDims (h : extraDims a keep = []) {d : Dim} (hd : d ∈ a.dims)
    (hn : d.name ∉ keep) : d.length = 1 := by
  have hf := List.filter_eq_nil_iff.1 h d hd
  simpa [hn] using hf

theorem dim?_filter {g : Aggregate} {p : Dim → Bool} {name : String} (hg : g.dims = a.dims.filter p)
    (hp : ∀ d, d.name = name → p d = true) : g.dim? name = a.dim? name := by
  have hd : g.grid.dims = a.grid.dims.filter p := hg
  rw [Aggregate.dim?, Aggregate.dim?, Grid.dim?, Grid.dim?, hd, List.find?_filter]
  refine congrArg (List.find? · a.grid.dims) (funext fun d => ?_)
  by_cases hn : d.name = name
  · simp [hp d hn, hn]
  · simp [hn]

theorem keepDims_eq (ha : a.Named) (keep : List String) :
    ∃ g, keepDims a keep =
        (if extraDims a keep ≠ [] then .error (.extraDims ((extraDims a keep).map Dim.name))
        else match keep.find? fun name => (a.dim? name).isNone with
          | some name => .error (.missingDim name)
          | none => .ok g) ∧
      (extraDims a keep = [] → g.dims = a.dims.filter fun d => keep.contains d.name) ∧ g.Named ∧
      ∀ place : String → Nat, (∀ d ∈ a.dims, d.name ∉ keep → place d.name = 0) →
        g.grid.cell? place = a.grid.cell? place := by
  obtain ⟨g, hg, hd, hn, hc⟩ := exists_fixSingles ha fun d => !keep.contains d.name
  refine ⟨g, ?_, fun he => ?_, hn, fun place hz => ?_⟩
  · have hfind : (keep.find? fun name => (g.dim? name).isNone) =
        keep.find? fun name => (a.dim? name).isNone := by
      refine List.find?_congr fun name hk => ?_
      rw [dim?_filter hd fun d hdn => by simp [single, hdn, hk]]
    rw [keepDims, hg]
    simp only [bind, Except.bind, extraDims, hfind]
    rfl
  · rw [hd]
    refine List.filter_congr fun d hdm => ?_
    by_cases hk : d.name ∈ keep
    · simp [single, hk]
    · simp [single, hk, length_eq_one_of_extraDims he hdm hk]
  · refine hc place fun d hdm hs => hz d hdm ?_
    have hf := (Bool.and_eq_true_iff.1 hs).1
    simpa using hf

end Keeping

end SimCampaign.Chart
