import SimCampaign.Proofs.Grid.Coordinates
import SimCampaign.Proofs.Grid.Slicing

/-! Aggregates whose two arrays are kept apart, each under a shape of its own, with every axis,
index and coordinate checked where it is used. None of the checks fails. -/

namespace SimCampaign
open Param (Dim Value)

structure Shaped (α : Type) where
  shape : List Nat
  cells : List α

namespace Shaped
variable {α β : Type}

def Full (x : Shaped α) : Prop := x.cells.length = Grid.cellCount x.shape

def cell? (x : Shaped α) (index : List Nat) : Option α := Grid.at? x.shape index x.cells

/-- The cells that have the index along the axis. -/
def indexAxis? (x : Shaped α) (axis i : Nat) : Option (Shaped α) := do
  let n ← x.shape[axis]?
  if i < n then
    let rest := x.shape.eraseIdx axis
    let cells ← (Grid.indices rest).mapM fun index => x.cell? (index.insertIdx axis i)
    some ⟨rest, cells⟩
  else none

/-- One value for the cells along the axis, at each multi-index of the other axes. -/
def mapAxis? (x : Shaped α) (axis : Nat) (f : List α → β) : Option (Shaped β) := do
  let n ← x.shape[axis]?
  let rest := x.shape.eraseIdx axis
  let cells ← (Grid.indices rest).mapM fun index =>
    ((List.range n).mapM fun i => x.cell? (index.insertIdx axis i)).map f
  some ⟨rest, cells⟩

variable {x : Shaped α} {axis n i : Nat}

theorem indexAxis?_eq_some (hx : x.Full) (hn : x.shape[axis]? = some n) (hi : i < n) :
    x.indexAxis? axis i =
      some ⟨x.shape.eraseIdx axis, Grid.slice x.shape axis i x.cells⟩ := by
  have hcells : (Grid.indices (x.shape.eraseIdx axis)).mapM
      (fun index => x.cell? (index.insertIdx axis i)) =
        some (Grid.slice x.shape axis i x.cells) := by
    refine mapM_eq_some_iff.2 ((Grid.forall₂_indices (Grid.length_slice hn hi hx)).imp ?_)
    -- A cell of the slice is the one at its multi-index with the index put back.
    intro index y hy
    rwa [Grid.at?_slice hn hi hx] at hy
  simp only [indexAxis?, hn, hi, if_true, hcells, bind, Option.bind]

theorem mapAxis?_eq_some (hx : x.Full) (hn : x.shape[axis]? = some n) (f : List α → β) :
    x.mapAxis? axis f =
      some ⟨x.shape.eraseIdx axis, (Grid.lanes x.shape axis x.cells).map f⟩ := by
  have hcells : (Grid.indices (x.shape.eraseIdx axis)).mapM (fun index =>
      ((List.range n).mapM fun i => x.cell? (index.insertIdx axis i)).map f) =
        some ((Grid.lanes x.shape axis x.cells).map f) := by
    refine mapM_eq_some_iff.2 (List.forall₂_map_right_iff.2 ?_)
    refine (Grid.forall₂_indices (Grid.length_lanes hn)).imp fun index lane hlane => ?_
    have hw := Grid.within_of_at?_eq_some hlane
    have hin : ∀ i ∈ List.range n, ∃ y, x.cell? (index.insertIdx axis i) = some y := by
      intro i hi
      exact Grid.exists_at?_insertIdx hn (List.mem_range.1 hi) hx hw
    rw [Grid.at?_lanes hn hw] at hlane
    rw [mapM_eq_some_filterMap hin, ← Option.some.inj hlane]
    rfl
  simp only [mapAxis?, hn, hcells, bind, Option.bind]

end Shaped

namespace Aggregate

/-- An aggregate as dimensions and two arrays that each operation changes one by one. -/
structure Parts where
  dims : List Dim
  means : Shaped Float
  halfWidths : Shaped Float
  runs : Nat

def parts (a : Aggregate) : Parts :=
  { dims := a.dims
    means := ⟨a.grid.shape, a.means⟩
    halfWidths := ⟨a.grid.shape, a.halfWidths⟩
    runs := a.runs }

inductive Step where
  | squeeze
  | select (name : String) (value : Value)

/-- A call that fails leaves the aggregate as it was. -/
def step (a : Aggregate) : Step → Aggregate
  | .squeeze => a.squeeze
  | .select name v =>
    match a.select name v with
    | .ok b => b
    | .error _ => a

namespace Parts

def remove? (dims : List Dim) (axis : Nat) : Option (List Dim) :=
  if axis < dims.length then some (dims.eraseIdx axis) else none

def ofArray? (dims : List Dim) (data : Shaped Float) : Option (Except Error Parts) :=
  match axis dims runsDim with
  | .error e => some (.error e)
  | .ok axis => do
    let d ← dims[axis]?
    let means ← data.mapAxis? axis Statistics.mean
    let halfWidths ← data.mapAxis? axis fun xs =>
      Estimate.score95 * Statistics.populationDeviation xs / (Float.ofNat d.length).sqrt
    let dims ← remove? dims axis
    some (.ok { dims, means, halfWidths, runs := d.length })

def dropAxis? (p : Parts) (axis i : Nat) : Option Parts := do
  let means ← p.means.indexAxis? axis i
  let halfWidths ← p.halfWidths.indexAxis? axis i
  let dims ← remove? p.dims axis
  some { p with dims, means, halfWidths }

def squeezeFirst? (p : Parts) : Nat → Option Parts
  | 0 => some p
  | n + 1 => do
    let d ← p.dims[n]?
    let p ← if d.length = 1 then p.dropAxis? n 0 else some p
    p.squeezeFirst? n

def squeeze? (p : Parts) : Option Parts := p.squeezeFirst? p.dims.length

def select? (p : Parts) (name : String) (v : Value) : Option (Except Error Parts) :=
  match axis p.dims name with
  | .error e => some (.error e)
  | .ok axis => do
    let d ← p.dims[axis]?
    match d.position? v with
    | some i => (p.dropAxis? axis i).map .ok
    | none => some (.error (.unknownCoord name v.display))

def step? (p : Parts) : Step → Option Parts
  | .squeeze => p.squeeze?
  | .select name v => (p.select? name v).map fun r =>
    match r with
    | .ok q => q
    | .error _ => p

def series (p : Parts) : Except Error (List Float × List Float) :=
  if p.dims.length = 1 then .ok (p.means.cells, p.halfWidths.cells)
  else .error (.notOneDim (p.dims.map Dim.name))

def coordText? (index : List Nat) (axis : Nat) (d : Dim) : Option String := do
  let i ← index[axis]?
  let v ← d.coords[i]?
  some v.display

def csvRow? (p : Parts) (index : List Nat) (mean halfWidth : Float) : Option (List String) := do
  let coords ← p.dims.zipIdx.mapM fun (d, axis) => coordText? index axis d
  some (coords ++ [Decimal.plain mean, Decimal.plain halfWidth])

def csv? (p : Parts) : Option String := do
  let rows ← (((Grid.indices p.means.shape).zip p.means.cells).zip p.halfWidths.cells).mapM
    fun ((index, mean), halfWidth) => p.csvRow? index mean halfWidth
  some (Text.Csv.render ((p.dims.map Dim.name ++ ["mean", "ci95"]) :: rows))

/-- Both arrays have the shape of the dimensions, and all the cells of that shape. -/
structure Fits (p : Parts) : Prop where
  shape_means : p.means.shape = p.dims.map Dim.length
  shape_halfWidths : p.halfWidths.shape = p.dims.map Dim.length
  full_means : p.means.Full
  full_halfWidths : p.halfWidths.Full

end Parts

variable {a : Aggregate}

theorem full_map (ha : a.grid.Full) (f : Estimate → Float) :
    Shaped.Full ⟨a.grid.shape, a.grid.cells.map f⟩ :=
  (List.length_map f).trans ha

theorem fits_parts (ha : a.grid.Full) : a.parts.Fits :=
  ⟨rfl, rfl, full_map ha Estimate.mean, full_map ha Estimate.halfWidth⟩

theorem dropAxis?_parts (ha : a.grid.Full) {axis i : Nat} {d : Dim} (hd : a.dims[axis]? = some d)
    (hi : i < d.length) :
    a.parts.dropAxis? axis i = some { a with grid := a.grid.dropAxis axis i }.parts := by
  have hfits := fits_parts ha
  have hn : a.grid.shape[axis]? = some d.length := Grid.getElem?_shape_of_dims hd
  have hmeans := Shaped.indexAxis?_eq_some hfits.full_means hn hi
  have hhalfWidths := Shaped.indexAxis?_eq_some hfits.full_halfWidths hn hi
  have hdims : Parts.remove? a.parts.dims axis = some (a.dims.eraseIdx axis) :=
    if_pos (List.getElem?_eq_some_iff.1 hd).1
  rw [Parts.dropAxis?, hmeans, hhalfWidths, hdims]
  simp only [bind, Option.bind, parts, means, halfWidths, Grid.slice_map, Grid.shape_dropAxis]
  rfl

theorem squeezeFirst?_parts (ha : a.grid.Full) {n : Nat} (hn : n ≤ a.dims.length) :
    a.parts.squeezeFirst? n = some { a with grid := a.grid.squeezeFirst n }.parts := by
  induction n generalizing a with
  | zero => rfl
  | succ n ih =>
    have hlt : n < a.dims.length := hn
    have hd : a.dims[n]? = some a.dims[n] := List.getElem?_eq_getElem hlt
    have hshape : a.grid.shape[n]? = some a.dims[n].length := Grid.getElem?_shape_of_dims hd
    have hparts : a.parts.dims[n]? = some a.dims[n] := hd
    rw [Parts.squeezeFirst?, Grid.squeezeFirst, hparts, hshape]
    simp only [bind, Option.bind, Option.some.injEq]
    split
    next h1 =>
      have hpos : 0 < a.dims[n].length := h1 ▸ Nat.one_pos
      rw [dropAxis?_parts ha hd hpos]
      -- What is left has one dimension less, and that one was not in front.
      refine ih (ha.dropAxis hshape hpos) ?_
      have hl : (a.grid.dropAxis n 0).dims.length = a.dims.length - 1 :=
        List.length_eraseIdx_of_lt hlt
      rw [dims, hl]
      omega
    next => exact ih ha (Nat.le_of_lt hlt)

theorem squeeze?_parts (ha : a.grid.Full) : a.parts.squeeze? = some a.squeeze.parts :=
  squeezeFirst?_parts ha (Nat.le_refl _)

theorem select?_parts (ha : a.grid.Full) (name : String) (v : Value) :
    a.parts.select? name v = some ((a.select name v).map parts) := by
  have hdims : a.parts.dims = a.dims := rfl
  rw [Parts.select?, select, hdims]
  cases hi : axis a.dims name with
  | error e => rfl
  | ok i =>
    obtain ⟨d, hd, hf⟩ := exists_of_axis hi
    have hdim : a.dim? name = some d := hf
    simp only [bind, Option.bind, Except.bind, hd, hdim]
    cases hk : d.position? v with
    | none => rfl
    | some k =>
      have hlt : k < d.length := (List.findIdx?_eq_some_iff_getElem.1 hk).1
      simp only [dropAxis?_parts ha hd hlt]
      rfl

theorem step?_parts (ha : a.grid.Full) (s : Step) :
    a.parts.step? s = some (a.step s).parts ∧ (a.step s).grid.Full := by
  cases s with
  | squeeze => exact ⟨squeeze?_parts ha, ha.squeeze⟩
  | select name v =>
    rw [Parts.step?, step, select?_parts ha]
    cases hb : a.select name v with
    | error e => exact ⟨rfl, ha⟩
    | ok b => exact ⟨rfl, full_select ha hb⟩

theorem foldlM_step?_parts (ha : a.grid.Full) (steps : List Step) :
    steps.foldlM Parts.step? a.parts = some (steps.foldl step a).parts ∧
      (steps.foldl step a).grid.Full := by
  induction steps generalizing a with
  | nil => exact ⟨rfl, ha⟩
  | cons s steps ih =>
    obtain ⟨hs, hfull⟩ := step?_parts ha s
    rw [List.foldlM_cons, hs]
    exact ih hfull

section Csv

theorem mapM_coordText? {dims : List Dim} {index : List Nat}
    (h : Grid.Within index (dims.map Dim.length)) :
    (dims.zipIdx.mapM fun (d, axis) => Parts.coordText? index axis d) =
      some (Grid.coordTexts dims index) := by
  have hl : (Grid.coordTexts dims index).length = dims.length :=
    Grid.length_coordTexts (by rw [h.length_eq, List.length_map])
  refine mapM_eq_some_iff.2 (List.forall₂_iff_get.2 ⟨by rw [List.length_zipIdx, hl], ?_⟩)
  intro j hj hj'
  have hlt : j < dims.length := hl ▸ hj'
  have hd : dims[j]? = some dims[j] := List.getElem?_eq_getElem hlt
  have hn : (dims.map Dim.length)[j]? = some dims[j].length := by
    rw [List.getElem?_map, hd]
    rfl
  obtain ⟨i, hi, hlt'⟩ := getElem?_of_forall₂ h.flip hn
  have hv : dims[j].coords[i]? = some dims[j].coords[i] := List.getElem?_eq_getElem hlt'
  have htext : (Grid.coordTexts dims index).get ⟨j, hj'⟩ = dims[j].coords[i].display := by
    have hget := Grid.getElem?_coordTexts hd hi hv
    rw [List.getElem?_eq_getElem hj'] at hget
    exact Option.some.inj hget
  rw [htext, List.get_eq_getElem, List.getElem_zipIdx]
  simp only [Parts.coordText?, Nat.zero_add, hi, hv, bind, Option.bind]

theorem csvRow?_parts {index : List Nat} (h : Grid.Within index a.grid.shape) (e : Estimate) :
    a.parts.csvRow? index e.mean e.halfWidth = some (a.csvRow index e) := by
  have htexts := mapM_coordText? h
  have hdims : a.parts.dims = a.grid.dims := rfl
  rw [Parts.csvRow?, hdims, htexts]
  rfl

theorem zip_means_halfWidths (indices : List (List Nat)) (es : List Estimate) :
    (indices.zip (es.map Estimate.mean)).zip (es.map Estimate.halfWidth) =
      (indices.zip es).map fun p => ((p.1, p.2.mean), p.2.halfWidth) := by
  induction indices generalizing es with
  | nil => rfl
  | cons index indices ih =>
    cases es with
    | nil => rfl
    | cons e es => exact congrArg (_ :: ·) (ih es)

theorem csv?_parts (a : Aggregate) : a.parts.csv? = some a.csv := by
  have hrows : (((Grid.indices a.grid.shape).zip a.means).zip a.halfWidths).mapM
      (fun ((index, mean), halfWidth) => a.parts.csvRow? index mean halfWidth) =
        some ((Grid.indices a.grid.shape).zipWith (csvRow a) a.grid.cells) := by
    rw [means, halfWidths, zip_means_halfWidths, ← List.map_uncurry_zip_eq_zipWith]
    refine mapM_eq_some_iff.2 (List.forall₂_map_left_iff.2 (List.forall₂_map_right_iff.2 ?_))
    refine List.forall₂_same.2 fun p hp => ?_
    exact csvRow?_parts (Grid.within_of_mem_indices (List.of_mem_zip hp).1) p.2
  have hmeans : a.parts.means = ⟨a.grid.shape, a.means⟩ := rfl
  have hhalfWidths : a.parts.halfWidths = ⟨a.grid.shape, a.halfWidths⟩ := rfl
  rw [Parts.csv?, hmeans, hhalfWidths, hrows]
  rfl

end Csv

theorem ofArray?_eq_some {m : MetricArray} (hm : m.Full) :
    Parts.ofArray? m.dims ⟨m.shape, m.cells⟩ = some ((ofArray m).map parts) := by
  rw [Parts.ofArray?, ofArray]
  cases hi : axis m.dims runsDim with
  | error e => rfl
  | ok i =>
    obtain ⟨d, hd, -⟩ := exists_of_axis hi
    have hlt : i < m.dims.length := (List.getElem?_eq_some_iff.1 hd).1
    have hn : m.shape[i]? = some d.length := Grid.getElem?_shape_of_dims hd
    have hfull : Shaped.Full ⟨m.shape, m.cells⟩ := hm
    have hdims : Parts.remove? m.dims i = some (m.dims.eraseIdx i) := if_pos hlt
    have hruns : m.shape.getD i 0 = d.length := by
      rw [List.getD_eq_getElem?_getD, hn, Option.getD_some]
    have hshape := Grid.shape_reduceAxis m i (Estimate.ofLane d.length)
    have hmeans : (m.reduceAxis i (Estimate.ofLane d.length)).cells.map Estimate.mean =
        (Grid.lanes m.shape i m.cells).map Statistics.mean := List.map_map
    have hhalfWidths : (m.reduceAxis i (Estimate.ofLane d.length)).cells.map Estimate.halfWidth =
        (Grid.lanes m.shape i m.cells).map fun xs =>
          Estimate.score95 * Statistics.populationDeviation xs / (Float.ofNat d.length).sqrt :=
      List.map_map
    simp only [bind, Option.bind, Except.bind, hd, hdims, hruns,
      Shaped.mapAxis?_eq_some hfull hn]
    simp only [Except.map, parts, means, halfWidths, hshape, hmeans, hhalfWidths]
    rfl

/-- Whatever is called on a reduced array, its two arrays keep the shape of its dimensions, and no
axis, index or coordinate is out of range. -/
theorem fits_after_steps {dims : List Dim} {shape : List Nat} {cells : List Float}
    {m : MetricArray} (hm : MetricArray.ofShape dims shape cells = .ok m)
    (hc : cells.length = Grid.cellCount shape) :
    Parts.ofArray? dims ⟨shape, cells⟩ = some ((ofArray m).map parts) ∧
      ∀ a, ofArray m = .ok a → ∀ steps : List Step,
        ∃ p, steps.foldlM Parts.step? a.parts = some p ∧ p.Fits ∧
          p = (steps.foldl step a).parts ∧
          (∀ name v, p.select? name v = some (((steps.foldl step a).select name v).map parts)) ∧
          p.series = (steps.foldl step a).series ∧ p.csv? = some (steps.foldl step a).csv := by
  rw [MetricArray.ofShape] at hm
  split at hm
  next hs =>
    obtain rfl := Except.ok.inj hm
    subst hs
    refine ⟨ofArray?_eq_some (m := ⟨dims, cells⟩) hc, fun a ha steps => ?_⟩
    obtain ⟨hsteps, hfull⟩ := foldlM_step?_parts (full_ofArray ha) steps
    exact ⟨_, hsteps, fits_parts hfull, rfl, select?_parts hfull, rfl, csv?_parts _⟩
  next => cases hm

/-- The name of the first dimension is that of the second, too. -/
def namesakes : List Dim :=
  [⟨"load", [.int 1]⟩, ⟨"load", [.text "low", .text "high"]⟩, ⟨runsDim, [.int 0, .int 1]⟩]

/-- The first selection fails; after the squeeze the name stands for another dimension. -/
theorem fits_after_steps_namesakes : ∃ m a p,
    MetricArray.ofShape namesakes [1, 2, 2] [4.0, 6.0, 1.0, 3.0] = .ok m ∧
      ofArray m = .ok a ∧
      [.select "load" (.text "low"), .squeeze, .select "load" (.text "low")].foldlM
        Parts.step? a.parts = some p ∧
      p.Fits ∧ p.dims = [] := by
  let m : MetricArray := ⟨namesakes, [4.0, 6.0, 1.0, 3.0]⟩
  let a : Aggregate := ⟨m.reduceAxis 2 (Estimate.ofLane 2), 2⟩
  have hm : MetricArray.ofShape namesakes [1, 2, 2] [4.0, 6.0, 1.0, 3.0] = .ok m := rfl
  have ha : ofArray m = .ok a := rfl
  obtain ⟨-, h⟩ := fits_after_steps hm rfl
  obtain ⟨p, hp, hfits, rfl, -⟩ :=
    h a ha [.select "load" (.text "low"), .squeeze, .select "load" (.text "low")]
  exact ⟨m, a, _, hm, ha, hp, hfits, rfl⟩

end Aggregate
end SimCampaign
