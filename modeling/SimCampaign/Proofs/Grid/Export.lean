import SimCampaign.Proofs.Decimal.Layout
import SimCampaign.Proofs.Grid.Coordinates
import SimCampaign.Proofs.Grid.Slicing
import SimCampaign.Proofs.Table.Csv
import SimCampaign.Proofs.Text.Blank

/-! Aggregates read back from their tables. -/

namespace SimCampaign
open Param (Dim Value)
open Grid (Within digits)
open Table (number?)
open Text.Csv (Unquoted)

section Numbers
variable {x : Float}

theorem Decimal.unquoted_plain (x : Float) : Unquoted (plain x) := by
  have hmarks : plainMarks.all (!Text.Csv.needsQuotes ·) = true := by decide
  rw [Text.Csv.unquoted_iff]
  intro c hc
  rcases mem_plain hc with hd | hc
  · exact Text.Csv.needsQuotes_of_isDigit hd
  · simpa using List.all_eq_true.1 hmarks c hc

theorem Decimal.trim_plain (x : Float) : Text.trim (plain x).toList = (plain x).toList := by
  have hmarks : plainMarks.all (!Text.isBlank ·) = true := by decide
  refine Text.trim_eq_self fun c hc => ?_
  rcases mem_plain hc with hd | hc
  · exact Text.isBlank_of_isDigit hd
  · simpa using List.all_eq_true.1 hmarks c hc

theorem Table.number?_plain (h : Decimal.float? (Decimal.plain x).toList = some x) :
    number? (Decimal.plain x) = some x := by
  rw [number?, Decimal.trim_plain, h]

end Numbers

namespace Aggregate
variable {a : Aggregate} {k : Nat} {e : Estimate}

/-- Names and coordinates that are written as they are, under a header whose names tell the numbers
from the coordinates. -/
structure Exportable (a : Aggregate) : Prop where
  names : ∀ d ∈ a.dims, Unquoted d.name ∧ d.name ≠ "mean" ∧ d.name ≠ "ci95"
  coords : ∀ d ∈ a.dims, ∀ v ∈ d.coords, Unquoted v.display
  unmarked : ∀ s ∈ a.csvHeader.head?, s.toList.head? ≠ some Table.byteOrderMark

/-- Whether every number of an aggregate is the one that its text stands for. -/
def KeepsNumbers (a : Aggregate) : Prop := ∀ e ∈ a.grid.cells,
  Decimal.float? (Decimal.plain e.mean).toList = some e.mean ∧
    Decimal.float? (Decimal.plain e.halfWidth).toList = some e.halfWidth

/-- Whether a table has one row for each cell in row-major order. -/
structure Exported (a : Aggregate) (t : Table) : Prop where
  names_eq : t.names = a.dims.map Dim.name ++ ["mean", "ci95"]
  rows_eq : t.rows = a.grid.cells.length
  coords : ∀ (j : Nat) (d : Dim), a.dims[j]? = some d →
    ∃ vs, t.columns[j]? = some (d.name, .text vs) ∧ vs.length = a.grid.cells.length ∧
      ∀ k < a.grid.cells.length, ∃ i v, (digits a.grid.shape k)[j]? = some i ∧
        d.coords[i]? = some v ∧ vs[k]? = some v.display
  means_eq : t.numeric "mean" = .ok a.means
  halfWidths_eq : t.numeric "ci95" = .ok a.halfWidths

def csvRows (a : Aggregate) : List (List String) :=
  (Grid.indices a.grid.shape).zipWith (csvRow a) a.grid.cells

section Rows

theorem csvRows_eq (ha : a.grid.Full) :
    a.csvRows = a.grid.cells.zipIdx.map fun p => a.csvRow (digits a.grid.shape p.2) p.1 := by
  apply List.ext_getElem?
  intro k
  rw [csvRows, List.getElem?_zipWith, List.getElem?_map, List.getElem?_zipIdx]
  cases hc : a.grid.cells[k]? with
  | none => cases (Grid.indices a.grid.shape)[k]? <;> rfl
  | some e =>
    have hk : k < Grid.cellCount a.grid.shape := ha ▸ (List.getElem?_eq_some_iff.1 hc).1
    rw [Grid.getElem?_indices hk]
    simp

theorem length_csvRows (ha : a.grid.Full) : a.csvRows.length = a.grid.cells.length := by
  rw [csvRows_eq ha, List.length_map, List.length_zipIdx]

theorem getElem?_csvRows (ha : a.grid.Full) (hk : a.grid.cells[k]? = some e) :
    a.csvRows[k]? = some (a.csvRow (digits a.grid.shape k) e) := by
  rw [csvRows_eq ha, List.getElem?_map, List.getElem?_zipIdx, hk]
  simp

theorem exists_of_mem_csvRows (ha : a.grid.Full) {r : List String} (hr : r ∈ a.csvRows) :
    ∃ k e, a.grid.cells[k]? = some e ∧ r = a.csvRow (digits a.grid.shape k) e := by
  rw [csvRows_eq ha] at hr
  obtain ⟨p, hp, rfl⟩ := List.mem_map.1 hr
  exact ⟨p.2, p.1, List.mem_zipIdx_iff_getElem?.1 hp, rfl⟩

theorem within_of_getElem? (ha : a.grid.Full) (hk : a.grid.cells[k]? = some e) :
    Within (digits a.grid.shape k) a.grid.shape := by
  have hlt : k < Grid.cellCount a.grid.shape := ha ▸ (List.getElem?_eq_some_iff.1 hk).1
  exact Grid.within_digits (Nat.zero_lt_of_lt hlt) k

theorem length_coordTexts_of_within {index : List Nat} (h : Within index a.grid.shape) :
    (Grid.coordTexts a.dims index).length = a.dims.length := by
  apply Grid.length_coordTexts
  rw [h.length_eq, Grid.shape, List.length_map]
  rfl

variable {index : List Nat} (h : Within index a.grid.shape) (e : Estimate)
include h

theorem length_csvRow : (a.csvRow index e).length = a.csvHeader.length := by
  rw [csvRow, csvHeader, List.length_append, List.length_append, length_coordTexts_of_within h,
    List.length_map]
  rfl

theorem getElem?_csvRow_mean :
    (a.csvRow index e)[a.dims.length]? = some (Decimal.plain e.mean) := by
  rw [csvRow, ← length_coordTexts_of_within h, List.getElem?_append_right (Nat.le_refl _),
    Nat.sub_self]
  rfl

theorem getElem?_csvRow_halfWidth :
    (a.csvRow index e)[a.dims.length + 1]? = some (Decimal.plain e.halfWidth) := by
  rw [csvRow, ← length_coordTexts_of_within h, List.getElem?_append_right (Nat.le_add_right _ 1),
    Nat.add_sub_cancel_left]
  rfl

end Rows

theorem getElem?_csvHeader {j : Nat} {d : Dim} (hd : a.dims[j]? = some d) :
    a.csvHeader[j]? = some d.name := by
  have hn : (a.dims.map Dim.name)[j]? = some d.name := by rw [List.getElem?_map, hd]; rfl
  rw [csvHeader, List.getElem?_append_left (List.getElem?_eq_some_iff.1 hn).1, hn]

theorem csvHeader_mean : a.csvHeader[a.dims.length]? = some "mean" := by
  simp [csvHeader]

theorem csvHeader_halfWidth : a.csvHeader[a.dims.length + 1]? = some "ci95" := by
  simp [csvHeader]

theorem take_csvHeader : a.csvHeader.take a.dims.length = a.dims.map Dim.name := by
  simp [csvHeader]

theorem take_csvHeader_succ :
    a.csvHeader.take (a.dims.length + 1) = a.dims.map Dim.name ++ ["mean"] := by
  have hl : (a.dims.map Dim.name).length ≤ a.dims.length + 1 := by simp
  rw [csvHeader, List.take_append, List.take_of_length_le hl, List.length_map,
    Nat.add_sub_cancel_left]
  rfl

/-- One of the two columns of numbers. -/
theorem forall₂_csvRows (ha : a.grid.Full) {j : Nat} {number : Estimate → Float}
    (hj : ∀ index e, Within index a.grid.shape →
      (a.csvRow index e)[j]? = some (Decimal.plain (number e)))
    (hk : ∀ e ∈ a.grid.cells,
      Decimal.float? (Decimal.plain (number e)).toList = some (number e)) :
    List.Forall₂ (fun row x => ∃ s, row[j]? = some s ∧ number? s = some x) a.csvRows
      (a.grid.cells.map number) := by
  have hcells : a.grid.cells.map number = a.grid.cells.zipIdx.map fun p => number p.1 := by
    calc a.grid.cells.map number
        = (a.grid.cells.zipIdx.map Prod.fst).map number := by rw [List.zipIdx_map_fst]
      _ = a.grid.cells.zipIdx.map fun p => number p.1 := List.map_map
  rw [csvRows_eq ha, hcells, List.forall₂_map_left_iff, List.forall₂_map_right_iff]
  refine List.forall₂_same.2 fun p hp => ?_
  have hp : a.grid.cells[p.2]? = some p.1 := List.mem_zipIdx_iff_getElem?.1 hp
  exact ⟨_, hj _ _ (within_of_getElem? ha hp),
    Table.number?_plain (hk p.1 (List.mem_of_getElem? hp))⟩

namespace Exportable
variable (h : a.Exportable)
include h

theorem unquoted_csvHeader : ∀ s ∈ a.csvHeader, Unquoted s := by
  intro s hs
  rcases List.mem_append.1 hs with hs | hs
  · obtain ⟨d, hd, rfl⟩ := List.mem_map.1 hs
    exact (h.names d hd).1
  · have hlast : ∀ s ∈ ["mean", "ci95"], Unquoted s := by decide
    exact hlast s hs

theorem unquoted_csvRow {index : List Nat} (hi : Within index a.grid.shape) (e : Estimate) :
    ∀ s ∈ a.csvRow index e, Unquoted s := by
  intro s hs
  rcases List.mem_append.1 hs with hs | hs
  · obtain ⟨d, hd, v, hv, rfl⟩ := Grid.exists_of_mem_coordTexts hi hs
    exact h.coords d hd v hv
  · rcases List.mem_cons.1 hs with rfl | hs
    · exact Decimal.unquoted_plain _
    · rw [List.mem_singleton.1 hs]
      exact Decimal.unquoted_plain _

theorem name_not_mem : "mean" ∉ a.dims.map Dim.name ∧ "ci95" ∉ a.dims.map Dim.name := by
  constructor <;>
  · intro hm
    obtain ⟨d, hd, he⟩ := List.mem_map.1 hm
    obtain ⟨-, hmean, hci⟩ := h.names d hd
    first | exact hmean he | exact hci he

theorem number?_of_contains (hk : a.KeepsNumbers) (ha : a.grid.Full) {j : Nat} {name : String}
    (hj : a.csvHeader[j]? = some name)
    (hc : (Table.Selection.named ["mean", "ci95"]).contains name = true) :
    ∀ r ∈ a.csvRows, ∀ s ∈ r[j]?, ∃ x, number? s = some x := by
  have hname : name = "mean" ∨ name = "ci95" := by simpa [Table.Selection.contains] using hc
  have hle : a.dims.length ≤ j := by
    refine Nat.le_of_not_lt fun hlt => ?_
    rw [csvHeader, List.getElem?_append_left (by simpa using hlt)] at hj
    have hm : name ∈ a.dims.map Dim.name := List.mem_of_getElem? hj
    obtain ⟨hmean, hci⟩ := h.name_not_mem
    rcases hname with rfl | rfl
    · exact hmean hm
    · exact hci hm
  intro r hr s hs
  obtain ⟨k, e, he, rfl⟩ := exists_of_mem_csvRows ha hr
  have hl := length_coordTexts_of_within (within_of_getElem? ha he)
  rw [csvRow, List.getElem?_append_right (hl ▸ hle)] at hs
  obtain ⟨hmean, hhalfWidth⟩ := hk e (List.mem_of_getElem? he)
  have hs : s = Decimal.plain e.mean ∨ s = Decimal.plain e.halfWidth := by
    simpa using List.mem_of_getElem? hs
  rcases hs with rfl | rfl
  · exact ⟨_, Table.number?_plain hmean⟩
  · exact ⟨_, Table.number?_plain hhalfWidth⟩

theorem exists_parse (hk : a.KeepsNumbers) (ha : a.grid.Full) (hn : 2 ≤ a.grid.cells.length) :
    ∃ t, Table.parse { numeric := .named ["mean", "ci95"] } a.csv = .ok t ∧
      t.Holds a.csvHeader a.csvRows (.named ["mean", "ci95"]) := by
  have hunquoted : ∀ r ∈ a.csvHeader :: a.csvRows, ∀ s ∈ r, Unquoted s := by
    intro r hr
    rcases List.mem_cons.1 hr with rfl | hr
    · exact h.unquoted_csvHeader
    · obtain ⟨k, e, he, rfl⟩ := exists_of_mem_csvRows ha hr
      exact h.unquoted_csvRow (within_of_getElem? ha he) e
  have hwide : 2 ≤ a.csvHeader.length := by simp [csvHeader]
  have hwidth : ∀ r ∈ a.csvRows, r.length = a.csvHeader.length := by
    intro r hr
    obtain ⟨k, e, he, rfl⟩ := exists_of_mem_csvRows ha hr
    exact length_csvRow (within_of_getElem? ha he) e
  have hmany : 2 ≤ a.csvRows.length := by rwa [length_csvRows ha]
  have hmissing : Table.missingColumn? a.csvHeader (.named ["mean", "ci95"]) = none :=
    Table.missingColumn?_named_eq_none fun s hs => List.mem_append_right _ hs
  exact Table.exists_parse_render hunquoted hwide h.unmarked hwidth hmany hmissing
    fun j name hj hc => h.number?_of_contains hk ha hj hc

theorem coords_of_holds (ha : a.grid.Full) {t : Table}
    (ht : t.Holds a.csvHeader a.csvRows (.named ["mean", "ci95"])) {j : Nat} {d : Dim}
    (hd : a.dims[j]? = some d) :
    ∃ vs, t.columns[j]? = some (d.name, .text vs) ∧ vs.length = a.grid.cells.length ∧
      ∀ k < a.grid.cells.length, ∃ i v, (digits a.grid.shape k)[j]? = some i ∧
        d.coords[i]? = some v ∧ vs[k]? = some v.display := by
  obtain ⟨c, hc, hr⟩ := ht.columns j d.name (getElem?_csvHeader hd)
  have hnum : (Table.Selection.named ["mean", "ci95"]).contains d.name = false := by
    obtain ⟨-, hmean, hci⟩ := h.names d (List.mem_of_getElem? hd)
    simp [Table.Selection.contains, hmean, hci]
  rw [hnum] at hr
  cases hr with
  | @text vs hvs =>
    refine ⟨vs, hc, ?_, fun k hk => ?_⟩
    · rw [← hvs.length_eq, length_csvRows ha]
    · have he : a.grid.cells[k]? = some a.grid.cells[k] := List.getElem?_eq_getElem hk
      have hw := within_of_getElem? ha he
      have hn : a.grid.shape[j]? = some d.length := by
        rw [Grid.shape, List.getElem?_map, ← dims, hd]
        rfl
      -- The digit along the dimension is the index of one of its coordinates.
      obtain ⟨i, hi, hlt⟩ := getElem?_of_forall₂ hw.flip hn
      have hv : d.coords[i]? = some d.coords[i] := List.getElem?_eq_getElem hlt
      refine ⟨i, d.coords[i], hi, hv, ?_⟩
      obtain ⟨s, hs, hrow⟩ := getElem?_of_forall₂ hvs (getElem?_csvRows ha he)
      have htext := Grid.getElem?_coordTexts hd hi hv
      rw [csvRow, List.getElem?_append_left (List.getElem?_eq_some_iff.1 htext).1, htext] at hrow
      exact hs.trans hrow.symm

end Exportable

/-- The table of an aggregate, however it was sliced, is read as its coordinates, means and
half-widths. -/
theorem exported_of_obtained (ha : a.Obtained) (h : a.Exportable) (hk : a.KeepsNumbers)
    (hn : 2 ≤ a.grid.cells.length) :
    ∃ t, Table.parse { numeric := .named ["mean", "ci95"] } a.csv = .ok t ∧ a.Exported t := by
  have hfull : a.grid.Full := ha.full
  obtain ⟨t, ht, hholds⟩ := h.exists_parse hk hfull hn
  obtain ⟨hmean, hci⟩ := h.name_not_mem
  have hmeans : t.numeric "mean" = .ok a.means := by
    refine hholds.numeric_eq_ok csvHeader_mean (by rwa [take_csvHeader]) (by decide) ?_
    exact forall₂_csvRows hfull (fun _ e hi => getElem?_csvRow_mean hi e) fun e he => (hk e he).1
  have hhalfWidths : t.numeric "ci95" = .ok a.halfWidths := by
    refine hholds.numeric_eq_ok csvHeader_halfWidth ?_ (by decide) ?_
    · rw [take_csvHeader_succ]
      simpa using hci
    · exact forall₂_csvRows hfull (fun _ e hi => getElem?_csvRow_halfWidth hi e) fun e he =>
        (hk e he).2
  exact ⟨t, ht, hholds.names_eq, by rw [hholds.rows_eq, length_csvRows hfull],
    fun j d hd => h.coords_of_holds hfull hholds hd, hmeans, hhalfWidths⟩

def loads : MetricArray where
  dims := [⟨"simulationTime", [.float 10.0]⟩, ⟨"appRate", [.text "50Mbps", .text ""]⟩,
    ⟨"load", [.float 0.5, .float (1.0 / 0.0)]⟩, ⟨runsDim, [.int 0, .int 1]⟩]
  cells := [4.0, 4.0, 6.0, 7.0, 0.0 / 0.0, 1.0, 0.5, 1e-7]

/-- Of the loads, what varies from run to run is reduced, and a single coordinate is dropped. -/
theorem exported_squeeze_loads : ∃ a t, ofArray loads = .ok a ∧
    Table.parse { numeric := .named ["mean", "ci95"] } a.squeeze.csv = .ok t ∧
      a.squeeze.Exported t := by
  let a : Aggregate := ⟨loads.reduceAxis 3 (Estimate.ofLane 2), 2⟩
  have ha : ofArray loads = .ok a := rfl
  have hdims : a.squeeze.dims =
      [⟨"appRate", [.text "50Mbps", .text ""]⟩, ⟨"load", [.float 0.5, .float (1.0 / 0.0)]⟩] := rfl
  have hnames : ∀ d ∈ a.squeeze.dims, Unquoted d.name ∧ d.name ≠ "mean" ∧ d.name ≠ "ci95" := by
    rw [hdims]
    simp only [List.forall_mem_cons]
    decide
  have hcoords : ∀ d ∈ a.squeeze.dims, ∀ v ∈ d.coords, Unquoted v.display := by
    rw [hdims]
    simp only [List.forall_mem_cons]
    decide +kernel
  have hkeeps : a.squeeze.KeepsNumbers := by
    rw [KeepsNumbers]
    decide +kernel
  have hobtained : a.squeeze.Obtained := .squeeze (.reduced ha)
  obtain ⟨t, ht⟩ := exported_of_obtained hobtained ⟨hnames, hcoords, by decide⟩ hkeeps (by decide)
  exact ⟨a, t, ha, ht⟩

end Aggregate
end SimCampaign
