import SimCampaign.Proofs.Campaign.Evaluation
import SimCampaign.Proofs.Grid.Aggregate

/-! What the reduction of an array averages over: the repetitions, unless a parameter has their
name. -/

namespace SimCampaign.Campaign
open Param (Assignment Dim Entry Space)
open Param.Space (counts pick)
open Grid (at? Within)

def labelDims (reducer : Metric.Reducer) (length? : Option Nat) : List Dim :=
  length?.toList.map fun n => ⟨metricsDim, (reducer.labels n).map .text⟩

/-- Each cell has the estimate over the repetitions of an assignment. -/
structure OverRepetitions (results : Results) (reducer : Metric.Reducer) (space : Space)
    (runs : Nat) (length? : Option Nat) (g : Aggregate) : Prop where
  dims : g.dims = space.dims ++ labelDims reducer (knownLength space runs length?)
  reduced : g.runs = runs
  full : g.grid.Full
  cells : ∀ index, Within index g.grid.shape → ∃ choice rest a xs, index = choice ++ rest ∧
    pick space.pairs choice = some a.pairs ∧ xs.length = runs ∧
    (∀ r < runs, ∃ v x, value? results reducer runs a r = some v ∧ v.component? rest = some x ∧
      xs[r]? = some x) ∧
    g.grid.get? index = some (Estimate.ofLane runs xs)

/-- Each cell has the estimate over the candidates of one parameter, in one repetition. -/
structure OverCandidates (results : Results) (reducer : Metric.Reducer) (space : Space)
    (runs : Nat) (length? : Option Nat) (axis count : Nat) (g : Aggregate) : Prop where
  dims : g.dims = space.dims.eraseIdx axis ++ ⟨runsDim, (List.range runs).map .ofNat⟩ ::
    labelDims reducer (knownLength space runs length?)
  reduced : g.runs = count
  full : g.grid.Full
  cells : ∀ index, Within index g.grid.shape → ∃ i j r rest xs, index = i ++ j ++ r :: rest ∧
    i.length = axis ∧ xs.length = count ∧
    (∀ k < count, ∃ a v x, pick space.pairs (i ++ k :: j) = some a.pairs ∧
      value? results reducer runs a r = some v ∧ v.component? rest = some x ∧ xs[k]? = some x) ∧
    g.grid.get? index = some (Estimate.ofLane count xs)

/-- The numbers at one place of the values of an assignment. -/
def lane (results : Results) (reducer : Metric.Reducer) (runs : Nat) (a : Assignment)
    (rest : List Nat) : List Float :=
  (List.range runs).filterMap fun r => (value? results reducer runs a r).bind (·.component? rest)

variable {results : Results} {reducer : Metric.Reducer} {space : Space} {runs : Nat}
  {length? : Option Nat} {m : MetricArray}

namespace Tabulates

theorem dims_eq (h : Tabulates results reducer space runs length? m) :
    m.dims = space.dims ++ ⟨runsDim, (List.range runs).map .ofNat⟩ ::
      labelDims reducer (knownLength space runs length?) := by
  rw [h.dims, arrayDims_eq]
  rfl

theorem map_length_labelDims (h : Tabulates results reducer space runs length? m) :
    (labelDims reducer (knownLength space runs length?)).map Dim.length =
      (knownLength space runs length?).toList := by
  have hs := (Grid.shape_between h.dims_eq).symm.trans h.shape
  rw [map_length_dims, List.append_cancel_left_eq] at hs
  exact (List.cons.inj hs).2

theorem exists_ofArray (h : Tabulates results reducer space runs length? m)
    (hf : runsDim ∉ space.names) :
    ∃ g, Aggregate.ofArray m = .ok g ∧
      g.dims = space.dims ++ labelDims reducer (knownLength space runs length?) ∧
      g.runs = runs ∧ g.grid.Full ∧
      ∀ choice a rest, at? (counts space.pairs) choice space.assignments = some a →
        Within rest (knownLength space runs length?).toList →
        g.grid.get? (choice ++ rest) =
          some (Estimate.ofLane runs (lane results reducer runs a rest)) := by
  have hb : runsDim ∉ space.dims.map Dim.name := by
    rwa [Space.dims_eq_map, Space.map_name_dim]
  obtain ⟨g, hg, hd, hn, hfull, hc⟩ := Aggregate.exists_ofArray h.dims_eq hb
  rw [List.length_map, List.length_range] at hn hc
  refine ⟨g, hg, hd, hn, hfull, ?_⟩
  intro choice a rest ha hr
  have hw : Within choice (space.dims.map Dim.length) := by
    rw [map_length_dims]
    exact Grid.within_of_at?_eq_some ha
  rw [hc choice rest hw (h.map_length_labelDims ▸ hr), lane]
  simp only [h.get? choice a ha]

theorem overRepetitions (h : Tabulates results reducer space runs length? m)
    (hf : runsDim ∉ space.names) :
    ∃ g, Aggregate.ofArray m = .ok g ∧ OverRepetitions results reducer space runs length? g := by
  obtain ⟨g, hg, hd, hn, hfull, hc⟩ := h.exists_ofArray hf
  refine ⟨g, hg, hd, hn, hfull, ?_⟩
  intro index hw
  rw [Grid.shape, ← Aggregate.dims, hd, List.map_append, map_length_dims, h.map_length_labelDims,
    Grid.within_append_iff] at hw
  obtain ⟨choice, rest, rfl, hi, hr⟩ := hw
  obtain ⟨a, ha, hp⟩ := exists_assignment hi
  have hv (r) (hlt : r < runs) : ∃ x,
      (value? results reducer runs a r).bind (·.component? rest) = some x := by
    obtain ⟨v, x, hv, hx, -⟩ := h.exists_value ha hlt hr
    exact ⟨x, Option.bind_eq_some_iff.2 ⟨v, hv, hx⟩⟩
  obtain ⟨xs, hx, hl, hxs⟩ := Grid.exists_lane hv
  refine ⟨choice, rest, a, xs, rfl, hp, hl, ?_, hx ▸ hc choice a rest ha hr⟩
  intro r hlt
  obtain ⟨x, hb⟩ := hv r hlt
  obtain ⟨v, hv, hx⟩ := Option.bind_eq_some_iff.1 hb
  exact ⟨v, x, hv, hx, (hxs r hlt).trans hb⟩

theorem exists_candidate (h : Tabulates results reducer space runs length? m)
    {before after : List (String × Entry)} {name : String} {e : Entry}
    (hs : space.pairs = before ++ (name, e) :: after) {i j rest : List Nat} {k r : Nat}
    (hi : Within i (counts before)) (hj : Within j (counts after)) (hk : k < e.values.length)
    (hr : r < runs) (hrest : Within rest (knownLength space runs length?).toList) :
    ∃ a v x, pick space.pairs (i ++ k :: j) = some a.pairs ∧
      value? results reducer runs a r = some v ∧ v.component? rest = some x ∧
      m.get? (i ++ k :: (j ++ r :: rest)) = some x := by
  have hw : Within (i ++ k :: j) (counts space.pairs) := by
    rw [Space.counts_between hs]
    exact List.rel_append hi (.cons hk hj)
  obtain ⟨a, ha, hp⟩ := exists_assignment hw
  obtain ⟨v, x, hv, hx, hm⟩ := h.exists_value ha hr hrest
  rw [List.append_assoc, List.cons_append] at hm
  exact ⟨a, v, x, hp, hv, hx, hm⟩

theorem overCandidates (h : Tabulates results reducer space runs length? m)
    {before after : List (String × Entry)} {e : Entry}
    (hs : space.pairs = before ++ (runsDim, e) :: after) :
    ∃ g, Aggregate.ofArray m = .ok g ∧
      OverCandidates results reducer space runs length? before.length e.values.length g := by
  have hsd := Space.dims_between hs
  have hd := h.dims_eq
  -- The parameter stands before the repetitions.
  rw [hsd, List.append_assoc, List.cons_append] at hd
  obtain ⟨g, hg, hgd, hn, hfull, hc⟩ := Aggregate.exists_ofArray hd (Space.not_mem_map_name hs)
  refine ⟨g, hg, ?_, hn, hfull, ?_⟩
  · rw [hgd, hsd, ← List.length_map Space.dim, Grid.eraseIdx_length_append, List.append_assoc]
  intro index hw
  rw [Grid.shape, ← Aggregate.dims, hgd, List.map_append, Grid.within_append_iff] at hw
  obtain ⟨i, tail, rfl, hi, ht⟩ := hw
  obtain ⟨j, tail, rfl, hj, htail⟩ := Grid.within_append_iff.1 (List.map_append ▸ ht)
  cases htail with
  | @cons r _ rest _ hr hrest =>
    rw [Dim.length, List.length_map, List.length_range] at hr
    rw [h.map_length_labelDims] at hrest
    have hib : Within i (counts before) := Space.map_length_dim before ▸ hi
    have hja : Within j (counts after) := Space.map_length_dim after ▸ hj
    have hv (k) (hk : k < e.values.length) := h.exists_candidate hs hib hja hk hr hrest
    have hm (k) (hk : k < e.values.length) :
        ∃ x, m.get? (i ++ k :: (j ++ r :: rest)) = some x := by
      obtain ⟨_, _, x, -, -, -, hm⟩ := hv k hk
      exact ⟨x, hm⟩
    obtain ⟨xs, hx, hl, hxs⟩ := Grid.exists_lane hm
    refine ⟨i, j, r, rest, xs, by rw [List.append_assoc], ?_, hl, ?_, ?_⟩
    · exact Space.length_of_within_counts hib
    · intro k hk
      obtain ⟨a, v, x, hp, hv, hx, hm⟩ := hv k hk
      exact ⟨a, v, x, hp, hv, hx, (hxs k hk).trans hm⟩
    · exact hx ▸ hc i (j ++ r :: rest) hi ht

end Tabulates

/-- The array of an evaluation is reduced over the repetitions if no parameter has their name. If
one has, its candidates are reduced, and the repetitions stay. -/
theorem ofArray_of_evaluate (h : evaluate results reducer space runs = .ok m) :
    ∃ length? g, Uniform results reducer space runs length? ∧ Aggregate.ofArray m = .ok g ∧
      (runsDim ∉ space.names → OverRepetitions results reducer space runs length? g) ∧
      ∀ before e after, space.pairs = before ++ (runsDim, e) :: after →
        OverCandidates results reducer space runs length? before.length e.values.length g := by
  obtain ⟨length?, hu, -, ht⟩ := tabulates_of_evaluate h
  by_cases hf : runsDim ∈ space.names
  · obtain ⟨⟨_, e⟩, he, rfl⟩ := List.mem_map.1 hf
    obtain ⟨before, after, hs⟩ := List.append_of_mem he
    obtain ⟨g, hg, -⟩ := ht.overCandidates hs
    refine ⟨length?, g, hu, hg, fun hn => absurd hf hn, fun before e after hs => ?_⟩
    obtain ⟨_, hg', hc⟩ := ht.overCandidates hs
    cases hg.symm.trans hg'
    exact hc
  · obtain ⟨g, hg, hr⟩ := ht.overRepetitions hf
    exact ⟨length?, g, hu, hg, fun _ => hr, fun _ _ _ hs => absurd (Record.mem_names hs) hf⟩

theorem ofArray_of_evaluate_twoSpeeds :
    ∃ m g, evaluate tireless repetitionPair twoSpeeds 3 = .ok m ∧ Aggregate.ofArray m = .ok g ∧
      g.runs = 3 ∧ (g.dims.take 2).map Dim.name = ["speed", "height"] := by
  obtain ⟨m, he, -⟩ := (uniform_tireless twoSpeeds 3).exists_evaluate (by decide)
  obtain ⟨length?, g, -, hg, hr, -⟩ := ofArray_of_evaluate he
  have ho := hr (by decide)
  refine ⟨m, g, he, hg, ho.reduced, ?_⟩
  rw [ho.dims]
  rfl

/-- One parameter, with the name of the repetitions. -/
def reservedName : Space := ⟨[(runsDim, .list [.int 10, .int 20])], by simp⟩

theorem ofArray_reservedName :
    ∃ m g, evaluate tireless repetitionPair reservedName 1 = .ok m ∧ Aggregate.ofArray m = .ok g ∧
      g.runs = 2 ∧ g.grid.shape = [1, 2] := by
  have hu := uniform_tireless reservedName 1
  obtain ⟨m, he, ht⟩ := hu.exists_evaluate (by decide)
  have hs : reservedName.pairs = [] ++ (runsDim, .list [.int 10, .int 20]) :: [] := rfl
  obtain ⟨g, hg, hc⟩ := ht.overCandidates hs
  refine ⟨m, g, he, hg, hc.reduced, ?_⟩
  exact congrArg (List.map Dim.length) hc.dims

end SimCampaign.Campaign
