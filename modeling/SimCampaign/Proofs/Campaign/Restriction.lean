import SimCampaign.Proofs.Campaign.Repetition
import SimCampaign.Proofs.Param.Restriction

/-! Fixing a parameter and evaluating is evaluating everything and selecting. -/

namespace SimCampaign.Campaign
open Param (Entry Space Value)
open Param.Space (counts)
open Grid (Addressable Within)

section Fixed
variable {results : Results} {reducer : Metric.Reducer} {space part : Space} {runs i : Nat}
  {length? : Option Nat} {before after : List (String × Entry)} {name : String} {e : Entry}
  {v w : Value}

theorem knownLength_fixed (hs : space.pairs = before ++ (name, e) :: after)
    (hp : part.pairs = before ++ (name, .single w) :: after) (hw : e.values[i]? = some w) :
    knownLength part runs length? = knownLength space runs length? := by
  simp only [knownLength, Space.cells_pos_iff_of_fixed hs hp hw]

theorem Uniform.exists_evaluate_fixed (h : Uniform results reducer space runs length?)
    (ha : Addressable (counts space.pairs ++ runs :: (knownLength space runs length?).toList))
    (hs : space.pairs = before ++ (name, e) :: after)
    (hp : part.pairs = before ++ (name, .single w) :: after) (hw : e.values[i]? = some w) :
    ∃ m, evaluate results reducer part runs = .ok m ∧
      Tabulates results reducer part runs length? m := by
  have hu : Uniform results reducer part runs length? :=
    h.mono fun a ha => Space.mem_assignments_of_fixed hs hp hw ha
  refine hu.exists_evaluate ?_
  have hn : e.values.length ≠ 0 :=
    Nat.ne_of_gt (Nat.zero_lt_of_lt (List.getElem?_eq_some_iff.1 hw).1)
  rw [knownLength_fixed hs hp hw, Space.counts_between hp, List.append_assoc, List.cons_append]
  rw [Space.counts_between hs, List.append_assoc, List.cons_append] at ha
  exact ha.one hn

theorem Tabulates.exists_select {m : MetricArray}
    (h : Tabulates results reducer space runs length? m) (hf : runsDim ∉ space.names)
    (hs : space.pairs = before ++ (name, e) :: after)
    (hi : e.values.findIdx? (· == v) = some i) :
    ∃ g, (Aggregate.ofArray m >>= fun a => a.select name v) = .ok g ∧
      g.dims = before.map Space.dim ++
        (after.map Space.dim ++ labelDims reducer (knownLength space runs length?)) ∧
      g.runs = runs ∧ g.grid.Full ∧
      ∀ left right rest, Within left (counts before) → Within right (counts after) →
        Within rest (knownLength space runs length?).toList →
        ∃ a, Grid.at? (counts space.pairs) (left ++ i :: right) space.assignments = some a ∧
          g.grid.get? (left ++ (right ++ rest)) =
            some (Estimate.ofLane runs (lane results reducer runs a rest)) := by
  obtain ⟨whole, hw, hd, hn, hfull, hc⟩ := h.exists_ofArray hf
  rw [Space.dims_between hs, List.append_assoc, List.cons_append] at hd
  obtain ⟨g, hg, hgd, hgn, hgf, hgc⟩ :=
    Aggregate.exists_select hfull hd (Space.not_mem_map_name hs) hi
  refine ⟨g, bind_eq_ok_iff.2 ⟨whole, hw, hg⟩, hgd, hgn.trans hn, hgf, ?_⟩
  intro left right rest hl hr hrest
  have hlt : i < e.values.length := (List.findIdx?_eq_some_iff_getElem.1 hi).1
  have hch : Within (left ++ i :: right) (counts space.pairs) := by
    rw [Space.counts_between hs]
    exact List.rel_append hl (.cons hlt hr)
  obtain ⟨a, ha, -⟩ := Tabulates.exists_assignment hch
  refine ⟨a, ha, ?_⟩
  have hlen : left.length = (before.map Space.dim).length := by
    rw [List.length_map, Space.length_of_within_counts hl]
  rw [hgc left _ hlen, ← List.cons_append, ← List.append_assoc]
  exact hc _ a rest ha hrest

/-- The selection of the fixed candidate is that of the candidate in the whole space. -/
theorem Tabulates.exists_select_fixed {m m' : MetricArray}
    (h : Tabulates results reducer space runs length? m)
    (h' : Tabulates results reducer part runs length? m') (hf : runsDim ∉ space.names)
    (hs : space.pairs = before ++ (name, e) :: after)
    (hp : part.pairs = before ++ (name, .single w) :: after) (hw : e.values[i]? = some w)
    (hv : (w == v) = true) (hi : e.values.findIdx? (· == v) = some i) :
    ∃ g, (Aggregate.ofArray m >>= fun a => a.select name v) = .ok g ∧
      (Aggregate.ofArray m' >>= fun a => a.select name v) = .ok g := by
  have hf' : runsDim ∉ part.names := by
    rw [Record.names, hs, List.map_append, List.map_cons] at hf
    rw [Record.names, hp, List.map_append, List.map_cons]
    exact hf
  have hi' : (Entry.single w).values.findIdx? (· == v) = some 0 := by
    rw [Entry.values, List.findIdx?_cons, hv, if_pos rfl]
  obtain ⟨g, hg, hd, hn, hfull, hc⟩ := h.exists_select hf hs hi
  obtain ⟨g', hg', hd', hn', hfull', hc'⟩ := h'.exists_select hf' hp hi'
  rw [knownLength_fixed hs hp hw] at hd' hc'
  have hgrid : g'.grid = g.grid := by
    apply Grid.eq_of_get?_eq (hd'.trans hd.symm) hfull' hfull
    intro index hin
    rw [Grid.shape, ← Aggregate.dims, hd', List.map_append, List.map_append, Space.map_length_dim,
      Space.map_length_dim, h.map_length_labelDims, Grid.within_append_iff] at hin
    obtain ⟨left, tail, rfl, hl, ht⟩ := hin
    obtain ⟨right, rest, rfl, hr, hrest⟩ := Grid.within_append_iff.1 ht
    obtain ⟨a, ha, hx⟩ := hc left right rest hl hr hrest
    obtain ⟨b, hb, hx'⟩ := hc' left right rest hl hr hrest
    rw [Space.at?_fixed hs hp hw (Space.length_of_within_counts hl), ha] at hb
    obtain rfl := Option.some.inj hb
    -- Both cells are the estimate over the repetitions of the same assignment.
    rw [hx, hx']
  have heq : g' = g := congrArg₂ Aggregate.mk hgrid (hn'.trans hn.symm)
  exact ⟨g, hg, heq ▸ hg'⟩

end Fixed

/-- Fixing a parameter to its first candidate equal to a value, then evaluating, reducing and
selecting the value, is evaluating the whole space, then reducing and selecting. -/
theorem select_evaluate_set {results : Results} {reducer : Metric.Reducer} {space : Space}
    {runs : Nat} {name : String} {e : Entry} {v w : Value} {m : MetricArray}
    (hf : runsDim ∉ space.names) (he : space.get? name = some e)
    (hw : e.values.find? (· == v) = some w) (h : evaluate results reducer space runs = .ok m) :
    ∃ part m' g, space.set name (.single w) = .ok part ∧
      evaluate results reducer part runs = .ok m' ∧
      (Aggregate.ofArray m >>= fun a => a.select name v) = .ok g ∧
      (Aggregate.ofArray m' >>= fun a => a.select name v) = .ok g := by
  obtain ⟨before, after, hs⟩ := Record.exists_pairs_eq he
  have hp : (space.replace name (.single w)).pairs = before ++ (name, .single w) :: after :=
    Record.pairs_replace hs _
  have hset : space.set name (.single w) = .ok (space.replace name (.single w)) :=
    if_pos (Record.mem_names hs)
  obtain ⟨hv, i, hlt, hiw, hi⟩ := List.find?_eq_some_iff_getElem.1 hw
  have hget : e.values[i]? = some w := List.getElem?_eq_some_iff.2 ⟨hlt, hiw⟩
  have hidx : e.values.findIdx? (· == v) = some i :=
    List.findIdx?_eq_some_iff_getElem.2 ⟨hlt, by rwa [hiw], fun j hj => by simpa using hi j hj⟩
  obtain ⟨length?, hu, ha, ht⟩ := tabulates_of_evaluate h
  obtain ⟨m', he', ht'⟩ := hu.exists_evaluate_fixed (ht.shape ▸ ha) hs hp hget
  obtain ⟨g, hg, hg'⟩ := ht.exists_select_fixed ht' hf hs hp hget hv hidx
  exact ⟨_, m', g, hset, he', hg, hg'⟩

theorem select_evaluate_set_twoSpeeds :
    ∃ m part m' g, evaluate tireless repetitionPair twoSpeeds 3 = .ok m ∧
      twoSpeeds.set "speed" (.single (.int 2)) = .ok part ∧
      evaluate tireless repetitionPair part 3 = .ok m' ∧
      (Aggregate.ofArray m >>= fun a => a.select "speed" (.int 2)) = .ok g ∧
      (Aggregate.ofArray m' >>= fun a => a.select "speed" (.int 2)) = .ok g := by
  obtain ⟨m, he, -⟩ := (uniform_tireless twoSpeeds 3).exists_evaluate (by decide)
  obtain ⟨part, m', g, h⟩ :=
    select_evaluate_set (v := .int 2) (by decide) (rfl : twoSpeeds.get? "speed" = _) rfl he
  exact ⟨m, part, m', g, he, h⟩

end SimCampaign.Campaign
