import SimCampaign.Proofs.Param.Building
import SimCampaign.Proofs.Param.Reading
import SimCampaign.Proofs.Param.Rereading

/-! Spaces that are written as JSON and read again. -/

namespace SimCampaign

def Json.double? : Json → Option Float
  | .integer n => some (Float.ofInt n)
  | .float x => some x
  | _ => none

/-- Whether the text of a double, read as a double, is equal to it. -/
def survivesJson (x : Float) : Bool :=
  ((Json.parse? (Json.float x).render).bind Json.double?).any (Binary64.same · x)

namespace Param
open Json (reread? rereadFields?)

def Value.survives : Value → Bool
  | .float x => survivesJson x
  | _ => true

/-- A value of the same kind that is equal. -/
def Value.Kept (v w : Value) : Prop := w.kind = v.kind ∧ w.same v = true

/-- Lists stay lists and single values stay single. -/
inductive Entry.Kept : Entry → Entry → Prop
  | list {vs ws : List Value} (h : List.Forall₂ Value.Kept vs ws) : Kept (.list vs) (.list ws)
  | single {v w : Value} (h : v.Kept w) : Kept (.single v) (.single w)

/-- Entries that are kept under the same names in the same order. -/
def Space.Kept (s t : Space) : Prop :=
  List.Forall₂ (fun p q => q.1 = p.1 ∧ p.2.Kept q.2) s.pairs t.pairs

namespace Value
variable {v : Value} {x : Float}

theorem exists_reread?_float (h : survivesJson x = true) :
    ∃ y, reread? (.float x) = some (.float y) ∧ Binary64.same y x = true := by
  have hd : Json.nesting (.float x) ≤ Json.maxDepth := Nat.zero_le _
  rw [survivesJson, Json.parse?_render hd, Option.any_eq_true] at h
  obtain ⟨y, hy, hs⟩ := h
  obtain ⟨j, hj, hy⟩ := Option.bind_eq_some_iff.1 hy
  rcases Json.eq_float_of_reread? hj with ⟨z, rfl⟩ | rfl
  · obtain rfl : z = y := Option.some.inj hy
    exact ⟨z, hj, hs⟩
  · cases hy

theorem exists_reread? (h : v.survives = true) :
    ∃ j w, reread? v.toJson = some j ∧ ofJson? j = some w ∧ v.Kept w := by
  by_cases hk : v.kind = .float
  · cases v with
    | float x =>
      obtain ⟨y, hy, hs⟩ := exists_reread?_float h
      exact ⟨_, .float y, hy, rfl, rfl, hs⟩
    | bool b => cases hk
    | int n => cases hk
    | text s => cases hk
  · exact ⟨_, v, reread?_toJson hk, ofJson?_toJson v, rfl, same_self v⟩

end Value

namespace Entry
variable {e : Entry}

theorem nesting_toJson_le (e : Entry) : Json.nesting e.toJson ≤ 1 := by
  cases e with
  | single v =>
    rw [toJson, Value.nesting_toJson]
    exact Nat.zero_le 1
  | list vs =>
    have hvs : ∀ j ∈ vs.map Value.toJson, Json.nesting j ≤ 0 := by
      intro j hj
      obtain ⟨v, -, rfl⟩ := List.mem_map.1 hj
      rw [Value.nesting_toJson]
    exact Nat.succ_le_succ (Json.nestingItems_le hvs)

theorem exists_reread? (h : ∀ v ∈ e.values, v.survives = true) :
    ∃ j e', reread? e.toJson = some j ∧ ofJson? j = some e' ∧ e.Kept e' := by
  cases e with
  | single v =>
    obtain ⟨j, w, hj, hw, hk⟩ := Value.exists_reread? (h v (List.mem_singleton_self v))
    exact ⟨j, .single w, hj, ofJson?_eq_single_iff.2 hw, .single hk⟩
  | list vs =>
    have hvs : ∀ v ∈ vs, ∃ p : Json × Value,
        reread? v.toJson = some p.1 ∧ Value.ofJson? p.1 = some p.2 ∧ v.Kept p.2 := by
      intro v hv
      obtain ⟨j, w, hw⟩ := Value.exists_reread? (h v hv)
      exact ⟨(j, w), hw⟩
    obtain ⟨ps, hps⟩ := exists_forall₂ hvs
    have hitems : Json.rereadItems? (vs.map Value.toJson) = some (ps.map Prod.fst) := by
      rw [Json.rereadItems?_eq_some_iff, List.forall₂_map_left_iff, List.forall₂_map_right_iff]
      exact hps.imp fun v p hp => hp.1
    have hvalues : (ps.map Prod.fst).mapM Value.ofJson? = some (ps.map Prod.snd) := by
      rw [mapM_eq_some_iff, List.forall₂_map_left_iff, List.forall₂_map_right_iff]
      refine List.forall₂_same.2 fun p hp => ?_
      obtain ⟨v, -, -, hw, -⟩ := exists_of_mem_forall₂ hps hp
      exact hw
    refine ⟨.array (ps.map Prod.fst), .list (ps.map Prod.snd), ?_, ?_, .list ?_⟩
    · rw [toJson, reread?, hitems]
      rfl
    · rw [ofJson?, hvalues]
      rfl
    · rw [List.forall₂_map_right_iff]
      exact hps.imp fun v p hp => hp.2.2

end Entry

namespace Space
variable {s : Space}

theorem nestingFields_toJson_le (s : Space) :
    Json.nestingFields (s.pairs.map fun (name, e) => (name, e.toJson)) ≤ 1 := by
  refine Json.nestingFields_le fun p hp => ?_
  obtain ⟨q, -, rfl⟩ := List.mem_map.1 hp
  exact q.2.nesting_toJson_le

/-- A space whose doubles survive is read as it was written. -/
theorem exists_kept_read_render
    (h : ∀ p ∈ s.pairs, ∀ v ∈ p.2.values, v.survives = true) :
    ∃ t, read s.toJson.render = .ok t ∧ s.Kept t := by
  have hpairs : ∀ p ∈ s.pairs, ∃ q : String × Json × Entry, q.1 = p.1 ∧
      reread? p.2.toJson = some q.2.1 ∧ Entry.ofJson? q.2.1 = some q.2.2 ∧ p.2.Kept q.2.2 := by
    intro p hp
    obtain ⟨j, e, he⟩ := Entry.exists_reread? (h p hp)
    exact ⟨(p.1, j, e), rfl, he⟩
  obtain ⟨qs, hqs⟩ := exists_forall₂ hpairs
  let fields := qs.map fun q => (q.1, q.2.1)
  let entries := qs.map fun q => (q.1, q.2.2)
  have hreread : rereadFields? (s.pairs.map fun (name, e) => (name, e.toJson)) = some fields := by
    rw [Json.rereadFields?_eq_some_iff, List.forall₂_map_left_iff, List.forall₂_map_right_iff]
    exact hqs.imp fun p q hq => ⟨hq.1.symm, hq.2.1⟩
  have hfields : FieldsAs Entry.ofJson? fields entries := by
    rw [FieldsAs, List.forall₂_map_left_iff, List.forall₂_map_right_iff]
    refine List.forall₂_same.2 fun q hq => ?_
    obtain ⟨p, -, -, -, he, -⟩ := exists_of_mem_forall₂ hqs hq
    exact ⟨rfl, he⟩
  have hkept : List.Forall₂ (fun p q => q.1 = p.1 ∧ p.2.Kept q.2) s.pairs entries := by
    rw [List.forall₂_map_right_iff]
    exact hqs.imp fun p q hq => ⟨hq.1, hq.2.2.2⟩
  have hnames : (entries.map Prod.fst).Nodup := by
    have hn : List.Forall₂ (fun p q => p = q) (s.pairs.map Prod.fst) (entries.map Prod.fst) := by
      rw [List.forall₂_map_left_iff, List.forall₂_map_right_iff]
      exact hkept.imp fun p q hq => hq.1.symm
    rw [List.forall₂_eq_eq_eq] at hn
    rw [← hn]
    exact s.nodup
  obtain ⟨t, ht, hp⟩ := exists_ofEntries hnames
  have hdepth : Json.nestingFields (s.pairs.map fun (name, e) => (name, e.toJson)) <
      Json.maxDepth :=
    Nat.lt_of_le_of_lt (nestingFields_toJson_le s) (by decide)
  refine ⟨t, ?_, ?_⟩
  · rw [toJson, read_eq (Json.outline_render hreread hdepth) hfields, ht]
    rfl
  · rw [Kept, hp]
    exact hkept

def mixed : Space where
  pairs :=
    [("α \"β\"\n", .single (.text "a\tb\\ü")), ("", .list []),
      ("n", .list [.int Int64.minValue, .int Int64.maxValue, .bool true, .text ""]),
      ("x", .list [.float 10.0, .float 0.1, .float (-0.0), .float 1e300, .float 5e-7]),
      ("y", .single (.float 4.0))]
  nodup := by decide

theorem exists_kept_mixed : ∃ t, read mixed.toJson.render = .ok t ∧ mixed.Kept t := by
  have hs : ∀ p ∈ mixed.pairs, ∀ v ∈ p.2.values, v.survives = true := by decide +kernel
  exact exists_kept_read_render hs

end Space

end Param
end SimCampaign
