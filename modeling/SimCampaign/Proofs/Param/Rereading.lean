import SimCampaign.Param.Json
import SimCampaign.Proofs.Except
import SimCampaign.Proofs.Json.Rereading
import SimCampaign.Proofs.Param.Value
import SimCampaign.Proofs.Record

/-! Parameter values that are written as JSON and read again: only doubles may change. -/

namespace SimCampaign.Param
open Json (reread? rereadFields?)

namespace Value
variable {v w : Value}

theorem nesting_toJson (v : Value) : Json.nesting v.toJson = 0 := by
  cases v <;> simp [toJson, Json.nesting]

/-- A value is read from its own text as it is read in the middle of a longer one. -/
theorem read_render_eq_ok_iff :
    read v.toJson.render = .ok w ↔ (reread? v.toJson).bind ofJson? = some w := by
  have hd : Json.nesting v.toJson ≤ Json.maxDepth := by simp [nesting_toJson]
  have hv := Json.prefixValue?_chars Json.compact hd
  rw [Json.chars_compact] at hv
  rw [read, Json.render, String.toList_ofList, hv]
  cases reread? v.toJson with
  | none => simp
  | some j => cases hj : ofJson? j <;> simp [hj, Json.skipSpace]

theorem reread?_toJson (h : v.kind ≠ .float) : reread? v.toJson = some v.toJson := by
  cases v with
  | bool b => rw [toJson, reread?]
  | text s => rw [toJson, reread?]
  | float x => exact absurd rfl h
  | int n => rw [toJson, Json.reread?_integer, Json.value?_integerLiteral_of_int64]

theorem ofJson?_toJson (v : Value) : ofJson? v.toJson = some v := by
  cases v with
  | int n =>
    have hn : Int64.minValue.toInt ≤ n.toInt ∧ n.toInt ≤ Int64.maxValue.toInt :=
      ⟨n.minValue_le_toInt, n.toInt_le⟩
    rw [toJson, ofJson?, if_pos hn, Int64.ofInt_toInt]
  | bool b => rfl
  | float x => rfl
  | text s => rfl

theorem read_render (h : v.kind ≠ .float) : read v.toJson.render = .ok v := by
  rw [read_render_eq_ok_iff, reread?_toJson h, Option.bind_some, ofJson?_toJson]

/-- Whether a value, if it is a double, is read as the same one. -/
def KeepsDouble (v : Value) : Prop :=
  v.kind = .float → ∃ w, read v.toJson.render = .ok w ∧ w.same v = true

theorem same_iff_keepsDouble (h : read v.toJson.render = .ok w) :
    w.same v = true ↔ KeepsDouble v := by
  constructor
  · exact fun hs _ => ⟨w, h, hs⟩
  · intro hk
    by_cases hv : v.kind = .float
    · obtain ⟨w', hw, hs⟩ := hk hv
      rw [h] at hw
      cases hw
      exact hs
    · rw [read_render hv] at h
      cases h
      exact same_self v

end Value

namespace Assignment
variable {a b : Assignment}

def PairReread (p q : String × Value) : Prop :=
  p.1 = q.1 ∧ Value.read p.2.toJson.render = .ok q.2

/-- Whether the values of an assignment, when they are written, are read as those of another. -/
def RereadAs (a b : Assignment) : Prop := List.Forall₂ PairReread a.pairs b.pairs

theorem nestingFields_toJson (ps : List (String × Value)) :
    Json.nestingFields (ps.map fun (name, v) => (name, v.toJson)) = 0 := by
  induction ps with
  | nil => rfl
  | cons p ps ih =>
    rw [List.map_cons, Json.nestingFields, ih, Value.nesting_toJson]
    rfl

theorem nesting_toJson (a : Assignment) : Json.nesting a.toJson = 1 := by
  rw [toJson, Json.nesting, nestingFields_toJson]

theorem map_fst_of_pairReread {ps qs : List (String × Value)} (h : List.Forall₂ PairReread ps qs) :
    qs.map Prod.fst = ps.map Prod.fst := by
  induction h with
  | nil => rfl
  | cons hp _ ih => rw [List.map_cons, List.map_cons, hp.1, ih]

theorem pairReread_of_fields {ps qs : List (String × Value)} {fields : List (String × Json)}
    (hf : List.Forall₂ (fun p f => p.1 = f.1 ∧ reread? p.2.toJson = some f.2) ps fields)
    (hq : List.Forall₂ (fun f q => (Value.ofJson? f.2).map (f.1, ·) = some q) fields qs) :
    List.Forall₂ PairReread ps qs := by
  induction hf generalizing qs with
  | nil =>
    cases hq
    exact .nil
  | @cons p f ps fields hp _ ih =>
    cases hq with
    | cons hf hq =>
      obtain ⟨v, hv, rfl⟩ := Option.map_eq_some_iff.1 hf
      have hr : (reread? p.2.toJson).bind Value.ofJson? = some v :=
        Option.bind_eq_some_iff.2 ⟨f.2, hp.2, hv⟩
      exact .cons ⟨hp.1, Value.read_render_eq_ok_iff.2 hr⟩ (ih hq)

theorem rereadAs_of_reread? (h : (reread? a.toJson).bind ofJson? = some b) : RereadAs a b := by
  obtain ⟨j, hj, hb⟩ := Option.bind_eq_some_iff.1 h
  rw [toJson, reread?] at hj
  obtain ⟨fields, hf, rfl⟩ := Option.map_eq_some_iff.1 hj
  obtain ⟨pairs, hp, hb⟩ := Option.bind_eq_some_iff.1 hb
  have hfields := Json.rereadFields?_eq_some_iff.1 hf
  rw [List.forall₂_map_left_iff] at hfields
  have hr := pairReread_of_fields hfields (mapM_eq_some_iff.1 hp)
  have hn : (pairs.map Prod.fst).Nodup := by
    rw [map_fst_of_pairReread hr]
    exact a.nodup
  obtain rfl := Option.some.inj hb
  rw [RereadAs, Record.pairs_ofPairs hn]
  exact hr

theorem RereadAs.same_iff (h : RereadAs a b) :
    b.same a = true ↔ ∀ p ∈ a.pairs, p.2.KeepsDouble := by
  rw [same]
  rw [RereadAs] at h
  generalize a.pairs = ps at h
  generalize b.pairs = qs at h
  induction h with
  | nil => simp [samePairs]
  | @cons p q ps qs hp _ ih =>
    obtain ⟨name, v⟩ := p
    obtain ⟨_, w⟩ := q
    obtain ⟨rfl, hw⟩ := hp
    have hvw : (w == v) = true ↔ v.KeepsDouble := Value.same_iff_keepsDouble hw
    rw [samePairs, Bool.and_eq_true, Bool.and_eq_true, ih, hvw, List.forall_mem_cons]
    simp

end Assignment

end SimCampaign.Param
