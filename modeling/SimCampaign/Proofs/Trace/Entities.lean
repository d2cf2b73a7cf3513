import SimCampaign.Proofs.Binary64.Arithmetic
import SimCampaign.Proofs.Table.Filtering
import SimCampaign.Trace.Packets

/-! Traces divided by sender. Traces hold the numbers of entities as doubles, which tell them apart
as long as they hold each of them exactly. -/

namespace SimCampaign
open Binary64 (ofFloat)

section Lists
variable {α : Type} {P : α → Prop} [DecidablePred P]

/-- Whether a list is what another one holds at the positions of a property, in their order. -/
def Selects (P : α → Prop) (xs ys : List α) : Prop :=
  ∃ is : List ℕ, is.Pairwise (· < ·) ∧ (∀ i, i ∈ is ↔ ∃ x, xs[i]? = some x ∧ P x) ∧
    ys = is.filterMap (xs[·]?)

theorem selects_filter (xs : List α) : Selects P xs (xs.filter fun x => decide (P x)) := by
  refine ⟨(List.range xs.length).filter fun i => (xs[i]?).any fun x => decide (P x), ?_, ?_, ?_⟩
  · exact List.Pairwise.filter _ List.pairwise_lt_range
  · intro i
    have hlt : ∀ x, xs[i]? = some x → i < xs.length := fun x hx =>
      (List.getElem?_eq_some_iff.1 hx).1
    simp only [List.mem_filter, List.mem_range, Option.any_eq_true, decide_eq_true_eq]
    exact ⟨And.right, fun h => ⟨hlt _ h.choose_spec.1, h⟩⟩
  · have hall := Column.filterMap_range_getElem? xs
    conv_lhs => rw [← hall, List.filter_filterMap]
    rw [List.filterMap_filter]
    refine List.filterMap_congr fun i _ => ?_
    cases xs[i]? <;> simp [Option.filter]

theorem perm_filter_or {p q : α → Bool} (h : ∀ x, p x = true → q x = false) (xs : List α) :
    (xs.filter p ++ xs.filter q).Perm (xs.filter fun x => p x || q x) := by
  have hsplit := List.filter_append_perm p (xs.filter fun x => p x || q x)
  rw [List.filter_filter, List.filter_filter] at hsplit
  have hp : (fun x => p x && (p x || q x)) = p := by
    funext x
    cases p x <;> rfl
  have hq : (fun x => !p x && (p x || q x)) = q := by
    funext x
    cases hx : p x with
    | false => rfl
    | true => exact (h x hx).symm
  rwa [hp, hq] at hsplit

/-- What lists of disjoint properties hold is, each once, what has one of the properties. -/
theorem perm_flatMap_filter {p : ℕ → α → Bool}
    (h : ∀ j k x, p j x = true → p k x = true → j = k) {ks : List ℕ} (hks : ks.Nodup)
    (xs : List α) :
    (ks.flatMap fun k => xs.filter (p k)).Perm (xs.filter fun x => ks.any fun k => p k x) := by
  induction ks with
  | nil => simp
  | cons k ks ih =>
    rw [List.nodup_cons] at hks
    have hdisjoint : ∀ x, p k x = true → (ks.any fun j => p j x) = false := by
      intro x hk
      rw [List.any_eq_false]
      intro j hj hpj
      exact hks.1 (h j k x hpj hk ▸ hj)
    rw [List.flatMap_cons]
    exact ((ih hks.2).append_left _).trans (perm_filter_or hdisjoint xs)

end Lists

namespace Entity
variable {k n : ℕ}

/-- Whether the numbers of the entities `0` to `n` differ as traces hold them. -/
def Apart (n : ℕ) : Prop := ∀ i ≤ n, ∀ j ≤ n, i ≠ j → (number ⟨i⟩ == number ⟨j⟩) = false

theorem value?_number (hk : k ≤ 2 ^ 53) : (ofFloat (number ⟨k⟩)).value? = some (k : ℚ) :=
  Binary64.value?_ofNat hk

theorem apart_iff : Apart n ↔ n ≤ 2 ^ 53 := by
  constructor
  · intro h
    by_contra hn
    have hclash : (number ⟨2 ^ 53⟩ == number ⟨2 ^ 53 + 1⟩) = true := by decide +kernel
    rw [h (2 ^ 53) (by omega) (2 ^ 53 + 1) (by omega) (by omega)] at hclash
    cases hclash
  · intro hn i hi j hj hne
    rw [Bool.eq_false_iff]
    intro heq
    have hj' := (Binary64.beq_iff_value? (value?_number (hi.trans hn))).1 heq
    rw [value?_number (hj.trans hn), Option.some_inj] at hj'
    exact hne (Nat.cast_injective hj').symm

end Entity

/-- Whether the sender of a packet is a number, whatever double holds it. -/
def Packet.SentBy (p : Packet) (k : ℕ) : Prop := (ofFloat p.source).value? = some (k : ℚ)

instance (p : Packet) (k : ℕ) : Decidable (p.SentBy k) :=
  inferInstanceAs (Decidable (_ = _))

theorem Packet.SentBy.unique {p : Packet} {j k : ℕ} (hj : p.SentBy j) (hk : p.SentBy k) :
    j = k := by
  have heq : (j : ℚ) = k := Option.some.inj (hj.symm.trans hk)
  exact Nat.cast_injective heq

namespace PacketTrace
variable {t : PacketTrace} {k n : ℕ}

theorem fromEntity_eq_filter (hk : k ≤ 2 ^ 53) (t : PacketTrace) :
    t.fromEntity ⟨k⟩ = t.filter fun p => decide (p.SentBy k) := by
  refine List.filter_congr fun p _ => ?_
  have hnumber := Binary64.beq_iff_value? (y := p.source) (Entity.value?_number hk)
  rw [Bool.eq_iff_iff, decide_eq_true_iff]
  exact ⟨fun h => hnumber.1 (Binary64.beq_symm h), fun h => Binary64.beq_symm (hnumber.2 h)⟩

theorem mem_fromEntity_iff (hk : k ≤ 2 ^ 53) {p : Packet} :
    p ∈ t.fromEntity ⟨k⟩ ↔ p ∈ t ∧ p.SentBy k := by
  rw [fromEntity_eq_filter hk, List.mem_filter, decide_eq_true_iff]

theorem sentAfter_fromEntity (t : PacketTrace) (e : Entity) (secs : Float) :
    (t.fromEntity e).sentAfter secs = (t.sentAfter secs).fromEntity e := by
  rw [sentAfter, fromEntity, sentAfter, fromEntity, List.filter_comm]

/-- A trace divided among the entities `0` to `n`, each of which gets the packets it sent in their
order. -/
structure Divided (t : PacketTrace) (n : ℕ) : Prop where
  ordered : ∀ k ≤ n, Selects (Packet.SentBy · k) t (t.fromEntity ⟨k⟩)
  atMostOne : ∀ p, ∀ j ≤ n, ∀ k ≤ n, p ∈ t.fromEntity ⟨j⟩ → p ∈ t.fromEntity ⟨k⟩ → j = k
  exactlyOne : ∀ p ∈ t, (∃! k, k ≤ n ∧ p ∈ t.fromEntity ⟨k⟩) ↔ ∃ k ≤ n, p.SentBy k

theorem divided (hn : n ≤ 2 ^ 53) (t : PacketTrace) : t.Divided n := by
  have hmem {p k} (hk : k ≤ n) : p ∈ t.fromEntity ⟨k⟩ ↔ p ∈ t ∧ p.SentBy k :=
    mem_fromEntity_iff (hk.trans hn)
  refine ⟨fun k hk => ?_, fun p j hj k hk hpj hpk => ?_, fun p hp => ⟨?_, ?_⟩⟩
  · rw [fromEntity_eq_filter (hk.trans hn)]
    exact selects_filter t
  · exact ((hmem hj).1 hpj).2.unique ((hmem hk).1 hpk).2
  · rintro ⟨k, ⟨hk, hpk⟩, -⟩
    exact ⟨k, hk, ((hmem hk).1 hpk).2⟩
  · rintro ⟨k, hk, hpk⟩
    refine ⟨k, ⟨hk, (hmem hk).2 ⟨hp, hpk⟩⟩, ?_⟩
    rintro j ⟨hj, hpj⟩
    exact ((hmem hj).1 hpj).2.unique hpk

theorem perm_fromEntity (hn : n ≤ 2 ^ 53) (t : PacketTrace) :
    ((List.range (n + 1)).flatMap fun k => t.fromEntity ⟨k⟩).Perm
      (t.filter fun p => decide (∃ k ≤ n, p.SentBy k)) := by
  have hparts : ((List.range (n + 1)).flatMap fun k => t.fromEntity ⟨k⟩) =
      (List.range (n + 1)).flatMap fun k => t.filter fun p => decide (p.SentBy k) := by
    refine List.flatMap_congr fun k hk => fromEntity_eq_filter ?_ t
    have := List.mem_range.1 hk
    omega
  have hunique : ∀ j k (p : Packet), decide (p.SentBy j) = true → decide (p.SentBy k) = true →
      j = k :=
    fun j k p hj hk => (of_decide_eq_true hj).unique (of_decide_eq_true hk)
  rw [hparts]
  refine (perm_flatMap_filter hunique List.nodup_range t).trans (List.Perm.of_eq ?_)
  refine List.filter_congr fun p _ => ?_
  rw [Bool.eq_iff_iff]
  simp only [List.any_eq_true, List.mem_range, Nat.lt_succ_iff, decide_eq_true_eq]

end PacketTrace
end SimCampaign
