import Mathlib.Data.Nat.Find
import SimCampaign.Proofs.Except

/-! The first element of a list that has a property, and traversals that stop there. -/

namespace SimCampaign
variable {ε α β : Type} {p q : α → Prop} {xs : List α} {x y : α} {i : Nat}

/-- Whether the element at a position is the first one with the property. -/
structure First (p : α → Prop) (xs : List α) (i : Nat) (x : α) : Prop where
  getElem? : xs[i]? = some x
  holds : p x
  before : ∀ j < i, ∀ y, xs[j]? = some y → ¬ p y

namespace First

theorem zero (h : p x) : First p (x :: xs) 0 x :=
  ⟨rfl, h, fun _ hj => absurd hj (Nat.not_lt_zero _)⟩

theorem succ (hy : ¬ p y) (h : First p xs i x) : First p (y :: xs) (i + 1) x where
  getElem? := h.getElem?
  holds := h.holds
  before j hj z hz := by
    cases j with
    | zero =>
      obtain rfl := Option.some.inj hz
      exact hy
    | succ j => exact h.before j (Nat.lt_of_succ_lt_succ hj) z hz

theorem of_succ (h : First p (y :: xs) (i + 1) x) : ¬ p y ∧ First p xs i x :=
  ⟨h.before 0 (Nat.succ_pos i) y rfl,
    h.getElem?, h.holds, fun j hj => h.before (j + 1) (Nat.succ_lt_succ hj)⟩

theorem mem (h : First p xs i x) : x ∈ xs := List.mem_of_getElem? h.getElem?

theorem exists_of_mem (hx : x ∈ xs) (h : p x) : ∃ i y, First p xs i y := by
  induction xs with
  | nil => cases hx
  | cons z xs ih =>
    by_cases hz : p z
    · exact ⟨0, z, .zero hz⟩
    · have hx : x ∈ xs := (List.mem_cons.1 hx).resolve_left fun he => hz (he ▸ h)
      obtain ⟨i, y, hy⟩ := ih hx
      exact ⟨i + 1, y, hy.succ hz⟩

theorem congr (h : First p xs i x) (hpq : ∀ y ∈ xs, p y ↔ q y) : First q xs i x where
  getElem? := h.getElem?
  holds := (hpq x h.mem).1 h.holds
  before j hj y hy hq := h.before j hj y hy ((hpq y (List.mem_of_getElem? hy)).2 hq)

theorem zipIdx (h : First p xs i x) : First (fun y => p y.1) xs.zipIdx i (x, i) where
  getElem? := by
    rw [List.getElem?_zipIdx, h.getElem?]
    simp
  holds := h.holds
  before j hj y hy := by
    rw [List.getElem?_zipIdx, Option.map_eq_some_iff] at hy
    obtain ⟨z, hz, rfl⟩ := hy
    exact h.before j hj z hz

theorem find?_eq_some {f : α → Bool} (h : First (fun x => f x = true) xs i x) :
    xs.find? f = some x := by
  induction xs generalizing i with
  | nil => cases h.getElem?
  | cons y xs ih =>
    cases i with
    | zero =>
      obtain rfl := Option.some.inj h.getElem?
      exact List.find?_cons_of_pos h.holds
    | succ i =>
      obtain ⟨hy, h⟩ := h.of_succ
      rw [List.find?_cons_of_neg hy, ih h]

theorem mapM_eq_error {f : α → Except ε β} {e : ε}
    (h : First (fun x => ∃ e, f x = .error e) xs i x) (hx : f x = .error e) :
    xs.mapM f = .error e := by
  induction xs generalizing i with
  | nil => cases h.getElem?
  | cons y xs ih =>
    rw [List.mapM_cons]
    cases i with
    | zero =>
      obtain rfl := Option.some.inj h.getElem?
      rw [hx]
      rfl
    | succ i =>
      obtain ⟨hy, h⟩ := h.of_succ
      cases hf : f y with
      | error e' => exact absurd ⟨e', hf⟩ hy
      | ok z =>
        rw [ih h]
        rfl

theorem append (h : First p xs i x) (ys : List α) : First p (xs ++ ys) i x := by
  have hi : i < xs.length := (List.getElem?_eq_some_iff.1 h.getElem?).1
  refine ⟨?_, h.holds, fun j hj y hy => h.before j hj y ?_⟩
  · rw [List.getElem?_append_left hi, h.getElem?]
  · rwa [List.getElem?_append_left (Nat.lt_trans hj hi)] at hy

theorem append_left {ys : List α} (hxs : ∀ y ∈ xs, ¬ p y) (h : First p ys i x) :
    First p (xs ++ ys) (xs.length + i) x := by
  induction xs with
  | nil => simpa using h
  | cons y xs ih =>
    obtain ⟨hy, hxs⟩ := List.forall_mem_cons.1 hxs
    rw [List.cons_append, List.length_cons, Nat.add_right_comm]
    exact (ih hxs).succ hy

/-- In lists one after another, the first one is the first in the first list that has any. -/
theorem exists_flatten {xss : List (List α)} {r : Nat}
    (h : First (fun xs => ∃ x ∈ xs, p x) xss i xs) (hr : First p xs r x) :
    ∃ k, First p xss.flatten k x := by
  induction xss generalizing i with
  | nil => cases h.getElem?
  | cons ys xss ih =>
    rw [List.flatten_cons]
    cases i with
    | zero =>
      obtain rfl := Option.some.inj h.getElem?
      exact ⟨r, hr.append _⟩
    | succ i =>
      obtain ⟨hys, h⟩ := h.of_succ
      obtain ⟨k, hk⟩ := ih h
      exact ⟨ys.length + k, hk.append_left fun y hy hp => hys ⟨y, hy, hp⟩⟩

end First

theorem mapM_eq_error_iff {f : α → Except ε β} {e : ε} :
    xs.mapM f = .error e ↔
      ∃ i x, First (fun x => ∃ e, f x = .error e) xs i x ∧ f x = .error e := by
  constructor
  · intro h
    obtain ⟨y, hy, he⟩ := exists_of_mapM_eq_error h
    obtain ⟨i, x, hx⟩ := First.exists_of_mem (p := fun x => ∃ e, f x = .error e) hy ⟨e, he⟩
    obtain ⟨e', he'⟩ := hx.holds
    obtain rfl : e' = e := Except.error.inj ((hx.mapM_eq_error he').symm.trans h)
    exact ⟨i, x, hx, he'⟩
  · rintro ⟨i, x, hx, he⟩
    exact hx.mapM_eq_error he

/-- Of pairs of numbers with a property there is a least one, the left number deciding first. -/
theorem exists_first_pair {P : Nat → Nat → Prop} (h : ∃ i j, P i j) :
    ∃ i j, P i j ∧ ∀ i' j', i' < i ∨ i' = i ∧ j' < j → ¬ P i' j' := by
  classical
  have hi := Nat.find_spec h
  refine ⟨_, _, Nat.find_spec hi, fun i' j' hlt hp => ?_⟩
  rcases hlt with hlt | ⟨rfl, hlt⟩
  · exact Nat.find_min h hlt ⟨j', hp⟩
  · exact Nat.find_min hi hlt hp

end SimCampaign
