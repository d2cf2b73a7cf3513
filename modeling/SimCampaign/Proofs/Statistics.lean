import SimCampaign.Proofs.Binary64.Arithmetic
import SimCampaign.Statistics

/-! Statistics of numbers some of which are undefined. -/

namespace SimCampaign.Statistics
open Binary64
variable {xs : List Float}

theorem isNaN_runningMean {count : ℕ} {m : Float}
    (h : m.isNaN = true ∨ ∃ x ∈ xs, x.isNaN = true) :
    (runningMean count m xs).isNaN = true := by
  induction xs generalizing count m with
  | nil =>
    rcases h with hm | ⟨x, hx, -⟩
    · exact hm
    · exact absurd hx List.not_mem_nil
  | cons x xs ih =>
    rw [runningMean]
    apply ih
    rcases h with hm | ⟨y, hy, hnan⟩
    · exact .inl (isNaN_add (.inl hm))
    · rcases List.mem_cons.1 hy with rfl | hy
      · have hstep : ((y - m) / Float.ofNat (count + 1)).isNaN = true :=
          isNaN_div (.inl (isNaN_sub (.inl hnan)))
        exact .inl (isNaN_add (.inr hstep))
      · exact .inr ⟨y, hy, hnan⟩

theorem isNaN_mean (h : ∃ x ∈ xs, x.isNaN = true) : (mean xs).isNaN = true := by
  have hne : ¬ xs.isEmpty = true := by
    obtain ⟨x, hx, -⟩ := h
    rw [List.isEmpty_iff]
    exact List.ne_nil_of_mem hx
  rw [mean, if_neg hne]
  exact isNaN_runningMean (.inr h)

/-- The sum of squared deviations is undefined as soon as a number is. An undefined sum of the
numbers so far shows at the next number, if there is one. -/
theorem isNaN_squaredDeviations {count : ℕ} {sum v : Float}
    (h : v.isNaN = true ∨ (sum.isNaN = true ∧ xs ≠ []) ∨ ∃ x ∈ xs, x.isNaN = true) :
    (squaredDeviations count sum v xs).isNaN = true := by
  induction xs generalizing count sum v with
  | nil =>
    rcases h with hv | ⟨-, hne⟩ | ⟨x, hx, -⟩
    · exact hv
    · exact absurd rfl hne
    · exact absurd hx List.not_mem_nil
  | cons x xs ih =>
    have hdeviation (hs : sum.isNaN = true ∨ x.isNaN = true) :
        (Float.ofNat (count + 1) * x - (sum + x)).isNaN = true :=
      isNaN_sub (.inr (isNaN_add hs))
    have hsquare (hs : sum.isNaN = true ∨ x.isNaN = true) :
        ((Float.ofNat (count + 1) * x - (sum + x)) * (Float.ofNat (count + 1) * x - (sum + x)) /
          (Float.ofNat (count + 1) * (Float.ofNat (count + 1) - 1.0))).isNaN = true :=
      isNaN_div (.inl (isNaN_mul (.inl (hdeviation hs))))
    rw [squaredDeviations]
    apply ih
    rcases h with hv | ⟨hs, -⟩ | ⟨y, hy, hnan⟩
    · exact .inl (isNaN_add (.inl hv))
    · exact .inl (isNaN_add (.inr (hsquare (.inl hs))))
    · rcases List.mem_cons.1 hy with rfl | hy
      · exact .inl (isNaN_add (.inr (hsquare (.inr hnan))))
      · exact .inr (.inr ⟨y, hy, hnan⟩)

theorem isNaN_populationDeviation (hlen : 2 ≤ xs.length) (h : ∃ x ∈ xs, x.isNaN = true) :
    (populationDeviation xs).isNaN = true := by
  obtain ⟨x, hx, hnan⟩ := h
  cases xs with
  | nil => cases hlen
  | cons y ys =>
    have hys : ys ≠ [] := by
      rintro rfl
      simp at hlen
    have hcases : y.isNaN = true ∨ ∃ z ∈ ys, z.isNaN = true := by
      rcases List.mem_cons.1 hx with rfl | hx
      · exact .inl hnan
      · exact .inr ⟨x, hx, hnan⟩
    have hsum : (squaredDeviations 1 y 0.0 ys).isNaN = true :=
      isNaN_squaredDeviations (.inr (hcases.imp_left fun hy => ⟨hy, hys⟩))
    rw [populationDeviation]
    exact isNaN_sqrt (isNaN_div (.inl hsum))

theorem populationDeviation_singleton (x : Float) : populationDeviation [x] = 0.0 := by
  have hzero : (0.0 / Float.ofNat 1).sqrt = 0.0 := by decide +kernel
  exact hzero

end SimCampaign.Statistics
