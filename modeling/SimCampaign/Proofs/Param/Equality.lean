import SimCampaign.Param.Assignment
import SimCampaign.Proofs.Param.Value

/-! What equal assignments are read as. -/

namespace SimCampaign.Param

theorem Value.eq_or_float_of_same {v w : Value} (h : v.same w = true) :
    v = w ∨ ∃ x y, v = .float x ∧ w = .float y ∧ Binary64.same x y = true := by
  cases v with
  | bool b =>
    cases w with
    | bool c => exact .inl (congrArg _ (eq_of_beq h))
    | _ => cases h
  | int n =>
    cases w with
    | int m => exact .inl (congrArg _ (eq_of_beq h))
    | _ => cases h
  | float x =>
    cases w with
    | float y => exact .inr ⟨x, y, rfl, rfl, h⟩
    | _ => cases h
  | text s =>
    cases w with
    | text t => exact .inl (congrArg _ (eq_of_beq h))
    | _ => cases h

namespace Assignment
variable {a b : Assignment}

theorem get?_of_same (h : a.same b = true) (name : String) :
    a.get? name = b.get? name ∨ ∃ x y, a.get? name = some (.float x) ∧
      b.get? name = some (.float y) ∧ Binary64.same x y = true := by
  rw [same] at h
  rw [Record.get?, Record.get?]
  generalize a.pairs = ps, b.pairs = qs at h ⊢
  induction ps generalizing qs with
  | nil =>
    cases qs with
    | nil => exact .inl rfl
    | cons q qs => cases h
  | cons p ps ih =>
    cases qs with
    | nil => cases h
    | cons q qs =>
      obtain ⟨n, v⟩ := p
      obtain ⟨m, w⟩ := q
      rw [samePairs, Bool.and_eq_true, Bool.and_eq_true, beq_iff_eq] at h
      obtain ⟨⟨rfl, hvw⟩, hrest⟩ := h
      rw [List.lookup_cons, List.lookup_cons]
      cases name == n with
      | false => exact ih qs hrest
      | true =>
        rcases Value.eq_or_float_of_same hvw with rfl | ⟨x, y, rfl, rfl, hxy⟩
        · exact .inl rfl
        · exact .inr ⟨x, y, rfl, rfl, hxy⟩

theorem int_of_same (h : a.same b = true) (name : String) : a.int name = b.int name := by
  rcases get?_of_same h name with heq | ⟨x, y, hx, hy, -⟩
  · simp only [int, require, heq]
  · simp only [int, require, hx, hy]
    rfl

theorem count_of_same (h : a.same b = true) (name : String) : a.count name = b.count name := by
  rw [count, count, int_of_same h]

theorem text_of_same (h : a.same b = true) (name : String) : a.text name = b.text name := by
  rcases get?_of_same h name with heq | ⟨x, y, hx, hy, -⟩
  · simp only [text, require, heq]
  · simp only [text, require, hx, hy]
    rfl

theorem float_of_same (h : a.same b = true) (name : String) :
    a.float name = b.float name ∨ ∃ x y, a.float name = .ok x ∧ b.float name = .ok y ∧
      Binary64.same x y = true := by
  rcases get?_of_same h name with heq | ⟨x, y, hx, hy, hxy⟩
  · left
    simp only [float, require, heq]
  · refine .inr ⟨x, y, ?_, ?_, hxy⟩
    · simp only [float, require, hx]
      rfl
    · simp only [float, require, hy]
      rfl

end Assignment
end SimCampaign.Param
