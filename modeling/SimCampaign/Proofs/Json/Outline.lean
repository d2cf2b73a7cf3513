import SimCampaign.Proofs.Json.Rereading

/-! An object text that is read field by field without a flaw is read as that object. -/

namespace SimCampaign.Json
variable {fuel fuel' depth depth' : Nat} {cs rest : List Char}

section Steps

/-- What is read in some steps is read in one step more. -/
structure MoreSteps (fuel : Nat) : Prop where
  value : ∀ {depth cs r}, value? fuel depth cs = some r → value? (fuel + 1) depth cs = some r
  items : ∀ {depth cs r}, items? fuel depth cs = some r → items? (fuel + 1) depth cs = some r
  fields : ∀ {depth cs r}, fields? fuel depth cs = some r → fields? (fuel + 1) depth cs = some r
  field1 : ∀ {depth cs r}, field1? fuel depth cs = some r → field1? (fuel + 1) depth cs = some r

theorem moreSteps_zero : MoreSteps 0 where
  value h := by rw [value?] at h; cases h
  items h := by rw [items?] at h; cases h
  fields h := by rw [fields?] at h; cases h
  field1 h := by rw [field1?] at h; cases h

namespace MoreSteps
variable (h : MoreSteps fuel)
include h

theorem value_succ {r : Json × List Char} (hr : value? (fuel + 1) depth cs = some r) :
    value? (fuel + 2) depth cs = some r := by
  rw [value?] at hr ⊢
  split at hr
  next => exact hr
  next => exact hr
  next => exact hr
  next => exact hr
  next =>
    cases depth with
    | zero => exact hr
    | succ depth =>
      simp only at hr ⊢
      split at hr
      next => exact hr
      next =>
        obtain ⟨p, hp, rfl⟩ := Option.map_eq_some_iff.1 hr
        rw [h.items hp]
        rfl
  next =>
    cases depth with
    | zero => exact hr
    | succ depth =>
      simp only at hr ⊢
      split at hr
      next => exact hr
      next =>
        obtain ⟨p, hp, rfl⟩ := Option.map_eq_some_iff.1 hr
        rw [h.fields hp]
        rfl
  next => exact hr

theorem items_succ {r : List Json × List Char} (hr : items? (fuel + 1) depth cs = some r) :
    items? (fuel + 2) depth cs = some r := by
  rw [items?] at hr ⊢
  cases hv : value? fuel depth cs with
  | none =>
    rw [hv] at hr
    cases hr
  | some p =>
    obtain ⟨item, rest⟩ := p
    rw [hv] at hr
    simp only [h.value hv] at hr ⊢
    split at hr
    next =>
      obtain ⟨p, hp, rfl⟩ := Option.map_eq_some_iff.1 hr
      rw [h.items hp]
      rfl
    next => exact hr
    next => cases hr

theorem fields_succ {r : List (String × Json) × List Char}
    (hr : fields? (fuel + 1) depth cs = some r) : fields? (fuel + 2) depth cs = some r := by
  rw [fields?] at hr ⊢
  cases hf : field1? fuel depth cs with
  | none =>
    rw [hf] at hr
    cases hr
  | some p =>
    obtain ⟨field, rest⟩ := p
    rw [hf] at hr
    simp only [h.field1 hf] at hr ⊢
    split at hr
    next =>
      obtain ⟨p, hp, rfl⟩ := Option.map_eq_some_iff.1 hr
      rw [h.fields hp]
      rfl
    next => exact hr
    next => cases hr

theorem field1_succ {r : (String × Json) × List Char}
    (hr : field1? (fuel + 1) depth cs = some r) : field1? (fuel + 2) depth cs = some r := by
  rw [field1?] at hr ⊢
  split at hr
  next =>
    split at hr
    next => cases hr
    next =>
      split at hr
      next =>
        obtain ⟨p, hp, rfl⟩ := Option.map_eq_some_iff.1 hr
        rw [h.value hp]
        rfl
      next => cases hr
  next => cases hr

end MoreSteps

theorem moreSteps (fuel : Nat) : MoreSteps fuel := by
  induction fuel with
  | zero => exact moreSteps_zero
  | succ fuel ih => exact ⟨ih.value_succ, ih.items_succ, ih.fields_succ, ih.field1_succ⟩

theorem fields?_mono {r : List (String × Json) × List Char} (hf : fuel ≤ fuel')
    (hr : fields? fuel depth cs = some r) : fields? fuel' depth cs = some r := by
  induction hf with
  | refl => exact hr
  | step _ ih => exact (moreSteps _).fields ih

end Steps

section Scan
variable {fields fields' : List (String × Json)}

/-- Fields are met without a flaw if and only if they are read with nothing after them. -/
theorem scanFields_eq_iff :
    scanFields fuel depth cs = ⟨fields, true⟩ ↔
      ∃ rest, fields? fuel depth cs = some (fields, rest) ∧ skipSpace rest = [] := by
  induction fuel generalizing cs fields with
  | zero => simp [scanFields, fields?]
  | succ fuel ih =>
    rw [scanFields, fields?]
    cases hf : field1? fuel depth cs with
    | none => simp
    | some p =>
      obtain ⟨field, rest⟩ := p
      simp only
      split
      next tail _ =>
        constructor
        · intro h
          cases hscan : scanFields fuel depth tail with
          | mk more complete =>
            rw [hscan] at h
            obtain ⟨rfl, rfl⟩ := Fields.mk.inj h
            obtain ⟨r, hm, hr⟩ := ih.1 hscan
            exact ⟨r, by rw [hm]; rfl, hr⟩
        · rintro ⟨r, h, hr⟩
          obtain ⟨⟨more, r'⟩, hm, he⟩ := Option.map_eq_some_iff.1 h
          obtain ⟨rfl, rfl⟩ := Prod.mk.inj he
          rw [ih.2 ⟨r', hm, hr⟩]
          rfl
      next => simp
      next => simp

theorem outline_chars (l : Layout) (hr : rereadFields? fields = some fields')
    (hd : nestingFields fields < maxDepth) :
    outline (String.ofList (l.chars 0 (.object fields))) = .object ⟨fields', true⟩ := by
  cases fields with
  | nil =>
    obtain rfl : fields' = [] := (Option.some.inj hr).symm
    rw [Layout.chars]
    rfl
  | cons field fields =>
    have hstart : ∃ cs, l.fieldsText 0 (field :: fields) = '"' :: cs := ⟨_, rfl⟩
    have hf := fields?_fieldsText l (field :: fields) (stepsFor (l.fieldsText 0 (field :: fields)))
      (maxDepth - 1) 0 [] (List.cons_ne_nil _ _) (Nat.le_add_right _ _) (Nat.le_pred_of_lt hd)
    rw [List.append_nil, hr, Option.map_some] at hf
    have hscan := scanFields_eq_iff.2 ⟨[], hf, rfl⟩
    rw [outline, String.toList_ofList, Layout.chars_object_cons, skipSpace_cons (by decide)]
    simp only [skipSpace_append (l.isSpace_gap 1)]
    obtain ⟨cs, hcs⟩ := hstart
    rw [hcs] at hscan ⊢
    rw [skipSpace_cons (by decide)]
    exact congrArg Outline.object hscan

theorem outline_render (hr : rereadFields? fields = some fields')
    (hd : nestingFields fields < maxDepth) :
    outline (Json.object fields).render = .object ⟨fields', true⟩ := by
  rw [render, ← chars_compact 0, outline_chars compact hr hd]

theorem length_skipSpace_le (cs : List Char) : (skipSpace cs).length ≤ cs.length :=
  List.length_dropWhile_le ..

theorem parse?_of_prefixValue? {text : String} {j : Json}
    (h : prefixValue? text.toList = some (j, rest)) (hr : skipSpace rest = []) :
    parse? text = some j := by
  rw [parse?, h]
  exact if_pos hr

theorem parse?_of_outline {text : String} (h : outline text = .object ⟨fields, true⟩) :
    parse? text = some (.object fields) := by
  rw [outline] at h
  split at h
  next tail hs =>
    have hcs : skipSpace text.toList = skipSpace ('\x7b' :: tail) := by
      rw [hs, skipSpace_cons (by decide)]
    have hl : tail.length + 1 ≤ text.toList.length := by
      have hle := length_skipSpace_le text.toList
      rwa [hs, List.length_cons] at hle
    have hv : prefixValue? text.toList = _ :=
      (value?_congr_space hcs _ _).trans
        (@value?_brace (3 * text.toList.length + 2) (maxDepth - 1) tail)
    split at h
    next rest ht =>
      obtain ⟨rfl, hr⟩ := Fields.mk.inj (Outline.object.inj h)
      rw [ht] at hv
      exact parse?_of_prefixValue? hv (by simpa using hr)
    next hne =>
      obtain ⟨r, hf, hr⟩ := scanFields_eq_iff.1 (Outline.object.inj h)
      -- More steps are at hand for the whole text than for its fields alone.
      have hsteps : stepsFor (skipSpace tail) ≤ 3 * text.toList.length + 2 := by
        have hle := length_skipSpace_le tail
        rw [stepsFor]
        omega
      split at hv
      next ht => exact absurd ht (hne _)
      next =>
        rw [fields?_mono hsteps hf] at hv
        exact parse?_of_prefixValue? hv hr
  next => cases h
  next => split at h <;> cases h

end Scan

end SimCampaign.Json
