import SimCampaign.Json.Members
import SimCampaign.Proofs.Json.Rereading

/-! An object text with no other members than those that matter is read as any value is. -/

namespace SimCampaign.Json
variable {names : List String} {fuel depth level : Nat} {rest cs : List Char}

theorem member1?_congr_space {cs cs' : List Char} (h : skipSpace cs = skipSpace cs') :
    member1? names fuel depth cs = member1? names fuel depth cs' := by
  rw [member1?, member1?, h]

theorem memberFields?_gap (l : Layout) (n : Nat) :
    memberFields? names fuel depth (l.gap n ++ cs) = memberFields? names fuel depth cs := by
  cases fuel with
  | zero => rw [memberFields?, memberFields?]
  | succ fuel =>
    rw [memberFields?, memberFields?, member1?_congr_space (skipSpace_append (l.isSpace_gap n) cs)]

theorem member1?_eq (l : Layout) {name : String} (h : name ∈ names) :
    member1? names fuel depth (stringChars name ++ ':' :: (l.pad ++ cs)) =
      (value? fuel depth cs).map fun p => ([(name, p.1)], p.2) := by
  obtain ⟨rest, hc, hs⟩ := string?_stringChars name (':' :: (l.pad ++ cs))
  have hv := value?_congr_space (skipSpace_append l.isSpace_pad cs) fuel depth
  rw [hc, member1?, skipSpace_cons (by decide)]
  simp only [hs]
  rw [skipSpace_cons (by decide)]
  simp only [if_pos h, hv]

theorem memberFields?_fieldsText (l : Layout) : ∀ (fields : List (String × Json))
    (fuel : Nat), fields ≠ [] → (∀ field ∈ fields, field.1 ∈ names) →
    3 * (l.fieldsText level fields).length ≤ fuel → nestingFields fields ≤ depth →
    memberFields? names fuel depth (l.fieldsText level fields ++ rest) =
      (rereadFields? fields).map fun js => (js, rest)
  | [], _, hne, _, _, _ => absurd rfl hne
  | (name, value) :: fields, fuel, _, hnames, hf, hd => by
    obtain ⟨hname, hnames⟩ := List.forall_mem_cons.1 hnames
    have hl := length_fieldsText_add_one_le l level fields
    simp only [Layout.fieldsText, List.length_append, List.length_cons] at hf
    obtain ⟨f, rfl, -⟩ := exists_eq_succ (n := 0) (m := fuel) (by omega)
    have hn : nesting value ≤ depth ∧ nestingFields fields ≤ depth := Nat.max_le.1 hd
    have hv := value?_chars l value f depth (level + 1) (l.moreFields level fields ++ rest)
      (by omega) hn.1 (endsNumber_moreFields fields)
    have ht : l.fieldsText level ((name, value) :: fields) ++ rest = stringChars name ++ ':' ::
        (l.pad ++ (l.chars (level + 1) value ++ (l.moreFields level fields ++ rest))) := by
      simp [Layout.fieldsText]
    rw [ht, memberFields?, member1?_eq l hname, hv, rereadFields?]
    cases reread? value with
    | none => rfl
    | some j =>
      simp only [Option.map_some, Option.bind_some]
      cases fields with
      | nil =>
        rw [skipSpace_moreFields_nil]
        rfl
      | cons field fields =>
        have hm := memberFields?_fieldsText l (field :: fields) f (List.cons_ne_nil _ _) hnames
          (by omega) hn.2
        rw [skipSpace_moreFields_cons]
        simp only [memberFields?_gap, hm]
        cases rereadFields? (field :: fields) <;> rfl

theorem parseMembers?_chars (l : Layout) {fields : List (String × Json)}
    (hnames : ∀ field ∈ fields, field.1 ∈ names) (hd : nestingFields fields < maxDepth) :
    parseMembers? names (String.ofList (l.chars 0 (.object fields))) =
      (rereadFields? fields).map .object := by
  cases fields with
  | nil =>
    rw [Layout.chars]
    rfl
  | cons field fields =>
    have hstart : ∃ cs, l.fieldsText 0 (field :: fields) = '"' :: cs := ⟨_, rfl⟩
    have hm := @memberFields?_fieldsText names (maxDepth - 1) 0 [] l (field :: fields)
      (stepsFor (l.fieldsText 0 (field :: fields))) (List.cons_ne_nil _ _) hnames
      (Nat.le_add_right _ _) (Nat.le_pred_of_lt hd)
    rw [List.append_nil] at hm
    rw [parseMembers?, String.toList_ofList, Layout.chars_object_cons, skipSpace_cons (by decide)]
    simp only [skipSpace_append (l.isSpace_gap 1)]
    obtain ⟨cs, hcs⟩ := hstart
    rw [hcs] at hm ⊢
    rw [skipSpace_cons (by decide)]
    split
    next he => exact absurd (List.cons.inj he).1 (by decide)
    next =>
      rw [hm]
      cases rereadFields? (field :: fields) <;> rfl

theorem parseMembers?_renderIndented {fields : List (String × Json)}
    (hnames : ∀ field ∈ fields, field.1 ∈ names) (hd : nestingFields fields < maxDepth) :
    parseMembers? names (Json.object fields).renderIndented =
      reread? (.object fields) := by
  rw [renderIndented, ← chars_indented, parseMembers?_chars indented hnames hd, reread?]

end SimCampaign.Json
