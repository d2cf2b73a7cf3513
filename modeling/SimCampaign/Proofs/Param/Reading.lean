import SimCampaign.Param.Json
import SimCampaign.Proofs.Except
import SimCampaign.Proofs.Json.Outline

/-! What is read of the fields of an object one after another. -/

namespace SimCampaign.Param
variable {σ α : Type} {text : String} {fields : List (String × Json)}

/-- Whether each field stands for the value that is paired with the same name. -/
abbrev FieldsAs (ofJson? : Json → Option α) (fields : List (String × Json))
    (pairs : List (String × α)) : Prop :=
  List.Forall₂ (fun field pair => field.1 = pair.1 ∧ ofJson? field.2 = some pair.2) fields pairs

theorem FieldsAs.map_fst {ofJson? : Json → Option α} {pairs : List (String × α)}
    (h : FieldsAs ofJson? fields pairs) : fields.map Prod.fst = pairs.map Prod.fst := by
  induction h with
  | nil => rfl
  | cons hp _ ih => rw [List.map_cons, List.map_cons, hp.1, ih]

/-- A field that stands for a value stands for a fixed parameter, and the other way around. -/
theorem Entry.ofJson?_eq_single_iff {j : Json} {v : Value} :
    ofJson? j = some (.single v) ↔ Value.ofJson? j = some v := by
  cases j with
  | array items => simp [ofJson?, Value.ofJson?]
  | _ => simp [ofJson?]

section Step
variable {ofJson? : Json → Option α} {step : σ → String → Json → Except ReadError σ}
  {use : σ → String → α → Except ReadError σ} {pairs : List (String × α)} {s t : σ}

/-- A step that reads the value of a field before it uses it. -/
def ReadsThen (step : σ → String → Json → Except ReadError σ) (ofJson? : Json → Option α)
    (use : σ → String → α → Except ReadError σ) : Prop :=
  ∀ s name j, step s name j = match ofJson? j with
    | none => .error .unexpected
    | some a => use s name a

theorem ReadsThen.foldlM_eq (h : ReadsThen step ofJson? use) (hf : FieldsAs ofJson? fields pairs)
    (s : σ) :
    fields.foldlM (fun s p => step s p.1 p.2) s = pairs.foldlM (fun s p => use s p.1 p.2) s := by
  induction hf generalizing s with
  | nil => rfl
  | @cons field pair fields pairs hp _ ih =>
    obtain ⟨hname, hvalue⟩ := hp
    have hstep : step s field.1 field.2 = use s pair.1 pair.2 := by
      rw [h, hvalue, hname]
    rw [List.foldlM_cons, List.foldlM_cons, hstep]
    exact congrArg _ (funext ih)

theorem ReadsThen.exists_fieldsAs (h : ReadsThen step ofJson? use)
    (hs : fields.foldlM (fun s p => step s p.1 p.2) s = .ok t) :
    ∃ pairs, FieldsAs ofJson? fields pairs := by
  induction fields generalizing s with
  | nil => exact ⟨[], .nil⟩
  | cons field fields ih =>
    rw [List.foldlM_cons, bind_eq_ok_iff] at hs
    obtain ⟨u, hu, hs⟩ := hs
    obtain ⟨pairs, hp⟩ := ih hs
    rw [h] at hu
    split at hu
    next => cases hu
    next a ha => exact ⟨(field.1, a) :: pairs, .cons ⟨rfl, ha⟩ hp⟩

end Step

theorem readFields_eq {step : σ → String → Json → Except ReadError σ} {start : σ}
    (h : Json.outline text = .object ⟨fields, true⟩) :
    readFields step start text = fields.foldlM (fun s p => step s p.1 p.2) start := by
  have hdone : (do let s ← fields.foldlM (fun s p => step s p.1 p.2) start; .ok s) =
      fields.foldlM (fun s p => step s p.1 p.2) start := by
    cases fields.foldlM (fun s p => step s p.1 p.2) start <;> rfl
  rw [readFields, h]
  exact hdone

/-- Only an object text without a flaw is read. -/
theorem exists_outline_of_readFields {step : σ → String → Json → Except ReadError σ}
    {start s : σ} (h : readFields step start text = .ok s) :
    ∃ fields, Json.outline text = .object ⟨fields, true⟩ ∧
      fields.foldlM (fun s p => step s p.1 p.2) start = .ok s := by
  rw [readFields] at h
  split at h
  next => cases h
  next => cases h
  next fs hfs =>
    obtain ⟨fields, complete⟩ := fs
    obtain ⟨u, hu, h⟩ := bind_eq_ok_iff.1 h
    cases complete with
    | false => cases h
    | true =>
      obtain rfl := Except.ok.inj h
      exact ⟨fields, hfs, hu⟩

namespace Space
variable {s : Space} {entries : List (String × Entry)}

theorem readsThen_readField : ReadsThen readField Entry.ofJson? fun s name e =>
    (s.push name e).mapError .rejected := by
  intro s name j
  rw [readField]
  cases Entry.ofJson? j with
  | none => rfl
  | some e => cases hp : s.push name e <;> simp [hp, Except.mapError]

theorem foldlM_push (s : Space) (entries : List (String × Entry)) :
    entries.foldlM (fun s p => (s.push p.1 p.2).mapError ReadError.rejected) s =
      (s.pushAll entries).mapError .rejected := by
  induction entries generalizing s with
  | nil => rfl
  | cons p entries ih =>
    obtain ⟨name, e⟩ := p
    rw [List.foldlM_cons, pushAll]
    cases s.push name e with
    | error cause => rfl
    | ok t => exact ih t

theorem read_eq (h : Json.outline text = .object ⟨fields, true⟩)
    (hf : FieldsAs Entry.ofJson? fields entries) :
    read text = (ofEntries entries).mapError .rejected := by
  rw [read, readFields_eq h, readsThen_readField.foldlM_eq hf, foldlM_push]
  rfl

theorem exists_of_read (h : read text = .ok s) : ∃ fields entries,
    Json.outline text = .object ⟨fields, true⟩ ∧ FieldsAs Entry.ofJson? fields entries ∧
      ofEntries entries = .ok s := by
  obtain ⟨fields, ho, hs⟩ := exists_outline_of_readFields h
  obtain ⟨entries, hf⟩ := readsThen_readField.exists_fieldsAs hs
  rw [read_eq ho hf, mapError_eq_ok_iff] at h
  exact ⟨fields, entries, ho, hf, h⟩

end Space

namespace Assignment
variable {a : Assignment} {pairs : List (String × Value)}

theorem readsThen_readField : ReadsThen readField Value.ofJson? fun a name v =>
    .ok (a.put name v) := by
  intro a name j
  rw [readField]
  cases Value.ofJson? j <;> rfl

theorem read_eq (h : Json.outline text = .object ⟨fields, true⟩)
    (hf : FieldsAs Value.ofJson? fields pairs) : read text = .ok (Record.ofPairs pairs) := by
  rw [read, readFields_eq h, readsThen_readField.foldlM_eq hf]
  exact List.foldlM_pure ..

theorem exists_of_read (h : read text = .ok a) : ∃ fields pairs,
    Json.outline text = .object ⟨fields, true⟩ ∧ FieldsAs Value.ofJson? fields pairs ∧
      a = Record.ofPairs pairs := by
  obtain ⟨fields, ho, hs⟩ := exists_outline_of_readFields h
  obtain ⟨pairs, hf⟩ := readsThen_readField.exists_fieldsAs hs
  rw [read_eq ho hf] at h
  exact ⟨fields, pairs, ho, hf, (Except.ok.inj h).symm⟩

end Assignment

end SimCampaign.Param
