import SimCampaign.Proofs.Param.Building
import SimCampaign.Proofs.Param.Reading

/-! One text read as a space and as an assignment. -/

namespace SimCampaign.Param
variable {s : Space} {pairs : List (String × Value)} {fields : List (String × Json)}

section Single

def Space.AllSingle (s : Space) : Prop := ∀ p ∈ s.pairs, ∃ v, p.2 = .single v

def singles (pairs : List (String × Value)) : List (String × Entry) :=
  pairs.map (Prod.map id Entry.single)

theorem map_fst_singles (pairs : List (String × Value)) :
    (singles pairs).map Prod.fst = pairs.map Prod.fst := by
  rw [singles, List.map_map]
  rfl

theorem Space.AllSingle.exists_singles (h : s.AllSingle) : ∃ pairs, s.pairs = singles pairs := by
  have hpairs : ∀ p ∈ s.pairs, ∃ q : String × Value, p = Prod.map id Entry.single q := by
    intro p hp
    obtain ⟨v, hv⟩ := h p hp
    exact ⟨(p.1, v), Prod.ext rfl hv⟩
  obtain ⟨pairs, hp⟩ := exists_forall₂ hpairs
  refine ⟨pairs, ?_⟩
  rw [singles, ← List.forall₂_eq_eq_eq, List.forall₂_map_right_iff]
  exact hp

theorem Space.allSingle_of_pairs_eq (h : s.pairs = singles pairs) : s.AllSingle := by
  intro p hp
  rw [h] at hp
  obtain ⟨q, -, rfl⟩ := List.mem_map.1 hp
  exact ⟨q.2, rfl⟩

theorem Space.choices_singles (pairs : List (String × Value)) :
    choices (singles pairs) = [pairs] := by
  induction pairs with
  | nil => rfl
  | cons p pairs ih =>
    have hc := choices_cons p.1 (.single p.2) (singles pairs)
    rw [ih] at hc
    exact hc

theorem Space.assignments_of_pairs_eq (h : s.pairs = singles pairs) :
    ∃ a : Assignment, a.pairs = pairs ∧ s.assignments = [a] := by
  have hm : s.assignments.map Record.pairs = [pairs] := by
    rw [map_pairs_assignments, h, choices_singles]
  obtain ⟨a, ha, hp⟩ := List.map_eq_singleton_iff.1 hm
  exact ⟨a, hp, ha⟩

end Single

section Fields

theorem fieldsAs_singles_iff :
    FieldsAs Entry.ofJson? fields (singles pairs) ↔ FieldsAs Value.ofJson? fields pairs := by
  rw [singles, FieldsAs, List.forall₂_map_right_iff]
  constructor
  · exact fun h => h.imp fun field p hp => ⟨hp.1, Entry.ofJson?_eq_single_iff.1 hp.2⟩
  · exact fun h => h.imp fun field p hp => ⟨hp.1, Entry.ofJson?_eq_single_iff.2 hp.2⟩

theorem FieldsAs.lookup_reverse (h : FieldsAs Value.ofJson? fields pairs) (name : String) :
    pairs.reverse.lookup name = (fields.reverse.lookup name).bind Value.ofJson? := by
  have hr : FieldsAs Value.ofJson? fields.reverse pairs.reverse := List.forall₂_reverse_iff.2 h
  generalize fields.reverse = fields at hr
  generalize pairs.reverse = pairs at hr
  induction hr with
  | nil => rfl
  | @cons field p fields pairs hp _ ih =>
    obtain ⟨other, j⟩ := field
    obtain ⟨_, v⟩ := p
    obtain ⟨rfl, hv⟩ := hp
    rw [List.lookup_cons, List.lookup_cons, ih]
    cases name == other with
    | true => exact hv.symm
    | false => rfl

end Fields

section Text
variable {t : String}

theorem exists_read_assignment (h : Space.read t = .ok s) (hs : s.AllSingle) :
    ∃ a, Assignment.read t = .ok a ∧ s.assignments = [a] := by
  obtain ⟨fields, entries, ho, hf, he⟩ := Space.exists_of_read h
  obtain ⟨pairs, hp⟩ := hs.exists_singles
  rw [← Space.ofEntries_eq_ok_iff.1 he, hp, fieldsAs_singles_iff] at hf
  obtain ⟨a, rfl, ha⟩ := Space.assignments_of_pairs_eq hp
  refine ⟨a, ?_, ha⟩
  rw [Assignment.read_eq ho hf, Record.ofPairs_pairs]

theorem exists_read_space (ho : Json.outline t = .object ⟨fields, true⟩)
    (hf : FieldsAs Value.ofJson? fields pairs) (hn : (fields.map Prod.fst).Nodup) :
    ∃ s, Space.read t = .ok s ∧ s.AllSingle ∧ s.assignments = [Record.ofPairs pairs] := by
  have hnames : ((singles pairs).map Prod.fst).Nodup := by rwa [map_fst_singles, ← hf.map_fst]
  obtain ⟨s, hs, hp⟩ := Space.exists_ofEntries hnames
  obtain ⟨a, rfl, ha⟩ := Space.assignments_of_pairs_eq hp
  refine ⟨s, ?_, Space.allSingle_of_pairs_eq hp, by rw [Record.ofPairs_pairs, ha]⟩
  rw [Space.read_eq ho (fieldsAs_singles_iff.2 hf), hs]
  rfl

theorem exists_read_space_error (ho : Json.outline t = .object ⟨fields, true⟩)
    (hf : FieldsAs Value.ofJson? fields pairs) (hn : ¬ (fields.map Prod.fst).Nodup) :
    ∃ before name after, fields.map Prod.fst = before ++ name :: after ∧ before.Nodup ∧
      name ∈ before ∧ Space.read t = .error (.rejected (.duplicate name)) := by
  have hnames : ¬ ((singles pairs).map Prod.fst).Nodup := by
    rwa [map_fst_singles, ← hf.map_fst]
  obtain ⟨before, name, after, hb, hn, hm, he⟩ := Space.exists_ofEntries_error hnames
  rw [map_fst_singles, ← hf.map_fst] at hb
  refine ⟨before, name, after, hb, hn, hm, ?_⟩
  rw [Space.read_eq ho (fieldsAs_singles_iff.2 hf), he]
  rfl

end Text

/-- What an assignment keeps of the fields of an object: each name where it stands first, with the
value that it has last. -/
structure Assignment.Keeps (a : Assignment) (fields : List (String × Json)) : Prop where
  names_eq : a.names = (fields.map Prod.fst).eraseDups
  get?_eq : ∀ name, a.get? name = (fields.reverse.lookup name).bind Value.ofJson?

/-- Fixed parameters whose names differ are read alike as a space and as an assignment. Of names
that repeat, a space refuses the first one, and an assignment takes the last value. -/
theorem read_space_and_assignment (t : String) :
    (∀ s, Space.read t = .ok s → s.AllSingle →
      ∃ a, Assignment.read t = .ok a ∧ s.assignments = [a]) ∧
    ∀ a, Assignment.read t = .ok a → ∃ fields, Json.parse? t = some (.object fields) ∧
      ((fields.map Prod.fst).Nodup →
        ∃ s, Space.read t = .ok s ∧ s.AllSingle ∧ s.assignments = [a]) ∧
      (¬ (fields.map Prod.fst).Nodup → a.Keeps fields ∧
        ∃ before name after, fields.map Prod.fst = before ++ name :: after ∧ before.Nodup ∧
          name ∈ before ∧ Space.read t = .error (.rejected (.duplicate name))) := by
  constructor
  · exact fun s hs hsingle => exists_read_assignment hs hsingle
  · intro a ha
    obtain ⟨fields, pairs, ho, hf, rfl⟩ := Assignment.exists_of_read ha
    have hkeeps : Assignment.Keeps (Record.ofPairs pairs) fields := by
      constructor
      · rw [Record.names_ofPairs, hf.map_fst]
      · intro name
        rw [Record.get?_ofPairs, hf.lookup_reverse]
    exact ⟨fields, Json.parse?_of_outline ho, fun hn => exists_read_space ho hf hn,
      fun hn => ⟨hkeeps, exists_read_space_error ho hf hn⟩⟩

/-- The third name is the first one in other letters. -/
def repeatedName : String := "\x7b\"a\": 1, \"b\": true, \"\\u0061\": 2\x7d"

theorem parse?_repeatedName : Json.parse? repeatedName =
    some (.object [("a", .integer 1), ("b", .bool true), ("a", .integer 2)]) := by
  with_unfolding_all rfl

theorem read_repeatedName :
    ∃ a fields, Assignment.read repeatedName = .ok a ∧
      Json.parse? repeatedName = some (.object fields) ∧
      fields.map Prod.fst = ["a", "b", "a"] ∧ a.Keeps fields ∧
      Space.read repeatedName = .error (.rejected (.duplicate "a")) := by
  have hspace : (Space.read repeatedName).map Record.names = .error (.rejected (.duplicate "a")) := by
    decide +kernel
  have hread : (Assignment.read repeatedName).isOk = true := by decide +kernel
  cases ha : Assignment.read repeatedName with
  | error e =>
    rw [ha] at hread
    cases hread
  | ok a =>
    obtain ⟨fields, hparse, -, hrepeat⟩ := (read_space_and_assignment repeatedName).2 a ha
    obtain rfl := Json.object.inj (Option.some.inj (parse?_repeatedName.symm.trans hparse))
    obtain ⟨hkeeps, before, name, after, -, -, -, he⟩ := hrepeat (by decide)
    rw [he] at hspace
    cases hspace
    exact ⟨a, _, rfl, hparse, rfl, hkeeps, he⟩

end SimCampaign.Param
