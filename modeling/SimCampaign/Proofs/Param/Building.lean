import SimCampaign.Proofs.Param.Enumeration

/-! Spaces that are built of entries, and entries that replace those of their names. -/

namespace SimCampaign.Param.Space
variable {s t : Space} {entries changes : List (String × Entry)} {name : String} {e : Entry}

theorem exists_pushAll (h : (s.names ++ entries.map Prod.fst).Nodup) :
    ∃ t, s.pushAll entries = .ok t ∧ t.pairs = s.pairs ++ entries := by
  induction entries generalizing s with
  | nil => exact ⟨s, rfl, (List.append_nil _).symm⟩
  | cons p rest ih =>
    obtain ⟨name, e⟩ := p
    rw [List.map_cons, List.nodup_middle, List.nodup_cons, List.mem_append, not_or] at h
    obtain ⟨⟨hs, hr⟩, hn⟩ := h
    obtain ⟨u, hu⟩ : ∃ u : Space, u.pairs = s.pairs ++ [(name, e)] ∧ s.push name e = .ok u := by
      refine ⟨⟨_, Record.nodup_append_fresh e hs⟩, rfl, ?_⟩
      rw [push, Record.push?, dif_neg hs]
    have hun : (u.names ++ rest.map Prod.fst).Nodup := by
      rw [Record.names, hu.1, List.map_append, List.append_assoc, List.map_singleton,
        List.singleton_append, List.nodup_middle, List.nodup_cons, List.mem_append, not_or]
      exact ⟨⟨hs, hr⟩, hn⟩
    obtain ⟨t, ht, hp⟩ := ih hun
    refine ⟨t, by rw [pushAll, hu.2]; exact ht, ?_⟩
    rw [hp, hu.1, List.append_assoc]
    rfl

theorem exists_ofEntries (h : (entries.map Prod.fst).Nodup) :
    ∃ t, ofEntries entries = .ok t ∧ t.pairs = entries :=
  exists_pushAll (s := Record.empty) h

theorem pushAll_append (s : Space) (before after : List (String × Entry)) :
    s.pushAll (before ++ after) = s.pushAll before >>= fun t => t.pushAll after := by
  induction before generalizing s with
  | nil => rfl
  | cons p before ih =>
    obtain ⟨name, e⟩ := p
    rw [List.cons_append, pushAll, pushAll]
    cases s.push name e with
    | error cause => rfl
    | ok t => exact ih t

theorem ofEntries_of_repeated {before after : List (String × Entry)}
    (hb : (before.map Prod.fst).Nodup) (hm : name ∈ before.map Prod.fst) :
    ofEntries (before ++ (name, e) :: after) = .error (.duplicate name) := by
  obtain ⟨t, ht, hp⟩ := exists_ofEntries hb
  have hn : name ∈ t.names := by rwa [Record.names, hp]
  have hpush : t.push name e = .error (.duplicate name) := by
    rw [push, Record.push?, dif_pos hn]
  rw [ofEntries] at ht
  rw [ofEntries, pushAll_append, ht]
  change t.pushAll ((name, e) :: after) = _
  rw [pushAll, hpush]
  rfl

theorem exists_first_repeated {names : List String} (h : ¬ names.Nodup) :
    ∃ before name after, names = before ++ name :: after ∧ before.Nodup ∧ name ∈ before := by
  induction names using List.reverseRecOn with
  | nil => exact absurd List.nodup_nil h
  | append_singleton names name ih =>
    by_cases hn : names.Nodup
    · refine ⟨names, name, [], rfl, hn, ?_⟩
      rw [← List.concat_eq_append, List.nodup_concat] at h
      exact Decidable.of_not_not fun hm => h ⟨hm, hn⟩
    · obtain ⟨before, repeated, after, rfl, hb⟩ := ih hn
      exact ⟨before, repeated, after ++ [name], by simp, hb⟩

theorem exists_ofEntries_error (h : ¬ (entries.map Prod.fst).Nodup) :
    ∃ before name after, entries.map Prod.fst = before ++ name :: after ∧ before.Nodup ∧
      name ∈ before ∧ ofEntries entries = .error (.duplicate name) := by
  obtain ⟨before, name, after, he, hb, hm⟩ := exists_first_repeated h
  obtain ⟨xs, ys, rfl, rfl, hy⟩ := List.map_eq_append_iff.1 he
  obtain ⟨⟨_, e⟩, ys, rfl, rfl, rfl⟩ := List.map_eq_cons_iff.1 hy
  exact ⟨_, _, _, he, hb, hm, ofEntries_of_repeated hb hm⟩

theorem ofEntries_eq_ok_iff : ofEntries entries = .ok s ↔ s.pairs = entries := by
  constructor
  · intro h
    by_cases hn : (entries.map Prod.fst).Nodup
    · obtain ⟨t, ht, hp⟩ := exists_ofEntries hn
      obtain rfl : t = s := Except.ok.inj (ht.symm.trans h)
      exact hp
    · obtain ⟨before, name, after, -, -, -, he⟩ := exists_ofEntries_error hn
      rw [h] at he
      cases he
  · rintro rfl
    obtain ⟨t, ht, hp⟩ := exists_ofEntries s.nodup
    rw [ht, Record.ext hp]

theorem set_of_mem (h : name ∈ s.names) (e : Entry) : s.set name e = .ok (s.replace name e) :=
  if_pos h

theorem names_replace (s : Space) (name : String) (e : Entry) :
    (s.replace name e).names = s.names :=
  Record.map_fst_replacePairs ..

/-- The first change of the name of each pair replaces its value. -/
def overlay {α : Type} (changes pairs : List (String × α)) : List (String × α) :=
  pairs.map fun p => (p.1, (changes.lookup p.1).getD p.2)

theorem overlay_replacePairs {α : Type} {a : α} {changes : List (String × α)}
    (h : name ∉ changes.map Prod.fst) (pairs : List (String × α)) :
    overlay changes (Record.replacePairs name a pairs) = overlay ((name, a) :: changes) pairs := by
  rw [overlay, overlay, Record.replacePairs, List.map_map]
  refine List.map_congr_left fun p _ => ?_
  by_cases hp : p.1 = name
  · have hl : changes.lookup name = none := lookup_eq_none_iff.2 h
    simp only [Function.comp_apply, hp, if_true, hl, Option.getD_none, List.lookup_cons_self,
      Option.getD_some]
  · simp only [Function.comp_apply, if_neg hp, List.lookup_cons, beq_false_of_ne hp]

theorem map_overlay {α β : Type} (f : α → β) (changes pairs : List (String × α)) :
    (overlay changes pairs).map (Prod.map id f) =
      overlay (changes.map (Prod.map id f)) (pairs.map (Prod.map id f)) := by
  rw [overlay, overlay, List.map_map, List.map_map]
  refine List.map_congr_left fun p _ => ?_
  simp only [Function.comp_apply, Prod.map, id, lookup_map]
  cases changes.lookup p.1 <;> rfl

/-- The names with the numbers of their candidates. -/
def outline (entries : List (String × Entry)) : List (String × Nat) :=
  entries.map (Prod.map id (·.values.length))

theorem map_fst_outline (entries : List (String × Entry)) :
    (outline entries).map Prod.fst = entries.map Prod.fst := by
  rw [outline, List.map_map]
  rfl

theorem mem_outline (h : (name, e) ∈ s.pairs) : (name, e.values.length) ∈ outline s.pairs :=
  List.mem_map_of_mem (f := Prod.map id (·.values.length)) h

end SimCampaign.Param.Space
