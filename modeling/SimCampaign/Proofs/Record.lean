import Mathlib.Data.List.Induction
import SimCampaign.Proofs.Lookup
import SimCampaign.Record

/-! A record around one of its names, and what is collected of pairs. -/

namespace SimCampaign.Record
variable {α : Type} {r : Record α} {name : String} {a : α} {before after : List (String × α)}

theorem exists_pairs_eq (h : r.get? name = some a) :
    ∃ before after, r.pairs = before ++ (name, a) :: after := by
  obtain ⟨before, after, hp, -⟩ := List.lookup_eq_some_iff.1 h
  exact ⟨before, after, hp⟩

theorem mem_names (h : r.pairs = before ++ (name, a) :: after) : name ∈ r.names := by
  rw [names, h, List.map_append, List.map_cons]
  exact List.mem_append_right _ (List.mem_cons_self ..)

theorem not_mem_of_pairs_eq (h : r.pairs = before ++ (name, a) :: after) :
    name ∉ before.map Prod.fst ∧ name ∉ after.map Prod.fst := by
  have hn := r.nodup
  rw [h, List.map_append, List.map_cons, List.nodup_middle, List.nodup_cons, List.mem_append,
    not_or] at hn
  exact hn.1

theorem replacePairs_of_not_mem {pairs : List (String × α)} (h : name ∉ pairs.map Prod.fst)
    (b : α) : replacePairs name b pairs = pairs := by
  rw [replacePairs]
  refine (List.map_congr_left fun p hp => ?_).trans (List.map_id pairs)
  exact if_neg fun he => h (List.mem_map.2 ⟨p, hp, he⟩)

theorem replacePairs_append (name : String) (b : α) (before after : List (String × α)) :
    replacePairs name b (before ++ after) =
      replacePairs name b before ++ replacePairs name b after :=
  List.map_append

theorem pairs_replace (h : r.pairs = before ++ (name, a) :: after) (b : α) :
    (r.replace name b).pairs = before ++ (name, b) :: after := by
  obtain ⟨hb, ha⟩ := not_mem_of_pairs_eq h
  have hc : replacePairs name b ((name, a) :: after) = (name, b) :: replacePairs name b after := by
    rw [replacePairs, List.map_cons, if_pos rfl]
    rfl
  change replacePairs name b r.pairs = _
  rw [h, replacePairs_append, hc, replacePairs_of_not_mem hb, replacePairs_of_not_mem ha]

theorem pairs_put_of_not_mem (h : name ∉ r.names) (a : α) :
    (r.put name a).pairs = r.pairs ++ [(name, a)] := by
  rw [put, dif_neg h]

theorem get?_eq_some_iff : r.get? name = some a ↔ (name, a) ∈ r.pairs :=
  ⟨mem_of_lookup_eq_some, lookup_eq_some_of_mem r.nodup⟩

theorem exists_mem_pairs (h : name ∈ r.names) : ∃ a, (name, a) ∈ r.pairs := by
  obtain ⟨p, hp, rfl⟩ := List.mem_map.1 h
  exact ⟨p.2, hp⟩

theorem mem_replacePairs_of_ne {other : String} (h : other ≠ name) {b : α}
    {pairs : List (String × α)} : (other, a) ∈ replacePairs name b pairs ↔ (other, a) ∈ pairs := by
  rw [replacePairs, List.mem_map]
  constructor
  · rintro ⟨p, hp, he⟩
    split at he
    · exact absurd (congrArg Prod.fst he).symm h
    · exact he ▸ hp
  · exact fun hm => ⟨_, hm, if_neg h⟩

theorem mem_pairs_replace (h : name ∈ r.names) (b : α) : (name, b) ∈ (r.replace name b).pairs := by
  obtain ⟨c, hc⟩ := exists_mem_pairs h
  obtain ⟨before, after, hp⟩ := List.append_of_mem hc
  exact pairs_replace hp b ▸ List.mem_append_right _ (List.mem_cons_self ..)

theorem get?_put_of_ne {other : String} (h : other ≠ name) (b : α) :
    (r.put name b).get? other = r.get? other := by
  ext c
  rw [get?_eq_some_iff, get?_eq_some_iff]
  by_cases hn : name ∈ r.names
  · rw [put, dif_pos hn]
    exact mem_replacePairs_of_ne h
  · rw [pairs_put_of_not_mem hn, List.mem_append, List.mem_singleton]
    exact ⟨fun hm => hm.resolve_right fun he => h (congrArg Prod.fst he), .inl⟩

theorem pairs_ofPairs {pairs : List (String × α)} (h : (pairs.map Prod.fst).Nodup) :
    (ofPairs pairs).pairs = pairs := by
  have hput : ∀ (pairs : List (String × α)) (r : Record α),
      ((r.pairs ++ pairs).map Prod.fst).Nodup →
      (pairs.foldl (fun r p => r.put p.1 p.2) r).pairs = r.pairs ++ pairs := by
    intro pairs
    induction pairs with
    | nil => exact fun r _ => (List.append_nil _).symm
    | cons p pairs ih =>
      intro r hr
      have hs : r.pairs ++ p :: pairs = (r.pairs ++ [p]) ++ pairs := by simp
      have hp : p.1 ∉ r.names := by
        rw [List.map_append, List.nodup_append] at hr
        exact fun hm => hr.2.2 _ hm _ (List.mem_cons_self ..) rfl
      have hq := pairs_put_of_not_mem hp p.2
      rw [List.foldl_cons, ih (r.put p.1 p.2) (by rw [hq, ← hs]; exact hr), hq, hs]
  exact hput pairs empty h

theorem names_put (r : Record α) (name : String) (a : α) :
    (r.put name a).names = if name ∈ r.names then r.names else r.names ++ [name] := by
  by_cases h : name ∈ r.names
  · rw [put, dif_pos h, if_pos h]
    exact map_fst_replacePairs name a r.pairs
  · rw [if_neg h, names, pairs_put_of_not_mem h, List.map_append]
    rfl

theorem get?_put_self (r : Record α) (name : String) (a : α) :
    (r.put name a).get? name = some a := by
  rw [get?_eq_some_iff]
  by_cases h : name ∈ r.names
  · rw [put, dif_pos h]
    exact mem_pairs_replace h a
  · rw [pairs_put_of_not_mem h]
    exact List.mem_append_right _ (List.mem_singleton_self _)

theorem get?_put (r : Record α) (other : String) (b : α) (name : String) :
    (r.put other b).get? name = if other = name then some b else r.get? name := by
  by_cases h : other = name
  · rw [if_pos h, ← h]
    exact get?_put_self r other b
  · rw [if_neg h]
    exact get?_put_of_ne (Ne.symm h) b

theorem ext_of_get? {s : Record α} (hn : r.names = s.names)
    (hg : ∀ name, r.get? name = s.get? name) : r = s :=
  ext (eq_of_lookup_eq hn r.nodup hg)

theorem put_put (r : Record α) (name : String) (a b : α) :
    (r.put name a).put name b = r.put name b := by
  have hmem : name ∈ (r.put name a).names := by
    rw [names_put]
    split_ifs with h
    · exact h
    · exact List.mem_append_right _ (List.mem_singleton_self name)
  refine ext_of_get? ?_ fun key => ?_
  · rw [names_put, if_pos hmem, names_put, names_put]
  · rw [get?_put, get?_put, get?_put]
    split_ifs <;> rfl

theorem get?_put_comm {other : String} (h : other ≠ name) (r : Record α) (a b : α) (key : String) :
    ((r.put name a).put other b).get? key = ((r.put other b).put name a).get? key := by
  simp only [get?_put]
  by_cases hk : other = key
  · rw [if_pos hk, if_pos hk, if_neg fun hn => h (hk.trans hn.symm)]
  · rw [if_neg hk, if_neg hk]

theorem ofPairs_pairs (r : Record α) : ofPairs r.pairs = r := ext (pairs_ofPairs r.nodup)

theorem eraseDups_concat (names : List String) (name : String) :
    (names ++ [name]).eraseDups =
      if name ∈ names then names.eraseDups else names.eraseDups ++ [name] := by
  rw [List.eraseDups_append]
  by_cases h : name ∈ names
  · have hr : [name].removeAll names = [] := by simpa [List.removeAll] using h
    rw [if_pos h, hr, List.eraseDups_nil, List.append_nil]
  · have hr : [name].removeAll names = [name] := by simpa [List.removeAll] using h
    rw [if_neg h, hr]
    rfl

section Collected
variable (pairs : List (String × α))

theorem ofPairs_concat (p : String × α) :
    ofPairs (pairs ++ [p]) = (ofPairs pairs).put p.1 p.2 := by
  rw [ofPairs, List.foldl_append]
  rfl

theorem names_ofPairs : (ofPairs pairs).names = (pairs.map Prod.fst).eraseDups := by
  induction pairs using List.reverseRecOn with
  | nil => rfl
  | append_singleton pairs p ih =>
    rw [ofPairs_concat, names_put, ih, List.map_append, List.map_singleton, eraseDups_concat]
    simp only [List.mem_eraseDups]

theorem get?_ofPairs (name : String) :
    (ofPairs pairs).get? name = pairs.reverse.lookup name := by
  induction pairs using List.reverseRecOn with
  | nil => rfl
  | append_singleton pairs p ih =>
    obtain ⟨other, a⟩ := p
    rw [ofPairs_concat, List.reverse_append, List.reverse_singleton, List.singleton_append,
      List.lookup_cons]
    by_cases h : name = other
    · rw [h, get?_put_self, beq_self_eq_true]
    · rw [get?_put_of_ne h, ih, beq_false_of_ne h]

theorem get?_ofPairs_eq_some_iff {name : String} {a : α} :
    (ofPairs pairs).get? name = some a ↔ IsLast pairs name a := by
  rw [get?_ofPairs, lookup_reverse_eq_some_iff]

theorem get?_ofPairs_eq_none_iff {name : String} :
    (ofPairs pairs).get? name = none ↔ name ∉ pairs.map Prod.fst := by
  rw [get?_ofPairs, lookup_eq_none_iff, List.map_reverse, List.mem_reverse]

end Collected

end SimCampaign.Record
