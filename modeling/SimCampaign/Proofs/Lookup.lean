import Mathlib.Data.List.Infix
import Mathlib.Data.List.Nodup

/-! What is found under a key in a list of pairs. -/

namespace SimCampaign
variable {κ β : Type} [BEq κ] [LawfulBEq κ] {entries : List (κ × β)} {k : κ} {b : β}

theorem lookup_eq_some_of_mem (hd : (entries.map Prod.fst).Nodup) (h : (k, b) ∈ entries) :
    entries.lookup k = some b := by
  obtain ⟨before, after, rfl⟩ := List.append_of_mem h
  rw [List.lookup_eq_some_iff]
  refine ⟨before, after, rfl, ?_⟩
  intro entry he
  rw [List.map_append, List.map_cons, List.nodup_append] at hd
  have hne : entry.1 ≠ k := hd.2.2 _ (List.mem_map.2 ⟨entry, he, rfl⟩) _ (List.mem_cons_self ..)
  exact bne_iff_ne.2 hne.symm

theorem mem_of_lookup_eq_some (h : entries.lookup k = some b) : (k, b) ∈ entries := by
  obtain ⟨before, after, rfl, -⟩ := List.lookup_eq_some_iff.1 h
  exact List.mem_append_right _ (List.mem_cons_self ..)

theorem lookup_eq_none_iff : entries.lookup k = none ↔ k ∉ entries.map Prod.fst := by
  rw [List.lookup_eq_none_iff, List.mem_map]
  constructor
  · rintro h ⟨entry, he, rfl⟩
    exact bne_iff_ne.1 (h entry he) rfl
  · exact fun h entry he => bne_iff_ne.2 fun hk => h ⟨entry, he, hk.symm⟩

theorem lookup_map {γ : Type} (f : β → γ) (k : κ) (entries : List (κ × β)) :
    (entries.map (Prod.map id f)).lookup k = (entries.lookup k).map f := by
  induction entries with
  | nil => rfl
  | cons entry entries ih =>
    obtain ⟨l, b⟩ := entry
    rw [List.map_cons, Prod.map_apply, id]
    by_cases hk : k = l
    · rw [hk, List.lookup_cons_self, List.lookup_cons_self, Option.map_some]
    · simp only [List.lookup_cons, beq_false_of_ne hk, ih]

def IsLast (entries : List (κ × β)) (k : κ) (b : β) : Prop :=
  ∃ before after, entries = before ++ (k, b) :: after ∧ k ∉ after.map Prod.fst

theorem lookup_reverse_eq_some_iff :
    entries.reverse.lookup k = some b ↔ IsLast entries k b := by
  rw [List.lookup_eq_some_iff]
  constructor
  · rintro ⟨after, before, hp, hfresh⟩
    refine ⟨before.reverse, after.reverse, ?_, fun hk => ?_⟩
    · rw [List.reverse_eq_append_iff.1 hp, List.reverse_cons, List.append_assoc,
        List.singleton_append]
    · obtain ⟨entry, he, rfl⟩ := List.mem_map.1 hk
      exact bne_iff_ne.1 (hfresh entry (List.mem_reverse.1 he)) rfl
  · rintro ⟨before, after, rfl, hfresh⟩
    refine ⟨after.reverse, before.reverse, by simp, fun entry he => bne_iff_ne.2 ?_⟩
    rintro rfl
    exact hfresh (List.mem_map_of_mem (List.mem_reverse.1 he))

/-- Pairs whose keys differ are determined by their keys and by what is found under them. -/
theorem eq_of_lookup_eq {others : List (κ × β)}
    (hn : entries.map Prod.fst = others.map Prod.fst) (hd : (entries.map Prod.fst).Nodup)
    (hg : ∀ key, entries.lookup key = others.lookup key) : entries = others := by
  induction entries generalizing others with
  | nil => exact (List.map_eq_nil_iff.1 hn.symm).symm
  | cons entry entries ih =>
    cases others with
    | nil => cases hn
    | cons other others =>
      obtain ⟨k, b⟩ := entry
      obtain ⟨l, c⟩ := other
      obtain ⟨rfl, hrest⟩ := List.cons.inj hn
      obtain ⟨hfresh, hd⟩ := List.nodup_cons.1 hd
      have hhead := hg k
      rw [List.lookup_cons_self, List.lookup_cons_self, Option.some_inj] at hhead
      have htail : ∀ key, entries.lookup key = others.lookup key := by
        intro key
        by_cases hkey : key = k
        · rw [hkey, lookup_eq_none_iff.2 hfresh, lookup_eq_none_iff.2 (hrest ▸ hfresh)]
        · have hcons := hg key
          rwa [List.lookup_cons, List.lookup_cons, beq_false_of_ne hkey] at hcons
      rw [hhead, ih hrest hd htail]

end SimCampaign
