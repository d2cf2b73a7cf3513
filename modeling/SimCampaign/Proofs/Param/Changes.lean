import SimCampaign.Proofs.Except
import SimCampaign.Proofs.Param.Building

/-! Spaces after any sequence of changes, refused ones among them. A space is an ordered map: its
names are those that were pushed, in the order of their first pushes, and a name has the entry that
was stored last. -/

namespace SimCampaign.Param.Space
variable {s t : Space} {name : String} {e : Entry} {cause : Error}

/-- A change that a space may refuse. -/
inductive Change where
  | push (name : String) (e : Entry)
  | set (name : String) (e : Entry)

def Change.apply (s : Space) : Change → Except Error Space
  | push name e => s.push name e
  | set name e => s.set name e

/-- A space that refuses a change stays as it is. -/
def changed (s : Space) (c : Change) : Space :=
  match c.apply s with
  | .ok t => t
  | .error _ => s

def afterChanges (changes : List Change) : Space := changes.foldl changed Record.empty

section History

/-- The names that changes push, those of refused pushes too. -/
def pushedNames (changes : List Change) : List String :=
  changes.filterMap fun
    | .push name _ => some name
    | .set _ _ => none

/-- The entries that changes set for a name. -/
def settings (name : String) (changes : List Change) : List Entry :=
  changes.filterMap fun
    | .push _ _ => none
    | .set other e => if other = name then some e else none

/-- What changes store under a name: the entry of its first push, then each that is set for it. -/
def stored (name : String) : List Change → List Entry
  | [] => []
  | .push other e :: rest => if other = name then e :: settings name rest else stored name rest
  | .set _ _ :: rest => stored name rest

theorem pushedNames_cons_push (other : String) (e : Entry) (rest : List Change) :
    pushedNames (.push other e :: rest) = other :: pushedNames rest := rfl

theorem stored_concat_push (changes : List Change) (other : String) (e : Entry) :
    stored name (changes ++ [.push other e]) =
      stored name changes ++ if other = name ∧ name ∉ pushedNames changes then [e] else [] := by
  induction changes with
  | nil => by_cases h : other = name <;> simp [stored, settings, pushedNames, h]
  | cons c rest ih =>
    cases c with
    | push first f =>
      by_cases h : first = name
      · simp [stored, settings, pushedNames_cons_push, h]
      · have hm : name ∉ pushedNames (.push first f :: rest) ↔ name ∉ pushedNames rest := by
          rw [pushedNames_cons_push, List.mem_cons, not_or, and_iff_right (Ne.symm h)]
        simp only [List.cons_append, stored, if_neg h, ih, hm]
    | set first f => exact ih

theorem stored_concat_set (changes : List Change) (other : String) (e : Entry) :
    stored name (changes ++ [.set other e]) =
      stored name changes ++ if other = name ∧ name ∈ pushedNames changes then [e] else [] := by
  induction changes with
  | nil => simp [stored, pushedNames]
  | cons c rest ih =>
    cases c with
    | push first f =>
      by_cases h : first = name
      · by_cases ho : other = name <;> simp [stored, settings, pushedNames_cons_push, h, ho]
      · have hm : name ∈ pushedNames (.push first f :: rest) ↔ name ∈ pushedNames rest := by
          rw [pushedNames_cons_push, List.mem_cons, or_iff_right (Ne.symm h)]
        simp only [List.cons_append, stored, if_neg h, ih, hm]
    | set first f => exact ih

end History

section Call

theorem push_of_mem (h : name ∈ s.names) (e : Entry) :
    s.push name e = .error (.duplicate name) := by
  rw [push, Record.push?, dif_pos h]

theorem exists_push (h : name ∉ s.names) (e : Entry) :
    ∃ t, s.push name e = .ok t ∧ t.pairs = s.pairs ++ [(name, e)] := by
  have hp : s.push? name e = some ⟨s.pairs ++ [(name, e)], Record.nodup_append_fresh e h⟩ :=
    dif_neg h
  exact ⟨_, by rw [push, hp], rfl⟩

theorem set_of_not_mem (h : name ∉ s.names) (e : Entry) :
    s.set name e = .error (.unknown name) := if_neg h

/-- Whether the second space has an entry where the first has its entry of the name, and all else
alike. -/
def Replaces (s t : Space) (name : String) (e : Entry) : Prop :=
  ∃ before old after, s.get? name = some old ∧ s.pairs = before ++ (name, old) :: after ∧
    t.pairs = before ++ (name, e) :: after

theorem exists_set (h : name ∈ s.names) (e : Entry) :
    ∃ t, s.set name e = .ok t ∧ Replaces s t name e := by
  obtain ⟨old, hold⟩ := Record.exists_mem_pairs h
  obtain ⟨before, after, hp⟩ := List.append_of_mem hold
  have hg : s.get? name = some old := Record.get?_eq_some_iff.2 hold
  exact ⟨_, set_of_mem h e, before, old, after, hg, hp, Record.pairs_replace hp e⟩

/-- What a space answers to the two changes of a name. -/
structure Answers (s : Space) (name : String) (e : Entry) : Prop where
  push : if name ∈ s.names then s.push name e = .error (.duplicate name)
    else ∃ t, s.push name e = .ok t ∧ t.pairs = s.pairs ++ [(name, e)]
  set : if name ∈ s.names then ∃ t, s.set name e = .ok t ∧ Replaces s t name e
    else s.set name e = .error (.unknown name)

theorem answers (s : Space) (name : String) (e : Entry) : Answers s name e := by
  by_cases h : name ∈ s.names
  · exact ⟨by rw [if_pos h]; exact push_of_mem h e, by rw [if_pos h]; exact exists_set h e⟩
  · exact ⟨by rw [if_neg h]; exact exists_push h e, by rw [if_neg h]; exact set_of_not_mem h e⟩

end Call

section Step

theorem changed_of_ok {c : Change} (h : c.apply s = .ok t) : changed s c = t := by
  rw [changed, h]

theorem changed_of_error {c : Change} (h : c.apply s = .error cause) : changed s c = s := by
  rw [changed, h]

theorem changed_push_of_mem (h : name ∈ s.names) (e : Entry) : changed s (.push name e) = s :=
  changed_of_error (push_of_mem h e)

theorem changed_set_of_not_mem (h : name ∉ s.names) (e : Entry) : changed s (.set name e) = s :=
  changed_of_error (set_of_not_mem h e)

theorem changed_push_of_not_mem (h : name ∉ s.names) (e : Entry) :
    changed s (.push name e) = s.put name e := by
  obtain ⟨t, ht, hp⟩ := exists_push h e
  have ha : Change.apply s (.push name e) = .ok t := ht
  rw [changed_of_ok ha]
  exact Record.ext (hp.trans (Record.pairs_put_of_not_mem h e).symm)

theorem changed_set_of_mem (h : name ∈ s.names) (e : Entry) :
    changed s (.set name e) = s.put name e := by
  have he : s.put name e = s.replace name e := dif_pos h
  rw [he]
  exact changed_of_ok (set_of_mem h e)

theorem names_changed_push (s : Space) (name : String) (e : Entry) :
    (changed s (.push name e)).names = if name ∈ s.names then s.names else s.names ++ [name] := by
  by_cases h : name ∈ s.names
  · rw [changed_push_of_mem h, if_pos h]
  · rw [changed_push_of_not_mem h, Record.names_put]

theorem names_changed_set (s : Space) (name : String) (e : Entry) :
    (changed s (.set name e)).names = s.names := by
  by_cases h : name ∈ s.names
  · rw [changed_set_of_mem h, Record.names_put, if_pos h]
  · rw [changed_set_of_not_mem h]

theorem get?_changed_push (s : Space) (other : String) (e : Entry) (name : String) :
    (changed s (.push other e)).get? name =
      if other = name ∧ name ∉ s.names then some e else s.get? name := by
  by_cases h : other ∈ s.names
  · have hn : ¬ (other = name ∧ name ∉ s.names) := fun ⟨he, hm⟩ => hm (he ▸ h)
    rw [changed_push_of_mem h, if_neg hn]
  · have hi : other = name ∧ name ∉ s.names ↔ other = name :=
      and_iff_left_of_imp fun he => he ▸ h
    rw [changed_push_of_not_mem h, Record.get?_put]
    simp only [hi]

theorem get?_changed_set (s : Space) (other : String) (e : Entry) (name : String) :
    (changed s (.set other e)).get? name =
      if other = name ∧ name ∈ s.names then some e else s.get? name := by
  by_cases h : other ∈ s.names
  · have hi : other = name ∧ name ∈ s.names ↔ other = name :=
      and_iff_left_of_imp fun he => he ▸ h
    rw [changed_set_of_mem h, Record.get?_put]
    simp only [hi]
  · have hn : ¬ (other = name ∧ name ∈ s.names) := fun ⟨he, hm⟩ => h (he ▸ hm)
    rw [changed_set_of_not_mem h, if_neg hn]

end Step

section Run

theorem afterChanges_concat (changes : List Change) (c : Change) :
    afterChanges (changes ++ [c]) = changed (afterChanges changes) c := by
  rw [afterChanges, List.foldl_append]
  rfl

theorem names_afterChanges (changes : List Change) :
    (afterChanges changes).names = (pushedNames changes).eraseDups := by
  induction changes using List.reverseRecOn with
  | nil => rfl
  | append_singleton changes c ih =>
    rw [afterChanges_concat]
    cases c with
    | push name e =>
      have hp : pushedNames (changes ++ [.push name e]) = pushedNames changes ++ [name] := by
        simp [pushedNames]
      rw [names_changed_push, ih, hp, Record.eraseDups_concat]
      simp only [List.mem_eraseDups]
    | set name e =>
      have hp : pushedNames (changes ++ [.set name e]) = pushedNames changes := by
        simp [pushedNames]
      rw [names_changed_set, ih, hp]

theorem mem_names_afterChanges {changes : List Change} :
    name ∈ (afterChanges changes).names ↔ name ∈ pushedNames changes := by
  rw [names_afterChanges, List.mem_eraseDups]

theorem get?_afterChanges (changes : List Change) (name : String) :
    (afterChanges changes).get? name = (stored name changes).getLast? := by
  induction changes using List.reverseRecOn with
  | nil => rfl
  | append_singleton changes c ih =>
    rw [afterChanges_concat]
    -- The change is stored last, or it stores nothing and what was last stays.
    cases c with
    | push other e =>
      rw [get?_changed_push, ih, stored_concat_push]
      simp only [mem_names_afterChanges]
      split
      next => rw [List.getLast?_concat]
      next => rw [List.append_nil]
    | set other e =>
      rw [get?_changed_set, ih, stored_concat_set]
      simp only [mem_names_afterChanges]
      split
      next => rw [List.getLast?_concat]
      next => rw [List.append_nil]

theorem foldl_changed_of_pushAll {entries : List (String × Entry)} (h : s.pushAll entries = .ok t) :
    (entries.map fun p => Change.push p.1 p.2).foldl changed s = t := by
  induction entries generalizing s with
  | nil => exact Except.ok.inj h
  | cons p rest ih =>
    obtain ⟨name, e⟩ := p
    rw [pushAll] at h
    obtain ⟨u, hu, h⟩ := bind_eq_ok_iff.1 h
    have hc : changed s (.push name e) = u := changed_of_ok hu
    rw [List.map_cons, List.foldl_cons, hc]
    exact ih h

end Run

/-- After any changes the names of a space are those that were pushed, each once, where it was
pushed first, and a name has the entry that was stored last. A push is refused if and only if the
name is there and appends otherwise. A setting is refused if and only if the name is not there and
replaces the one entry of the name otherwise. Refused changes leave the space. A list of entries
makes a space if and only if its names differ, and else the first that repeats is told. -/
theorem names_and_entries_afterChanges :
    (∀ changes : List Change,
      (afterChanges changes).names = (pushedNames changes).eraseDups ∧
      (afterChanges changes).names.Nodup ∧
      (∀ name, (afterChanges changes).get? name = (stored name changes).getLast?) ∧
      (∀ name e, Answers (afterChanges changes) name e) ∧
      ∀ c cause, c.apply (afterChanges changes) = .error cause →
        afterChanges (changes ++ [c]) = afterChanges changes) ∧
    ∀ entries : List (String × Entry),
      if (entries.map Prod.fst).Nodup then
        ∃ s, ofEntries entries = .ok s ∧ s.pairs = entries ∧
          s = afterChanges (entries.map fun p => .push p.1 p.2)
      else ∃ before name after, entries.map Prod.fst = before ++ name :: after ∧ before.Nodup ∧
        name ∈ before ∧ ofEntries entries = .error (.duplicate name) := by
  constructor
  · intro changes
    have hnames := names_afterChanges changes
    have hnodup : (afterChanges changes).names.Nodup := (afterChanges changes).nodup
    refine ⟨hnames, hnodup, get?_afterChanges changes, answers (afterChanges changes), ?_⟩
    intro c cause h
    rw [afterChanges_concat, changed_of_error h]
  · intro entries
    split
    next hn =>
      obtain ⟨s, hs, hp⟩ := exists_ofEntries hn
      exact ⟨s, hs, hp, (foldl_changed_of_pushAll hs).symm⟩
    next hn => exact exists_ofEntries_error hn

/-- The third change is refused, since the name is there already. -/
def someChanges : List Change :=
  [.push "b" (.single (.bool true)), .push "a" (.single (.ofNat 1)),
    .push "b" (.single (.ofNat 4)), .set "b" (.list [.ofNat 2, .ofNat 3])]

theorem entries_someChanges :
    (afterChanges someChanges).names = ["b", "a"] ∧
      (afterChanges someChanges).get? "b" = some (.list [.ofNat 2, .ofNat 3]) ∧
      (∀ e, (afterChanges someChanges).push "b" e = .error (.duplicate "b") ∧
        afterChanges (someChanges ++ [.push "b" e]) = afterChanges someChanges) ∧
      (∀ e, (afterChanges someChanges).set "c" e = .error (.unknown "c") ∧
        afterChanges (someChanges ++ [.set "c" e]) = afterChanges someChanges) ∧
      ofEntries [("b", .list []), ("a", .list []), ("b", .single (.bool true))] =
        .error (.duplicate "b") := by
  obtain ⟨hchanges, hentries⟩ := names_and_entries_afterChanges
  obtain ⟨hnames, -, hget, hanswers, hrefused⟩ := hchanges someChanges
  have hpushed : (pushedNames someChanges).eraseDups = ["b", "a"] := by decide
  rw [hpushed] at hnames
  refine ⟨hnames, hget "b", fun e => ?_, fun e => ?_, ?_⟩
  · have hpush := (hanswers "b" e).push
    rw [hnames, if_pos (by decide)] at hpush
    exact ⟨hpush, hrefused (.push "b" e) _ hpush⟩
  · have hset := (hanswers "c" e).set
    rw [hnames, if_neg (by decide)] at hset
    exact ⟨hset, hrefused (.set "c" e) _ hset⟩
  · have hrepeated := hentries [("b", .list []), ("a", .list []), ("b", .single (.bool true))]
    rw [if_neg (by decide)] at hrepeated
    obtain ⟨before, name, after, -, -, -, he⟩ := hrepeated
    have hname : (ofEntries [("b", .list []), ("a", .list []), ("b", .single (.bool true))]).map
        Record.names = .error (.duplicate "b") := by decide
    rw [he] at hname
    cases hname
    exact he

end SimCampaign.Param.Space
