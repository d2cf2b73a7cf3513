import Mathlib.Data.List.Induction
import SimCampaign.Storage.Path

/-! Where the path of a name in a folder leads, and through which folders. -/

namespace SimCampaign.Path

/-- A name that is one part of a path and stands for itself. -/
structure Plain (name : String) : Prop where
  ne_empty : name ≠ ""
  no_slash : '/' ∉ name.toList
  ne_dot : name ≠ "."
  ne_dots : name ≠ ".."

instance (name : String) : Decidable (Plain name) :=
  decidable_of_iff (name ≠ "" ∧ '/' ∉ name.toList ∧ name ≠ "." ∧ name ≠ "..")
    ⟨fun ⟨h₁, h₂, h₃, h₄⟩ => ⟨h₁, h₂, h₃, h₄⟩, fun h => ⟨h.1, h.2, h.3, h.4⟩⟩

variable {name p a : String}

namespace Plain

theorem not_isAbsolute (h : Plain name) : isAbsolute name = false := by
  rw [isAbsolute, Bool.eq_false_iff, ne_eq, String.startsWith_string_iff]
  rintro ⟨rest, hr⟩
  refine h.no_slash ?_
  rw [← hr]
  exact List.mem_cons_self ..

theorem splitOnP_toList (h : Plain name) : name.toList.splitOnP (· == '/') = [name.toList] := by
  refine List.splitOnP_eq_singleton ?_
  intro c hc
  refine beq_eq_false_iff_ne.2 ?_
  rintro rfl
  exact h.no_slash hc

theorem pieces_eq (h : Plain name) : pieces name = [name] := by
  rw [pieces, h.splitOnP_toList]
  simp

end Plain

theorem pieces_append_slash (a b : String) : pieces (a ++ "/" ++ b) = pieces a ++ pieces b := by
  have ht : (a ++ "/" ++ b).toList = a.toList ++ '/' :: b.toList := by simp
  have hs : (a.toList ++ '/' :: b.toList).splitOnP (· == '/') =
      a.toList.splitOnP (· == '/') ++ b.toList.splitOnP (· == '/') :=
    List.splitOnP_append_cons _ _ (beq_self_eq_true '/')
  rw [pieces, ht, hs, List.map_append]
  rfl

theorem isAbsolute_append (h : a ≠ "") (b : String) : isAbsolute (a ++ b) = isAbsolute a := by
  have hne : a.toList ≠ [] := by simpa using h
  obtain ⟨c, cs, hc⟩ := List.exists_cons_of_ne_nil hne
  rw [isAbsolute, isAbsolute, Bool.eq_iff_iff, String.startsWith_string_iff,
    String.startsWith_string_iff]
  simp [hc]

section Way
variable {q : Location} {c : String} {cs : List String}

theorem wayFrom_concat (q : Location) (cs : List String) (c : String) :
    wayFrom q (cs ++ [c]) = wayFrom q cs ++ [step (cs.foldl step q) c] := by
  induction cs generalizing q with
  | nil => rfl
  | cons d cs ih =>
    rw [List.cons_append, wayFrom, ih]
    rfl

theorem foldl_step_mem_wayFrom (q : Location) (cs : List String) :
    cs.foldl step q ∈ wayFrom q cs := by
  induction cs generalizing q with
  | nil => exact List.mem_singleton_self q
  | cons d cs ih => exact List.mem_cons_of_mem _ (ih (step q d))

theorem resolve_mem_way (p : String) : resolve p ∈ way p := foldl_step_mem_wayFrom _ _

theorem step_plain (hn : Plain name) (q : Location) : step q name = q ++ [name] := by
  have hp : ¬ (name = "" ∨ name = ".") := by simp [hn.ne_empty, hn.ne_dot]
  rw [step, if_neg hp, if_neg hn.ne_dots]

/-- Where one part leads is again in the folder that the part starts from, or that one itself, or
the one above it. -/
theorem step_cases (q : Location) (c : String) :
    step q c = q ∨ step q c = q.dropLast ∨ (step q c).dropLast = q := by
  rw [step]
  split
  · exact .inl rfl
  split
  · split
    · exact .inl rfl
    split
    · exact .inr (.inr List.dropLast_concat)
    · exact .inr (.inl rfl)
  · exact .inr (.inr List.dropLast_concat)

theorem dropLast_start (p : String) : (start p).dropLast = [] := by
  rw [start]
  split <;> rfl

theorem prefix_step (h : c ≠ "..") (q : Location) : q <+: step q c := by
  rw [step, if_neg h]
  split
  · exact List.prefix_refl q
  · exact List.prefix_append q _

theorem prefix_foldl_step (h : ".." ∉ cs) (q : Location) :
    ∀ r ∈ wayFrom q cs, r <+: cs.foldl step q := by
  induction cs generalizing q with
  | nil =>
    intro r hr
    rw [List.mem_singleton.1 hr]
    exact List.prefix_refl q
  | cons c cs ih =>
    obtain ⟨hc, hcs⟩ := not_or.1 (mt List.mem_cons.2 h)
    have ih := ih hcs (step q c)
    intro r hr
    rcases List.mem_cons.1 hr with rfl | hr
    · exact (prefix_step (Ne.symm hc) r).trans (ih _ (by cases cs <;> exact List.mem_cons_self ..))
    · exact ih r hr

theorem prefix_resolve (h : ".." ∉ pieces p) {q : Location} (hq : q ∈ way p) : q <+: resolve p :=
  prefix_foldl_step h _ q hq

end Way

section Join

theorem pieces_slash_end (b : String) : pieces (b ++ "/") = pieces b ++ [""] := by
  have he : b ++ "/" = b ++ "/" ++ "" := by simp
  rw [he, pieces_append_slash]
  simp [pieces]

theorem start_append (h : a ≠ "") (b : String) : start (a ++ b) = start a := by
  rw [start, start, isAbsolute_append h]

theorem join_plain (a : String) (hn : Plain name) :
    join a name = if a = "" ∨ a.toList.getLast? = some '/' then a ++ name else a ++ "/" ++ name := by
  have hr : ¬ name.startsWith "/" = true := by
    rw [← isAbsolute, hn.not_isAbsolute]
    simp
  rw [join, if_neg hr]

theorem exists_slash_end (h : a.toList.getLast? = some '/') : ∃ b, a = b ++ "/" := by
  obtain ⟨cs, hc⟩ := List.getLast?_eq_some_iff.1 h
  refine ⟨String.ofList cs, String.toList_injective ?_⟩
  simp [hc]

theorem exists_pieces_join (a : String) (hn : Plain name) :
    ∃ cs, pieces (join a name) = cs ++ [name] := by
  rw [join_plain a hn]
  split
  next h =>
    rcases h with rfl | h
    · exact ⟨[], by rw [String.empty_append, hn.pieces_eq]; rfl⟩
    · obtain ⟨b, rfl⟩ := exists_slash_end h
      exact ⟨pieces b, by rw [pieces_append_slash, hn.pieces_eq]⟩
  next => exact ⟨pieces a, by rw [pieces_append_slash, hn.pieces_eq]⟩

theorem exists_way_join (a : String) (hn : Plain name) :
    ∃ qs, way (join a name) = qs ++ [resolve a ++ [name]] ∧ ∀ q, q ∈ qs ↔ q ∈ way a := by
  rw [join_plain a hn]
  by_cases ha : a = ""
  · subst ha
    have hw : way "" = [[], []] := by decide
    have hstart : start name = [] := by simp [start, hn.not_isAbsolute]
    refine ⟨[[]], ?_, fun q => by simp [hw]⟩
    rw [if_pos (.inl rfl), String.empty_append, way, hstart, hn.pieces_eq, wayFrom, wayFrom,
      step_plain hn]
    rfl
  by_cases hs : a.toList.getLast? = some '/'
  · obtain ⟨b, rfl⟩ := exists_slash_end hs
    -- A slash at the end passes through the folder once more.
    have hw : way (b ++ "/") = wayFrom (start (b ++ "/")) (pieces b) ++ [resolve (b ++ "/")] := by
      rw [way, resolve, pieces_slash_end, wayFrom_concat, List.foldl_append]
      rfl
    have hres : resolve (b ++ "/") = (pieces b).foldl step (start (b ++ "/")) := by
      rw [resolve, pieces_slash_end, List.foldl_append]
      rfl
    refine ⟨wayFrom (start (b ++ "/")) (pieces b), ?_, fun q => ?_⟩
    · rw [if_pos (.inr hs), way, start_append ha, pieces_append_slash, hn.pieces_eq, wayFrom_concat,
        step_plain hn, hres]
    · rw [hw, List.mem_append, List.mem_singleton]
      refine (or_iff_left_of_imp ?_).symm
      rintro rfl
      exact hres ▸ foldl_step_mem_wayFrom _ _
  · refine ⟨way a, ?_, fun q => Iff.rfl⟩
    have hstart : start (a ++ "/" ++ name) = start a := by
      rw [String.append_assoc, start_append ha]
    rw [if_neg (by simp [ha, hs]), way, hstart, pieces_append_slash, hn.pieces_eq, wayFrom_concat,
      step_plain hn]
    rfl

theorem resolve_eq_getLast (p : String) : (way p).getLast? = some (resolve p) := by
  have h (q : Location) (cs : List String) : (wayFrom q cs).getLast? = some (cs.foldl step q) := by
    induction cs using List.reverseRecOn with
    | nil => rfl
    | append_singleton cs c ih =>
      rw [wayFrom_concat, List.getLast?_concat, List.foldl_append]
      rfl
  exact h _ _

theorem resolve_join_plain (a : String) (hn : Plain name) :
    resolve (join a name) = resolve a ++ [name] := by
  obtain ⟨qs, hqs, -⟩ := exists_way_join a hn
  have hl := resolve_eq_getLast (join a name)
  rw [hqs, List.getLast?_concat] at hl
  exact (Option.some.inj hl).symm

theorem mem_dropLast_way_join (a : String) (hn : Plain name) {q : Location} :
    q ∈ (way (join a name)).dropLast ↔ q ∈ way a := by
  obtain ⟨qs, hqs, hmem⟩ := exists_way_join a hn
  rw [hqs, List.dropLast_concat, hmem]

theorem mem_way_join (a : String) (hn : Plain name) {q : Location} :
    q ∈ way (join a name) ↔ q ∈ way a ∨ q = resolve a ++ [name] := by
  obtain ⟨qs, hqs, hmem⟩ := exists_way_join a hn
  rw [hqs, List.mem_append, hmem, List.mem_singleton]

end Join

end SimCampaign.Path
