import Mathlib.Data.List.Basic
import PathQuery.Text.Word
/-!
# Laws of joined text

What the operations on text do to characters: cutting off a head or an end undoes an appending, and the
parts of a joined text stand in it one after the other.
-/

namespace PathQuery.Text

theorem afterHead?_eq_some_iff {head text rest : String} :
    afterHead? head text = some rest ↔ text = head ++ rest := by
  rw [afterHead?, Option.map_eq_some_iff]
  constructor
  · rintro ⟨cs, hcs, rfl⟩
    rw [List.isPrefixOf?_eq_some_iff_append_eq] at hcs
    rw [← String.toList_inj, String.toList_append, String.toList_ofList, hcs]
  · rintro rfl
    refine ⟨rest.toList, ?_, String.ofList_toList⟩
    rw [List.isPrefixOf?_eq_some_iff_append_eq, String.toList_append]

theorem beforeEnd?_eq_some_iff {ending text stem : String} :
    beforeEnd? ending text = some stem ↔ text = stem ++ ending := by
  rw [beforeEnd?, Option.map_eq_some_iff]
  constructor
  · rintro ⟨cs, hcs, rfl⟩
    rw [List.isSuffixOf?_eq_some_iff_append_eq] at hcs
    rw [← String.toList_inj, String.toList_append, String.toList_ofList, hcs]
  · rintro rfl
    refine ⟨stem.toList, ?_, String.ofList_toList⟩
    rw [List.isSuffixOf?_eq_some_iff_append_eq, String.toList_append]

theorem beforeEnd?_eq_none_iff {ending text : String} :
    beforeEnd? ending text = none ↔ ∀ stem, text ≠ stem ++ ending := by
  rw [Option.eq_none_iff_forall_ne_some]
  exact forall_congr' fun stem => not_congr beforeEnd?_eq_some_iff

/-! ### Joined parts -/

theorem joinWith_cons (separator part : String) {rest : List String} (hrest : rest ≠ []) :
    joinWith separator (part :: rest) = part ++ separator ++ joinWith separator rest := by
  cases rest with
  | nil => exact absurd rfl hrest
  | cons next rest => rfl

@[simp] theorem joinWith_singleton (separator part : String) : joinWith separator [part] = part := rfl

/-- Parts that are joined by nothing stand directly behind one another. -/
theorem joinWith_empty_cons (part : String) (rest : List String) :
    joinWith "" (part :: rest) = part ++ joinWith "" rest := by
  cases rest with
  | nil => exact String.append_empty.symm
  | cons next rest => rw [joinWith_cons "" part (List.cons_ne_nil next rest), String.append_empty]

theorem repeated_succ (n : Nat) (piece : String) : repeated (n + 1) piece = piece :: repeated n piece := rfl

theorem joinWith_repeated_succ (separator piece : String) (n : Nat) :
    joinWith separator (repeated (n + 2) piece) =
      piece ++ separator ++ joinWith separator (repeated (n + 1) piece) := rfl

/-- In front of a piece stand the pieces before it, each with its separator. -/
theorem joinWith_repeated (separator piece : String) {k n : Nat} (h : k < n) :
    ∃ back, joinWith separator (repeated n piece) =
      joinWith "" (repeated k (piece ++ separator)) ++ piece ++ back := by
  obtain ⟨n, rfl⟩ : ∃ m, n = m + 1 := ⟨n - 1, by omega⟩
  induction k generalizing n with
  | zero =>
    cases n with
    | zero => exact ⟨"", by simp [repeated, joinWith]⟩
    | succ n =>
      rw [joinWith_repeated_succ]
      refine ⟨separator ++ joinWith separator (repeated (n + 1) piece), ?_⟩
      simp only [repeated, List.replicate_zero, joinWith, String.empty_append, String.append_assoc]
  | succ k ih =>
    obtain ⟨n, rfl⟩ : ∃ m, n = m + 1 := ⟨n - 1, by omega⟩
    obtain ⟨back, hback⟩ := ih n (by omega)
    refine ⟨back, ?_⟩
    rw [joinWith_repeated_succ, hback, repeated_succ k, joinWith_empty_cons]
    simp only [String.append_assoc]

/-- A part that is not empty stands in the joined text. -/
theorem joinWith_ne_empty_of_mem (separator : String) {parts : List String} {part : String}
    (hpart : part ∈ parts) (hne : part ≠ "") : joinWith separator parts ≠ "" := by
  induction parts with
  | nil => cases hpart
  | cons first rest ih =>
    by_cases hrest : rest = []
    · rw [hrest, List.mem_singleton] at hpart
      rw [hrest, joinWith_singleton, ← hpart]
      exact hne
    · rw [joinWith_cons separator first hrest]
      intro hempty
      obtain ⟨hfirst, hjoined⟩ := String.append_eq_empty_iff.1 hempty
      rcases List.mem_cons.1 hpart with rfl | hpart
      · exact hne (String.append_eq_empty_iff.1 hfirst).1
      · exact ih hpart hjoined

theorem joinWith_ne_empty (separator : String) {parts : List String} (hparts : parts ≠ [])
    (hne : ∀ part ∈ parts, part ≠ "") : joinWith separator parts ≠ "" := by
  obtain ⟨part, hpart⟩ := List.exists_mem_of_ne_nil parts hparts
  exact joinWith_ne_empty_of_mem separator hpart (hne part hpart)

/-- The characters of joined parts are those of the parts and the separators. -/
theorem mem_joinWith {separator : String} {parts : List String} {c : Char}
    (h : c ∈ (joinWith separator parts).toList) :
    c ∈ separator.toList ∨ ∃ part ∈ parts, c ∈ part.toList := by
  induction parts with
  | nil => cases h
  | cons part rest ih =>
    cases rest with
    | nil => exact .inr ⟨part, List.mem_cons_self, h⟩
    | cons next rest =>
      simp only [joinWith, String.toList_append, List.mem_append] at h
      rcases h with (hpart | hseparator) | hrest
      · exact .inr ⟨part, List.mem_cons_self, hpart⟩
      · exact .inl hseparator
      · exact (ih hrest).imp_right fun ⟨other, hother, hc⟩ => ⟨other, List.mem_cons_of_mem part hother, hc⟩

/-- Two parts that lack a mark end at its first occurrence. -/
theorem append_mark_inj {mark : Char} {a b rest rest' : List Char} (ha : mark ∉ a) (hb : mark ∉ b)
    (h : a ++ mark :: rest = b ++ mark :: rest') : a = b ∧ rest = rest' := by
  rcases List.append_eq_append_iff.1 h with ⟨c, rfl, hc⟩ | ⟨c, rfl, hc⟩
  · cases c with
    | nil => simpa using hc
    | cons d c =>
      cases hc
      exact absurd (by simp) hb
  · cases c with
    | nil => simpa [eq_comm] using hc
    | cons d c =>
      cases hc
      exact absurd (by simp) ha

theorem toList_joinWith_dot (part : String) {rest : List String} (hrest : rest ≠ []) :
    (joinWith "." (part :: rest)).toList = part.toList ++ '.' :: (joinWith "." rest).toList := by
  simp [joinWith_cons "." part hrest]

/-- Parts without dots can be read back from the text that joins them by dots. -/
theorem joinWith_dot_inj {a b : List String} (ha : ∀ part ∈ a, part ≠ "" ∧ '.' ∉ part.toList)
    (hb : ∀ part ∈ b, part ≠ "" ∧ '.' ∉ part.toList) (h : joinWith "." a = joinWith "." b) : a = b := by
  -- A single part lacks the dot that stands behind the first of several.
  have hsingle : ∀ (part first : String) {rest : List String}, '.' ∉ part.toList → rest ≠ [] →
      part ≠ joinWith "." (first :: rest) := by
    intro part first rest hpart hrest heq
    rw [heq, toList_joinWith_dot first hrest] at hpart
    exact hpart (List.mem_append_right _ List.mem_cons_self)
  induction a generalizing b with
  | nil =>
    by_contra hne
    exact joinWith_ne_empty "." (Ne.symm hne) (fun part hpart => (hb part hpart).1) h.symm
  | cons first rest ih =>
    obtain ⟨hfirst, hrest⟩ := List.forall_mem_cons.1 ha
    cases b with
    | nil => exact absurd h (joinWith_ne_empty "." (List.cons_ne_nil _ _) fun part hpart => (ha part hpart).1)
    | cons other others =>
      obtain ⟨hother, hothers⟩ := List.forall_mem_cons.1 hb
      by_cases hnil : rest = [] <;> by_cases hnil' : others = []
      · rw [hnil, hnil'] at h ⊢
        exact congrArg (fun part => [part]) h
      · rw [hnil] at h
        exact absurd h (hsingle first other hfirst.2 hnil')
      · rw [hnil'] at h
        exact absurd h.symm (hsingle other first hother.2 hnil)
      · rw [← String.toList_inj, toList_joinWith_dot first hnil, toList_joinWith_dot other hnil'] at h
        obtain ⟨hsame, hjoined⟩ := append_mark_inj hfirst.2 hother.2 h
        rw [String.toList_inj.1 hsame, ih hrest hothers (String.toList_inj.1 hjoined)]

theorem isDigit_of_mem_toString {n : Nat} {c : Char} (h : c ∈ (toString n).toList) : c.isDigit := by
  rw [Nat.toString_eq_ofList_toDigits, String.toList_ofList] at h
  exact Nat.isDigit_of_mem_toDigits (by decide) (by decide) h

theorem dot_not_mem_numbered {word : String} (hword : '.' ∉ word.toList) (n : Nat) :
    '.' ∉ (word ++ toString n).toList := by
  rw [String.toList_append, List.mem_append]
  exact not_or.2 ⟨hword, fun hdot => Bool.noConfusion (isDigit_of_mem_toString hdot)⟩

/-! ### Words -/

/-- Names of tables, columns and functions: not empty, and made of word characters only. -/
def IsWord (s : String) : Prop :=
  s ≠ "" ∧ ∀ c ∈ s.toList, isWordChar c

instance (s : String) : Decidable (IsWord s) :=
  have := List.decidableBAll (fun c => isWordChar c = true) s.toList
  inferInstanceAs (Decidable (_ ∧ _))

theorem isWord_ofList {cs : List Char} :
    IsWord (String.ofList cs) ↔ cs ≠ [] ∧ ∀ c ∈ cs, isWordChar c := by
  rw [IsWord, String.toList_ofList, ne_eq, ne_eq, ← String.toList_eq_nil_iff, String.toList_ofList]

/-! ### Last characters -/

theorem endsWithChar_append (c : Char) (s : String) {t : String} (ht : t ≠ "") :
    endsWithChar c (s ++ t) = endsWithChar c t := by
  have hlast : t.toList.getLast?.isSome := by
    rw [List.getLast?_isSome, ne_eq, String.toList_eq_nil_iff]
    exact ht
  obtain ⟨last, hlast⟩ := Option.isSome_iff_exists.1 hlast
  rw [endsWithChar, endsWithChar, String.toList_append, List.getLast?_append, hlast]
  rfl

theorem IsWord.endsWithChar {s : String} (hs : IsWord s) {c : Char} (hc : isWordChar c = false) :
    endsWithChar c s = false := by
  rw [Text.endsWithChar, beq_eq_false_iff_ne]
  intro hlast
  have hword := hs.2 c (List.mem_of_getLast? hlast)
  rw [hc] at hword
  cases hword

end PathQuery.Text
