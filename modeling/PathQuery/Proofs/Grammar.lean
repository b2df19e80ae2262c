import Mathlib.Data.List.TakeWhile
import PathQuery.Fragment
import PathQuery.Proofs.Text
/-!
# Reading is the inverse of spelling

`Fragment.parse?` gives a fragment exactly when it is well formed and its text is the one that is read.
Well formed means that functions and the steps of the path are words, that the operator of a comparison
is made of operator characters, and that a label is a word other than the two directions, which are
read as sort directions.

Each reader has two lemmas: what it gives back spells what it took, and a spelling that is followed by
something that cannot continue it is read in full.
-/

namespace PathQuery

open Text (IsWord joinWith)

def Tail.Valid : Tail → Prop
  | .label name => IsWord name ∧ name ≠ "ASC" ∧ name ≠ "DESC"
  | .comparison operator => operator ≠ "" ∧ ∀ c ∈ operator.toList, Fragment.isOperatorChar c
  | _ => True

namespace Fragment

structure Valid (f : Fragment) : Prop where
  functions : ∀ function ∈ f.functions, IsWord function
  path_ne : f.path ≠ []
  path : ∀ step ∈ f.path, IsWord step
  tail : ∀ tail ∈ f.tail, tail.Valid

/-! ### Words -/

/-- What follows a word when it does not continue it. -/
def Stops (rest : List Char) : Prop :=
  ∀ c ∈ rest.head?, Text.isWordChar c = false

theorem word_append {w : String} {rest : List Char} (hw : IsWord w) (hrest : Stops rest) :
    word (w.toList ++ rest) = w.toList := by
  rw [word, List.takeWhile_append_of_pos hw.2]
  cases rest with
  | nil => simp
  | cons c rest =>
    have hc := hrest c rfl
    simp [hc]

theorem afterWord_append {w : String} {rest : List Char} (hw : IsWord w) (hrest : Stops rest) :
    afterWord (w.toList ++ rest) = rest := by
  rw [afterWord, List.dropWhile_append_of_pos hw.2]
  cases rest with
  | nil => simp
  | cons c rest =>
    have hc := hrest c rfl
    simp [hc]

theorem word_append_afterWord (cs : List Char) : word cs ++ afterWord cs = cs :=
  List.takeWhile_append_dropWhile

theorem isWord_word {cs : List Char} (h : word cs ≠ []) : IsWord (String.ofList (word cs)) :=
  Text.isWord_ofList.2 ⟨h, fun _ hc => List.mem_takeWhile_imp hc⟩

/-! ### Calls -/

theorem readFunctions_call {cs rest : List Char} (hword : word cs ≠ [])
    (hafter : afterWord cs = '(' :: rest) :
    readFunctions cs =
      (String.ofList (word cs) :: (readFunctions rest).1, (readFunctions rest).2) := by
  rw [readFunctions]
  split
  · rename_i r hr
    rw [hafter] at hr
    cases hr
    rw [if_neg hword]
  · rename_i hnot
    exact absurd hafter (hnot rest)

theorem readFunctions_stop {cs : List Char}
    (h : ∀ rest, afterWord cs = '(' :: rest → word cs = []) : readFunctions cs = ([], cs) := by
  rw [readFunctions]
  split
  · rename_i rest hrest
    rw [if_pos (h rest hrest)]
  · rfl

theorem readFunctions_sound {cs rest : List Char} {functions : List String}
    (h : readFunctions cs = (functions, rest)) :
    (∀ function ∈ functions, IsWord function) ∧
      (joinWith "" (functions.map (· ++ "("))).toList ++ rest = cs := by
  fun_induction readFunctions cs generalizing functions with
  | case1 cs after hafter hword =>
    cases h
    simp [joinWith]
  | case2 cs after hafter hword inner last hinner ih =>
    cases h
    obtain ⟨hwords, htext⟩ := ih hinner
    refine ⟨?_, ?_⟩
    · intro function hfunction
      rcases List.mem_cons.1 hfunction with rfl | hfunction
      · exact isWord_word hword
      · exact hwords function hfunction
    · rw [List.map_cons, Text.joinWith_empty_cons, String.toList_append, String.toList_append,
        String.toList_ofList, List.append_assoc, htext, List.append_assoc]
      exact (congrArg (word cs ++ ·) hafter.symm).trans (word_append_afterWord cs)
  | case3 cs hcs =>
    cases h
    simp [joinWith]

theorem readFunctions_append {functions : List String} {rest : List Char}
    (hwords : ∀ function ∈ functions, IsWord function)
    (hrest : readFunctions rest = ([], rest)) :
    readFunctions ((joinWith "" (functions.map (· ++ "("))).toList ++ rest) = (functions, rest) := by
  induction functions with
  | nil => exact hrest
  | cons function functions ih =>
    have hword := hwords function List.mem_cons_self
    have hinner := ih fun f hf => hwords f (List.mem_cons_of_mem _ hf)
    have hstops : Stops ('(' :: ((joinWith "" (functions.map (· ++ "("))).toList ++ rest)) := by
      intro c hc
      cases hc
      rfl
    rw [List.map_cons, Text.joinWith_empty_cons, String.toList_append, String.toList_append,
      List.append_assoc, List.append_assoc]
    change readFunctions (function.toList ++
      '(' :: ((joinWith "" (functions.map (· ++ "("))).toList ++ rest)) = _
    have hne : word (function.toList ++
        '(' :: ((joinWith "" (functions.map (· ++ "("))).toList ++ rest)) ≠ [] := by
      rw [word_append hword hstops, ne_eq, String.toList_eq_nil_iff]
      exact hword.1
    rw [readFunctions_call hne (afterWord_append hword hstops), word_append hword hstops, hinner,
      String.ofList_toList]

/-! ### Paths -/

theorem readPath?_dot {cs rest : List Char} (hword : word cs ≠ [])
    (hafter : afterWord cs = '.' :: rest) {path : List String} {after : List Char}
    (hrest : readPath? rest = some (path, after)) :
    readPath? cs = some (String.ofList (word cs) :: path, after) := by
  rw [readPath?, if_neg hword]
  split
  · rename_i r hr
    rw [hafter] at hr
    cases hr
    rw [hrest]
  · rename_i hnot
    exact absurd hafter (hnot rest)

theorem readPath?_last {cs : List Char} (hword : word cs ≠ [])
    (hafter : ∀ rest, afterWord cs ≠ '.' :: rest) :
    readPath? cs = some ([String.ofList (word cs)], afterWord cs) := by
  rw [readPath?, if_neg hword]
  split
  · rename_i rest hrest
    exact absurd hrest (hafter rest)
  · rfl

theorem readPath?_sound {cs rest : List Char} {path : List String}
    (h : readPath? cs = some (path, rest)) :
    path ≠ [] ∧ (∀ step ∈ path, IsWord step) ∧ (joinWith "." path).toList ++ rest = cs := by
  fun_induction readPath? cs generalizing path rest with
  | case1 => cases h
  | case2 cs hword after hafter inner last hinner ih =>
    cases h
    obtain ⟨hne, hwords, htext⟩ := ih hinner
    refine ⟨List.cons_ne_nil _ _, ?_, ?_⟩
    · intro step hstep
      rcases List.mem_cons.1 hstep with rfl | hstep
      · exact isWord_word hword
      · exact hwords step hstep
    · rw [Text.joinWith_cons "." _ hne, String.toList_append, String.toList_append,
        String.toList_ofList, List.append_assoc, htext, List.append_assoc]
      exact (congrArg (word cs ++ ·) hafter.symm).trans (word_append_afterWord cs)
  | case3 cs hword after hafter hnone ih =>
    cases h
    refine ⟨List.cons_ne_nil _ _, ?_, ?_⟩
    · intro step hstep
      rw [List.mem_singleton.1 hstep]
      exact isWord_word hword
    · rw [Text.joinWith_singleton, String.toList_ofList, ← hafter, word_append_afterWord]
  | case4 cs hword hafter =>
    cases h
    refine ⟨List.cons_ne_nil _ _, ?_, ?_⟩
    · intro step hstep
      rw [List.mem_singleton.1 hstep]
      exact isWord_word hword
    · rw [Text.joinWith_singleton, String.toList_ofList, word_append_afterWord]

/-- What follows a path: nothing, a closing parenthesis or a blank. -/
def Closes (rest : List Char) : Prop :=
  ∀ c ∈ rest.head?, c = ')' ∨ c = ' '

theorem Closes.stops {rest : List Char} (h : Closes rest) : Stops rest := by
  intro c hc
  rcases h c hc with rfl | rfl <;> rfl

theorem Closes.ne_cons {rest after : List Char} (h : Closes rest) {c : Char} (hc : c ≠ ')')
    (hblank : c ≠ ' ') : rest ≠ c :: after := by
  rintro rfl
  rcases h c rfl with rfl | rfl
  · exact hc rfl
  · exact hblank rfl

theorem word_append_ne {w : String} {rest : List Char} (hw : IsWord w) (hrest : Stops rest) :
    word (w.toList ++ rest) ≠ [] := by
  rw [word_append hw hrest, ne_eq, String.toList_eq_nil_iff]
  exact hw.1

theorem readPath?_append {path : List String} {rest : List Char} (hne : path ≠ [])
    (hwords : ∀ step ∈ path, IsWord step) (hrest : Closes rest) :
    readPath? ((joinWith "." path).toList ++ rest) = some (path, rest) := by
  induction path with
  | nil => exact absurd rfl hne
  | cons step path ih =>
    have hword := hwords step List.mem_cons_self
    cases path with
    | nil =>
      have hlast : ∀ after, afterWord (step.toList ++ rest) ≠ '.' :: after := by
        intro after
        rw [afterWord_append hword hrest.stops]
        exact hrest.ne_cons (by decide) (by decide)
      rw [Text.joinWith_singleton, readPath?_last (word_append_ne hword hrest.stops) hlast,
        word_append hword hrest.stops, afterWord_append hword hrest.stops, String.ofList_toList]
    | cons next path =>
      have hinner := ih (List.cons_ne_nil _ _) fun w hw => hwords w (List.mem_cons_of_mem _ hw)
      have hstops : Stops ('.' :: ((joinWith "." (next :: path)).toList ++ rest)) := by
        intro c hc
        cases hc
        rfl
      have hsplit : (joinWith "." (step :: next :: path)).toList ++ rest =
          step.toList ++ '.' :: ((joinWith "." (next :: path)).toList ++ rest) := by
        rw [Text.joinWith_cons "." step (List.cons_ne_nil _ _), String.toList_append,
          String.toList_append, List.append_assoc, List.append_assoc]
        rfl
      rw [hsplit, readPath?_dot (word_append_ne hword hstops) (afterWord_append hword hstops) hinner,
        word_append hword hstops, String.ofList_toList]

theorem readFunctions_path {path : List String} {rest : List Char} (hne : path ≠ [])
    (hwords : ∀ step ∈ path, IsWord step) (hrest : Closes rest) :
    readFunctions ((joinWith "." path).toList ++ rest) = ([], (joinWith "." path).toList ++ rest) := by
  refine readFunctions_stop fun after hafter => ?_
  obtain ⟨step, path, rfl⟩ := List.exists_cons_of_ne_nil hne
  have hword := hwords step List.mem_cons_self
  exfalso
  cases path with
  | nil =>
    rw [Text.joinWith_singleton, afterWord_append hword hrest.stops] at hafter
    exact hrest.ne_cons (by decide) (by decide) hafter
  | cons next path =>
    rw [Text.joinWith_cons "." step (List.cons_ne_nil _ _), String.toList_append,
      String.toList_append, List.append_assoc, List.append_assoc,
      afterWord_append hword (by intro c hc; cases hc; rfl)] at hafter
    cases hafter

/-! ### Tails -/

theorem readOneOf?_eq_some_iff {negated : Bool} {cs : List Char} {tail : Tail} :
    readOneOf? negated cs = some tail ↔
      ∃ items, tail = .oneOf negated items ∧ tail.text.toList = cs := by
  rw [readOneOf?, Option.map_eq_some_iff]
  constructor
  · rintro ⟨items, hitems, rfl⟩
    refine ⟨_, rfl, ?_⟩
    rw [List.isPrefixOf?_eq_some_iff_append_eq] at hitems
    rw [← hitems]
    simp [Tail.text]
  · rintro ⟨items, rfl, rfl⟩
    refine ⟨items.toList, ?_, by rw [String.ofList_toList]⟩
    rw [List.isPrefixOf?_eq_some_iff_append_eq]
    simp [Tail.text]

theorem readFixed?_sound {cs : List Char} {tail : Tail} (h : readFixed? cs = some tail) :
    tail ∈ fixedTails ∧ tail.text.toList = cs :=
  ⟨List.mem_of_find?_eq_some h, by simpa using List.find?_some h⟩

theorem readComparison?_eq_some_iff {cs : List Char} {tail : Tail} :
    readComparison? cs = some tail ↔
      ∃ operator, tail = .comparison operator ∧ tail.Valid ∧ tail.text.toList = cs := by
  simp only [readComparison?]
  constructor
  · intro h
    split at h
    · rename_i hop
      cases h
      refine ⟨_, rfl, ⟨?_, ?_⟩, ?_⟩
      · rw [ne_eq, ← String.toList_eq_nil_iff, String.toList_ofList]
        exact hop.1
      · intro c hc
        rw [String.toList_ofList] at hc
        exact List.mem_takeWhile_imp hc
      · rw [Tail.text, String.toList_append, String.toList_ofList, ← hop.2,
          List.takeWhile_append_dropWhile]
    · cases h
  · rintro ⟨operator, rfl, ⟨hne, hchars⟩, rfl⟩
    have htake : (operator.toList ++ " %s".toList).takeWhile isOperatorChar = operator.toList := by
      rw [List.takeWhile_append_of_pos hchars]
      exact List.append_nil _
    have hdrop : (operator.toList ++ " %s".toList).dropWhile isOperatorChar = " %s".toList :=
      List.dropWhile_append_of_pos hchars
    rw [Tail.text, String.toList_append, htake, hdrop, String.ofList_toList]
    exact if_pos ⟨mt String.toList_eq_nil_iff.1 hne, rfl⟩

theorem readLabel?_eq_some_iff {cs : List Char} {tail : Tail} :
    readLabel? cs = some tail ↔ ∃ name, tail = .label name ∧ IsWord name ∧ name.toList = cs := by
  rw [readLabel?]
  constructor
  · intro h
    split at h
    · rename_i hcs
      cases h
      refine ⟨_, rfl, Text.isWord_ofList.2 ⟨hcs.1, ?_⟩, String.toList_ofList⟩
      exact List.dropWhile_eq_nil_iff.1 hcs.2
    · cases h
  · rintro ⟨name, rfl, ⟨hne, hchars⟩, rfl⟩
    rw [String.ofList_toList]
    exact if_pos ⟨mt String.toList_eq_nil_iff.1 hne, List.dropWhile_eq_nil_iff.2 hchars⟩

theorem readTail?_eq {cs : List Char} : readTail? cs =
    (readOneOf? false cs).or ((readOneOf? true cs).or ((readFixed? cs).or
      ((readComparison? cs).or (readLabel? cs)))) := by
  simp [readTail?]

theorem mem_fixedTails {tail : Tail} : tail ∈ fixedTails ↔
    (∃ negated, tail = .nullCheck negated) ∨ tail = .like ∨
      ∃ descending nulls, tail = .ordering descending nulls := by
  constructor
  · intro h
    simp only [fixedTails, List.flatMap_cons, List.flatMap_nil, List.cons_append, List.nil_append,
      List.mem_cons, List.not_mem_nil, or_false] at h
    rcases h with rfl | rfl | rfl | rfl | rfl | rfl | rfl | rfl | rfl <;> simp
  · rintro (⟨negated, rfl⟩ | rfl | ⟨descending, nulls, rfl⟩)
    · cases negated <;> decide
    · decide
    · cases descending <;> rcases nulls with _ | (_ | _) <;> decide

theorem fixedTails_valid {tail : Tail} (h : tail ∈ fixedTails) : tail.Valid := by
  rcases mem_fixedTails.1 h with ⟨negated, rfl⟩ | rfl | ⟨descending, nulls, rfl⟩ <;> trivial

theorem readTail?_sound {cs : List Char} {tail : Tail} (h : readTail? cs = some tail) :
    tail.Valid ∧ tail.text.toList = cs := by
  rw [readTail?_eq] at h
  simp only [Option.or_eq_some_iff] at h
  rcases h with h | ⟨-, h | ⟨-, h | ⟨hfixed, h | ⟨-, h⟩⟩⟩⟩
  · obtain ⟨items, rfl, htext⟩ := readOneOf?_eq_some_iff.1 h
    exact ⟨trivial, htext⟩
  · obtain ⟨items, rfl, htext⟩ := readOneOf?_eq_some_iff.1 h
    exact ⟨trivial, htext⟩
  · obtain ⟨hmem, htext⟩ := readFixed?_sound h
    exact ⟨fixedTails_valid hmem, htext⟩
  · obtain ⟨operator, rfl, hvalid, htext⟩ := readComparison?_eq_some_iff.1 h
    exact ⟨hvalid, htext⟩
  · obtain ⟨name, rfl, hword, rfl⟩ := readLabel?_eq_some_iff.1 h
    refine ⟨⟨hword, ?_, ?_⟩, rfl⟩
    · rintro rfl
      exact absurd hfixed (by decide)
    · rintro rfl
      exact absurd hfixed (by decide)

theorem readTail?_fixed {tail : Tail} (h : tail ∈ fixedTails) :
    readTail? tail.text.toList = some tail := by
  rcases mem_fixedTails.1 h with ⟨negated, rfl⟩ | rfl | ⟨descending, nulls, rfl⟩
  · cases negated <;> decide
  · decide
  · cases descending <;> rcases nulls with _ | (_ | _) <;> decide

/-- A check for null ends differently from a comparison, all other fixed tails begin differently. -/
theorem fixedTails_ends {tail : Tail} (h : tail ∈ fixedTails) :
    tail.text.toList.getLast? = some 'l' ∨ ∀ c ∈ tail.text.toList.head?, isOperatorChar c = false := by
  rcases mem_fixedTails.1 h with ⟨negated, rfl⟩ | rfl | ⟨descending, nulls, rfl⟩
  · cases negated <;> exact .inl (by decide)
  · refine .inr fun c hc => ?_
    cases hc
    decide
  · refine .inr fun c hc => ?_
    cases descending <;> rcases nulls with _ | (_ | _) <;> cases hc <;> decide

theorem readOneOf?_head {negated : Bool} {cs : List Char} {tail : Tail}
    (h : readOneOf? negated cs = some tail) : ' ' ∈ cs ∧ ∀ c ∈ cs.head?, isOperatorChar c = false := by
  obtain ⟨items, rfl, rfl⟩ := readOneOf?_eq_some_iff.1 h
  cases negated <;> simp [Tail.text, isOperatorChar]

theorem readTail?_comparison {operator : String} (h : (Tail.comparison operator).Valid) :
    readTail? (Tail.comparison operator).text.toList = some (.comparison operator) := by
  have hown := readComparison?_eq_some_iff.2 ⟨operator, rfl, h, rfl⟩
  obtain ⟨hne, hchars⟩ := h
  obtain ⟨c, cs, hcs⟩ := List.exists_cons_of_ne_nil (mt String.toList_eq_nil_iff.1 hne)
  have hc : isOperatorChar c := hchars c (hcs ▸ List.mem_cons_self)
  have htext : (Tail.comparison operator).text.toList = c :: (cs ++ " %s".toList) := by
    rw [Tail.text, String.toList_append, hcs, List.cons_append]
  have honeOf : ∀ negated, readOneOf? negated (Tail.comparison operator).text.toList = none := by
    intro negated
    rw [Option.eq_none_iff_forall_ne_some]
    intro tail htail
    have hhead := (readOneOf?_head htail).2
    rw [htext] at hhead
    rw [hhead c rfl] at hc
    cases hc
  have hfixed : readFixed? (Tail.comparison operator).text.toList = none := by
    rw [Option.eq_none_iff_forall_ne_some]
    intro tail htail
    obtain ⟨hmem, heq⟩ := readFixed?_sound htail
    rcases fixedTails_ends hmem with hlast | hhead
    · rw [heq, Tail.text, String.toList_append, List.getLast?_append] at hlast
      simp at hlast
    · rw [heq, htext] at hhead
      rw [hhead c rfl] at hc
      cases hc
  rw [readTail?_eq, honeOf, honeOf, hfixed, hown]
  rfl

theorem readTail?_label {name : String} (h : (Tail.label name).Valid) :
    readTail? (Tail.label name).text.toList = some (.label name) := by
  obtain ⟨hword, hasc, hdesc⟩ := h
  have hown := readLabel?_eq_some_iff.2 ⟨name, rfl, hword, rfl⟩
  have hblank : ' ' ∉ name.toList := fun hmem => absurd (hword.2 _ hmem) (by decide)
  have honeOf : ∀ negated, readOneOf? negated name.toList = none := by
    intro negated
    rw [Option.eq_none_iff_forall_ne_some]
    intro tail htail
    exact hblank (readOneOf?_head htail).1
  have hfixed : readFixed? name.toList = none := by
    rw [Option.eq_none_iff_forall_ne_some]
    intro tail htail
    obtain ⟨hmem, heq⟩ := readFixed?_sound htail
    rcases mem_fixedTails.1 hmem with ⟨negated, rfl⟩ | rfl | ⟨descending, nulls, rfl⟩
    · cases negated <;> exact hblank (heq ▸ by decide)
    · exact hblank (heq ▸ by decide)
    · rw [String.toList_inj] at heq
      cases nulls with
      | none => cases descending <;> simp_all [Tail.text, sortText]
      | some place =>
        refine hblank (heq ▸ ?_)
        cases descending <;> cases place <;> decide
  have hcomparison : readComparison? name.toList = none := by
    rw [Option.eq_none_iff_forall_ne_some]
    intro tail htail
    obtain ⟨operator, rfl, -, heq⟩ := readComparison?_eq_some_iff.1 htail
    refine hblank (heq ▸ ?_)
    rw [Tail.text, String.toList_append]
    exact List.mem_append_right _ (by decide)
  rw [Tail.text, readTail?_eq, honeOf, honeOf, hfixed, hcomparison, hown]
  rfl

theorem readTail?_text {tail : Tail} (h : tail.Valid) : readTail? tail.text.toList = some tail := by
  cases tail with
  | label name => exact readTail?_label h
  | comparison operator => exact readTail?_comparison h
  | like => exact readTail?_fixed (mem_fixedTails.2 (.inr (.inl rfl)))
  | nullCheck negated => exact readTail?_fixed (mem_fixedTails.2 (.inl ⟨negated, rfl⟩))
  | ordering descending nulls =>
    exact readTail?_fixed (mem_fixedTails.2 (.inr (.inr ⟨descending, nulls, rfl⟩)))
  | oneOf negated items =>
    have hown : readOneOf? negated (Tail.oneOf negated items).text.toList =
        some (.oneOf negated items) := readOneOf?_eq_some_iff.2 ⟨items, rfl, rfl⟩
    rw [readTail?_eq]
    cases negated with
    | false =>
      rw [hown]
      rfl
    | true =>
      have hfalse : readOneOf? false (Tail.oneOf true items).text.toList = none := by
        simp [readOneOf?, Tail.text, List.isPrefixOf?]
      rw [hfalse, hown]
      rfl

/-! ### Fragments -/

/-- The characters of what follows the path. -/
def endingChars (closings : Nat) (tail : Option Tail) : List Char :=
  List.replicate closings ')' ++ tail.elim [] fun tail => ' ' :: tail.text.toList

theorem toList_ending (f : Fragment) : f.ending.toList = endingChars f.closings f.tail := by
  obtain ⟨functions, path, closings, tail⟩ := f
  cases tail <;> simp [ending, endingChars]

theorem toList_text (f : Fragment) : f.text.toList =
    (joinWith "" (f.functions.map (· ++ "("))).toList ++
      ((joinWith "." f.path).toList ++ endingChars f.closings f.tail) := by
  rw [text, head, String.toList_append, String.toList_append, toList_ending, List.append_assoc]

theorem closes_endingChars (closings : Nat) (tail : Option Tail) :
    Closes (endingChars closings tail) := by
  intro c hc
  cases closings with
  | succ n =>
    cases hc
    exact .inl rfl
  | zero =>
    cases tail with
    | none => cases hc
    | some tail =>
      cases hc
      exact .inr rfl

/-- A tail starts with a blank, so all parentheses before it are counted. -/
theorem closings_endingChars (closings : Nat) (tail : Option Tail) :
    ((endingChars closings tail).takeWhile (· == ')')).length = closings ∧
      (endingChars closings tail).dropWhile (· == ')') =
        tail.elim [] fun tail => ' ' :: tail.text.toList := by
  have hall : ∀ c ∈ List.replicate closings ')', (c == ')') = true := by
    intro c hc
    rw [List.eq_of_mem_replicate hc]
    rfl
  rw [endingChars, List.takeWhile_append_of_pos hall, List.dropWhile_append_of_pos hall]
  cases tail <;> simp

theorem replicate_takeWhile (cs : List Char) :
    List.replicate (cs.takeWhile (· == ')')).length ')' = cs.takeWhile (· == ')') := by
  refine (List.eq_replicate_iff.2 ⟨rfl, fun c hc => ?_⟩).symm
  simpa using List.mem_takeWhile_imp hc

theorem parse?_sound {s : String} {f : Fragment} (h : parse? s = some f) :
    f.Valid ∧ f.text = s := by
  rcases hfunctions : readFunctions s.toList with ⟨functions, cs⟩
  simp only [parse?, hfunctions] at h
  split at h
  · cases h
  rename_i path after hpath
  obtain ⟨hcalls, hcallText⟩ := readFunctions_sound hfunctions
  obtain ⟨hne, hsteps, hpathText⟩ := readPath?_sound hpath
  have hafter := List.takeWhile_append_dropWhile (p := (· == ')')) (l := after)
  split at h
  · rename_i hrest
    cases h
    refine ⟨⟨hcalls, hne, hsteps, by simp⟩, ?_⟩
    rw [hrest] at hafter
    rw [← String.toList_inj, toList_text, ← hcallText, ← hpathText, endingChars,
      replicate_takeWhile, Option.elim_none, hafter]
  · rename_i rest hrest
    obtain ⟨tail, htail, rfl⟩ := Option.map_eq_some_iff.1 h
    obtain ⟨hvalid, htailText⟩ := readTail?_sound htail
    refine ⟨⟨hcalls, hne, hsteps, by simpa using hvalid⟩, ?_⟩
    rw [hrest, ← htailText] at hafter
    rw [← String.toList_inj, toList_text, ← hcallText, ← hpathText, endingChars,
      replicate_takeWhile, Option.elim_some, hafter]
  · cases h

theorem parse?_text {f : Fragment} (h : f.Valid) : parse? f.text = some f := by
  have hcloses := closes_endingChars f.closings f.tail
  have hpath := readFunctions_path h.path_ne h.path hcloses
  obtain ⟨hlength, hrest⟩ := closings_endingChars f.closings f.tail
  rw [parse?, toList_text, readFunctions_append h.functions hpath]
  simp only [readPath?_append h.path_ne h.path hcloses, hlength, hrest]
  obtain ⟨functions, path, closings, tail⟩ := f
  cases tail with
  | none => rfl
  | some tail => simp only [Option.elim_some, readTail?_text (h.tail tail rfl), Option.map_some]

/-- Reading gives back exactly the well-formed fragments, each from its own text. -/
theorem parse?_eq_some_iff {s : String} {f : Fragment} :
    parse? s = some f ↔ f.Valid ∧ f.text = s :=
  ⟨parse?_sound, fun ⟨hvalid, htext⟩ => htext ▸ parse?_text hvalid⟩

end Fragment

end PathQuery
