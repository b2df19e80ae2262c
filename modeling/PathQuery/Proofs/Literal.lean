import Mathlib.Data.List.Count
import PathQuery.Proofs.Like
import PathQuery.Value
/-!
# Shown texts as literals

A listing of parameters shows texts between apostrophes, and an apostrophe inside is shown behind a backslash. A
reader of literals takes the character behind any backslash as it is and stops at the first apostrophe that has
none. Such a reader spends two characters on each apostrophe and each backslash of what it reads, and one on each
other character (`Literal.cost_le`). A shown text has two for its apostrophes only, so it is read back exactly when
it has no backslash.
-/

namespace PathQuery

open Value (apostrophe)

namespace Literal

/-- Reads a literal behind its opening apostrophe: what it stands for, and what follows its end. -/
def body? : List Char → Option (List Char × List Char)
  | [] => none
  | c :: rest =>
    if c = apostrophe then some ([], rest)
    else if c = '\\' then
      match rest with
      | [] => none
      | d :: rest => (body? rest).map fun read => (d :: read.1, read.2)
    else (body? rest).map fun read => (c :: read.1, read.2)

/-- Reads a literal at the start of a text. -/
def read? (s : String) : Option (String × String) :=
  match s.toList with
  | [] => none
  | c :: rest =>
    if c = apostrophe then (body? rest).map fun read => (String.ofList read.1, String.ofList read.2) else none

/-- Characters that a literal cannot have without a backslash in front. -/
def isSpecial (c : Char) : Bool :=
  c == apostrophe || c == '\\'

theorem isSpecial_eq_false {c : Char} (hquote : c ≠ apostrophe) (hbackslash : c ≠ '\\') : isSpecial c = false := by
  simp [isSpecial, hquote, hbackslash]

theorem countP_isSpecial (s : List Char) : s.countP isSpecial = s.count apostrophe + s.count '\\' := by
  induction s with
  | nil => rfl
  | cons c s ih =>
    rw [List.countP_cons, List.count_cons, List.count_cons, ih]
    by_cases hquote : c = apostrophe
    · subst hquote
      have hspecial : isSpecial apostrophe = true := by decide
      have hne : (apostrophe == '\\') = false := by decide
      simp only [hspecial, hne, beq_self_eq_true, if_true, Bool.false_eq_true, if_false]
      omega
    · have hspecial : isSpecial c = (c == '\\') := by simp [isSpecial, hquote]
      simp only [hspecial, beq_eq_false_iff_ne.2 hquote, Bool.false_eq_true, if_false]
      omega

theorem body?_apostrophe (rest : List Char) : body? (apostrophe :: rest) = some ([], rest) := by
  rw [body?.eq_def]
  exact if_pos rfl

theorem body?_backslash (c : Char) (rest : List Char) :
    body? ('\\' :: c :: rest) = (body? rest).map fun read => (c :: read.1, read.2) := by
  have hne : '\\' ≠ apostrophe := by decide
  rw [body?.eq_def]
  dsimp only
  rw [if_neg hne, if_pos rfl]

theorem body?_plain {c : Char} (hquote : c ≠ apostrophe) (hbackslash : c ≠ '\\') (rest : List Char) :
    body? (c :: rest) = (body? rest).map fun read => (c :: read.1, read.2) := by
  rw [body?.eq_def]
  dsimp only
  rw [if_neg hquote, if_neg hbackslash]

/-- What is read takes one character each, two for those that need a backslash, and one for its end. -/
theorem cost_le {input read after : List Char} (h : body? input = some (read, after)) :
    read.length + read.countP isSpecial + after.length + 1 ≤ input.length := by
  fun_induction body? input generalizing read with
  | case1 => cases h
  | case2 rest =>
    cases h
    simp
  | case3 => cases h
  | case4 d rest hquote ih =>
    obtain ⟨⟨front, back⟩, hrest, heq⟩ := Option.map_eq_some_iff.1 h
    obtain ⟨rfl, rfl⟩ := Prod.mk.inj heq
    have hcost : front.length + front.countP isSpecial + back.length + 1 ≤ rest.length := ih hrest
    have hone : (d :: front).countP isSpecial ≤ front.countP isSpecial + 1 := by
      rw [List.countP_cons]
      split <;> omega
    simp only [List.length_cons]
    omega
  | case5 c rest hquote hbackslash ih =>
    obtain ⟨⟨front, back⟩, hrest, heq⟩ := Option.map_eq_some_iff.1 h
    obtain ⟨rfl, rfl⟩ := Prod.mk.inj heq
    have hcost : front.length + front.countP isSpecial + back.length + 1 ≤ rest.length := ih hrest
    have hnone : ¬ isSpecial c = true := by simp [isSpecial_eq_false hquote hbackslash]
    rw [List.countP_cons_of_neg hnone]
    simp only [List.length_cons]
    omega

end Literal

namespace Value

/-- A text with a backslash in front of each apostrophe. -/
def guarded (s : List Char) : List Char :=
  s.flatMap fun c => if c = apostrophe then ['\\', c] else [c]

theorem toList_display_text (t : String) :
    (display (.text t)).toList = apostrophe :: (guarded t.toList ++ [apostrophe]) := by
  have hshown : display (.text t) =
      String.singleton apostrophe ++ Like.guard apostrophe t ++ String.singleton apostrophe := rfl
  rw [hshown, String.toList_append, String.toList_append, Like.toList_guard, String.toList_singleton]
  rfl

theorem length_guarded (s : List Char) : (guarded s).length = s.length + s.count apostrophe := by
  induction s with
  | nil => rfl
  | cons c rest ih =>
    rw [guarded, List.flatMap_cons, List.length_append, ← guarded, ih]
    by_cases hc : c = apostrophe
    · rw [if_pos hc, hc, List.count_cons_self]
      simp only [List.length_cons, List.length_nil]
      omega
    · rw [if_neg hc, List.count_cons_of_ne hc]
      simp only [List.length_cons, List.length_nil]
      omega

/-- Without backslashes, the backslashes that are put in are all there are. -/
theorem body?_guarded {s : List Char} (hs : '\\' ∉ s) (rest : List Char) :
    Literal.body? (guarded s ++ apostrophe :: rest) = some (s, rest) := by
  induction s with
  | nil => exact Literal.body?_apostrophe rest
  | cons c s ih =>
    rw [List.mem_cons, not_or] at hs
    have hrest := ih hs.2
    rw [guarded, List.flatMap_cons, ← guarded, List.append_assoc]
    by_cases hc : c = apostrophe
    · rw [if_pos hc]
      show Literal.body? ('\\' :: c :: (guarded s ++ apostrophe :: rest)) = _
      rw [Literal.body?_backslash, hrest]
      rfl
    · rw [if_neg hc]
      show Literal.body? (c :: (guarded s ++ apostrophe :: rest)) = _
      rw [Literal.body?_plain hc (Ne.symm hs.1), hrest]
      rfl

/-- A literal for a text with a backslash would have to be longer than what is shown. -/
theorem not_mem_of_body?_guarded {s rest : List Char}
    (h : Literal.body? (guarded s ++ apostrophe :: rest) = some (s, rest)) : '\\' ∉ s := by
  have hcost := Literal.cost_le h
  rw [List.length_append, length_guarded, List.length_cons] at hcost
  rw [Literal.countP_isSpecial] at hcost
  apply List.count_eq_zero.1
  omega

/-- **A shown text is a literal for itself exactly if it has no backslash.** What is shown always stands between
apostrophes. -/
theorem display_text_read (t : String) :
    (∃ body, (display (.text t)).toList = apostrophe :: (body ++ [apostrophe])) ∧
      ∀ rest, Literal.read? (display (.text t) ++ rest) = some (t, rest) ↔ '\\' ∉ t.toList := by
  refine ⟨⟨guarded t.toList, toList_display_text t⟩, fun rest => ?_⟩
  have hread : Literal.read? (display (.text t) ++ rest) =
      (Literal.body? (guarded t.toList ++ apostrophe :: rest.toList)).map fun read =>
        (String.ofList read.1, String.ofList read.2) := by
    simp [Literal.read?, toList_display_text]
  rw [hread]
  constructor
  · intro h
    obtain ⟨⟨front, back⟩, hbody, heq⟩ := Option.map_eq_some_iff.1 h
    obtain ⟨rfl, rfl⟩ := Prod.mk.inj heq
    have hback : Literal.body? (guarded front ++ apostrophe :: back) = some (front, back) := by
      simpa using hbody
    simpa using not_mem_of_body?_guarded hback
  · intro ht
    rw [body?_guarded ht]
    simp

/-- A backslash takes the closing apostrophe for itself; in front of an apostrophe it lets the literal end early. -/
theorem display_backslash_unread :
    Literal.read? (display (.text "\\")) = none ∧
      Literal.read? (display (.text ("\\" ++ String.singleton apostrophe))) =
        some ("\\", String.singleton apostrophe) := by
  decide +kernel

end Value

end PathQuery
