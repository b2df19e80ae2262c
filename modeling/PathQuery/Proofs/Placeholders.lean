import Mathlib.Data.List.Basic
import PathQuery.Proofs.Text
import PathQuery.Sql
/-!
# Fragments in order

A text has room for as many values as it has placeholders. A text is laid out from fragments when these
stand in it one after the other with nothing but clean text around them. All of its placeholders are then
theirs: in front of each fragment stand as many placeholders as the fragments before it have values. What
follows a fragment must not turn its end into a placeholder.
-/

namespace PathQuery

open Text (joinWith)

/-- How often the placeholder occurs in a text. -/
def countMarks : List Char → Nat
  | [] => 0
  | c :: rest => (if Sql.placeholder.toList.isPrefixOf (c :: rest) then 1 else 0) + countMarks rest

def marks (s : String) : Nat :=
  countMarks s.toList

theorem isPrefixOf_mark (c : Char) (rest : List Char) :
    Sql.placeholder.toList.isPrefixOf (c :: rest) = (c == '%' && rest.head? == some 's') := by
  have hplaceholder : Sql.placeholder.toList = ['%', 's'] := by decide
  rw [hplaceholder]
  cases rest with
  | nil => simp [List.isPrefixOf]
  | cons d rest =>
    show ('%' == c && ('s' == d && true)) = (c == '%' && d == 's')
    rw [Bool.and_true, BEq.comm, BEq.comm (a := 's')]

/-- Occurrences add up unless the seam makes a new one. -/
theorem countMarks_append {a b : List Char} (h : a.getLast? = some '%' → b.head? ≠ some 's') :
    countMarks (a ++ b) = countMarks a + countMarks b := by
  induction a with
  | nil => rw [List.nil_append, countMarks, Nat.zero_add]
  | cons c rest ih =>
    rw [List.cons_append, countMarks, countMarks, isPrefixOf_mark, isPrefixOf_mark]
    cases rest with
    | nil =>
      have hseam : (c == '%' && b.head? == some 's') = false := by
        rw [Bool.and_eq_false_iff, beq_eq_false_iff_ne, beq_eq_false_iff_ne]
        by_cases hc : c = '%'
        · exact .inr (h (by rw [hc, List.getLast?_singleton]))
        · exact .inl hc
      have hend : (c == '%' && ([] : List Char).head? == some 's') = false := Bool.and_false _
      rw [List.nil_append, hseam, hend, countMarks, Nat.add_zero]
    | cons d rest =>
      rw [ih (by rwa [List.getLast?_cons_cons] at h), Nat.add_assoc]
      rfl

theorem countMarks_eq_zero {a : List Char} (h : '%' ∉ a) : countMarks a = 0 := by
  induction a with
  | nil => rfl
  | cons c rest ih =>
    have hc : (c == '%') = false := beq_eq_false_iff_ne.2 fun heq => h (heq ▸ List.mem_cons_self)
    rw [countMarks, isPrefixOf_mark, hc, Bool.false_and, ih fun hmem => h (List.mem_cons_of_mem c hmem)]
    rfl

/-! ### Text without percent signs -/

def Clean (s : String) : Prop :=
  '%' ∉ s.toList

instance (s : String) : Decidable (Clean s) :=
  inferInstanceAs (Decidable (¬ _))

/-- Clean text that may follow a fragment. -/
def IsGap (s : String) : Prop :=
  Clean s ∧ s.toList.head? ≠ some 's'

instance (s : String) : Decidable (IsGap s) :=
  inferInstanceAs (Decidable (_ ∧ _))

theorem clean_append {s t : String} : Clean (s ++ t) ↔ Clean s ∧ Clean t := by
  rw [Clean, String.toList_append, List.mem_append, not_or]
  rfl

theorem Clean.marks {s : String} (h : Clean s) : marks s = 0 :=
  countMarks_eq_zero h

theorem Clean.marks_append {s : String} (h : Clean s) (t : String) :
    PathQuery.marks (s ++ t) = PathQuery.marks t := by
  have hseam : s.toList.getLast? = some '%' → t.toList.head? ≠ some 's' :=
    fun hlast => absurd (List.mem_of_getLast? hlast) h
  rw [PathQuery.marks, String.toList_append, countMarks_append hseam, countMarks_eq_zero h, Nat.zero_add]
  rfl

theorem marks_append {s t : String} (h : t.toList.head? ≠ some 's') : marks (s ++ t) = marks s + marks t := by
  rw [marks, String.toList_append, countMarks_append fun _ => h]
  rfl

theorem IsGap.append_marks {s : String} (h : IsGap s) (t : String) : marks (t ++ s) = marks t := by
  rw [marks_append h.2, h.1.marks, Nat.add_zero]

theorem IsGap.head_append {gap : String} (h : IsGap gap) (hne : gap ≠ "") (s : String) :
    (gap ++ s).toList.head? ≠ some 's' := by
  have hgap : gap.toList ≠ [] := by rwa [ne_eq, String.toList_eq_nil_iff]
  rw [String.toList_append, List.head?_append_of_ne_nil _ hgap]
  exact h.2

theorem IsGap.append {gap s : String} (h : IsGap gap) (hne : gap ≠ "") (hs : Clean s) : IsGap (gap ++ s) :=
  ⟨clean_append.2 ⟨h.1, hs⟩, h.head_append hne s⟩

/-- Gaps keep two fragments apart. -/
theorem IsGap.marks_between {gap : String} (h : IsGap gap) (hne : gap ≠ "") (s t : String) :
    marks (s ++ gap ++ t) = marks s + marks t := by
  rw [String.append_assoc, marks_append (h.head_append hne t), h.1.marks_append]

/-! ### Layouts -/

/-- As many values as placeholders. -/
def Sql.Balanced (sql : Sql) : Prop :=
  marks sql.text = sql.params.length

instance (sql : Sql) : Decidable sql.Balanced :=
  inferInstanceAs (Decidable (_ = _))

/-- The fragments stand in the text in this order, with clean text in front of each and behind the last. -/
inductive Laid : List Sql → String → Prop
  | of_clean {text : String} (h : Clean text) : Laid [] text
  | cons {glue text : String} {f : Sql} {fragments : List Sql} (hglue : Clean glue) (hf : f.Balanced)
    (hseam : text.toList.head? ≠ some 's') (hrest : Laid fragments text) :
    Laid (f :: fragments) (glue ++ f.text ++ text)

theorem head_of_append {s t : String} (h : (s ++ t).toList.head? ≠ some 's') : s.toList.head? ≠ some 's' := by
  rw [String.toList_append, List.head?_append] at h
  exact fun hs => h (by rw [hs, Option.some_or])

theorem head_append {s t : String} (hs : s.toList.head? ≠ some 's') (ht : t.toList.head? ≠ some 's') :
    (s ++ t).toList.head? ≠ some 's' := by
  rw [String.toList_append, List.head?_append]
  cases hhead : s.toList.head? with
  | none => exact ht
  | some c =>
    rw [hhead] at hs
    exact hs

theorem head_repeated {piece : String} (h : piece.toList.head? ≠ some 's') (n : Nat) :
    (joinWith "" (Text.repeated n piece)).toList.head? ≠ some 's' := by
  induction n with
  | zero => simp [Text.repeated, joinWith]
  | succ n ih =>
    rw [Text.repeated_succ, Text.joinWith_empty_cons]
    exact head_append h ih

theorem marks_repeated {piece : String} (h : piece.toList.head? ≠ some 's') (n : Nat) :
    marks (joinWith "" (Text.repeated n piece)) = n * marks piece := by
  induction n with
  | zero =>
    rw [Nat.zero_mul]
    rfl
  | succ n ih =>
    rw [Text.repeated_succ, Text.joinWith_empty_cons, marks_append (head_repeated h n), ih, Nat.succ_mul,
      Nat.add_comm]

namespace Laid

variable {fragments more : List Sql} {text other : String}

theorem of_balanced {f : Sql} (h : f.Balanced) : Laid [f] f.text := by
  have hone : Laid [f] ("" ++ f.text ++ "") := .cons (by decide) h (by decide) (.of_clean (by decide))
  rwa [String.empty_append, String.append_empty] at hone

theorem behind {glue : String} (hglue : Clean glue) (h : Laid fragments text) :
    Laid fragments (glue ++ text) := by
  cases h with
  | of_clean h => exact .of_clean (clean_append.2 ⟨hglue, h⟩)
  | cons hfirst hf hseam hrest =>
    rw [← String.append_assoc, ← String.append_assoc]
    exact .cons (clean_append.2 ⟨hglue, hfirst⟩) hf hseam hrest

theorem before {gap : String} (hgap : IsGap gap) (h : Laid fragments text) :
    Laid fragments (text ++ gap) := by
  induction h with
  | of_clean h => exact .of_clean (clean_append.2 ⟨h, hgap.1⟩)
  | cons hglue hf hseam _ ih =>
    rw [String.append_assoc]
    exact .cons hglue hf (head_append hseam hgap.2) ih

theorem append {gap : String} (hgap : IsGap gap) (hne : gap ≠ "") (h : Laid fragments text)
    (h' : Laid more other) : Laid (fragments ++ more) (text ++ gap ++ other) := by
  induction h with
  | of_clean h => exact h'.behind (clean_append.2 ⟨h, hgap.1⟩)
  | cons hglue hf hseam _ ih =>
    rw [String.append_assoc, String.append_assoc]
    refine .cons hglue hf (head_append hseam (hgap.head_append hne other)) ?_
    rwa [← String.append_assoc]

theorem count (h : Laid fragments text) : marks text = (fragments.flatMap Sql.params).length := by
  induction h with
  | of_clean h => exact h.marks
  | @cons glue text f fragments hglue hf hseam _ ih =>
    rw [marks_append hseam, hglue.marks_append, hf, ih, List.flatMap_cons, List.length_append]

/-- A fragment has as many placeholders in front of it as the fragments before it have values. -/
theorem place (h : Laid fragments text) {front back : List Sql} {f : Sql}
    (hsplit : fragments = front ++ f :: back) :
    ∃ left right, text = left ++ f.text ++ right ∧ marks left = (front.flatMap Sql.params).length ∧
      marks f.text = f.params.length := by
  induction h generalizing front with
  | of_clean h => cases front <;> cases hsplit
  | @cons glue text g fragments hglue hg hseam _ ih =>
    cases front with
    | nil =>
      cases hsplit
      exact ⟨glue, text, rfl, hglue.marks, hg⟩
    | cons first front =>
      cases hsplit
      obtain ⟨left, right, rfl, hleft, hf⟩ := ih rfl
      have hseam := head_of_append (head_of_append hseam)
      refine ⟨glue ++ g.text ++ left, right, by simp only [String.append_assoc], ?_, hf⟩
      rw [marks_append hseam, hglue.marks_append, hg, hleft, List.flatMap_cons, List.length_append]

end Laid

/-- Texts that are laid out from fragments, one after the other. -/
inductive LaidAll : List Sql → List String → Prop
  | nil : LaidAll [] []
  | cons {fragments more : List Sql} {text : String} {texts : List String} (h : Laid fragments text)
    (hrest : LaidAll more texts) : LaidAll (fragments ++ more) (text :: texts)

namespace LaidAll

variable {fragments more : List Sql} {texts others : List String}

theorem append (h : LaidAll fragments texts) (h' : LaidAll more others) :
    LaidAll (fragments ++ more) (texts ++ others) := by
  induction h with
  | nil => exact h'
  | cons hfirst hrest ih =>
    rw [List.append_assoc, List.cons_append]
    exact .cons hfirst ih

theorem single {text : String} (h : Laid fragments text) : LaidAll fragments [text] := by
  have hone := LaidAll.cons h .nil
  rwa [List.append_nil] at hone

theorem of_balanced (h : ∀ f ∈ fragments, f.Balanced) : LaidAll fragments (fragments.map Sql.text) := by
  induction fragments with
  | nil => exact .nil
  | cons f rest ih =>
    obtain ⟨hf, hrest⟩ := List.forall_mem_cons.1 h
    exact .cons (.of_balanced hf) (ih hrest)

theorem joinWith {gap : String} (hgap : IsGap gap) (hne : gap ≠ "") (h : LaidAll fragments texts) :
    Laid fragments (Text.joinWith gap texts) := by
  induction h with
  | nil =>
    show Laid [] ""
    exact .of_clean (by decide)
  | @cons fragments more text texts hfirst hrest ih =>
    cases texts with
    | nil =>
      cases hrest
      rw [List.append_nil]
      exact hfirst
    | cons next texts =>
      rw [Text.joinWith_cons gap text (List.cons_ne_nil next texts)]
      exact hfirst.append hgap hne ih

end LaidAll

end PathQuery
