import Mathlib.Data.List.Basic
import PathQuery.Proofs.Text
/-!
# Parentheses and the words between them

The depth at a place of a text is the number of parentheses that are open there. A text is paired when it
never closes a parenthesis that is not open and leaves none open. A word stands in a text where a stop or an
end of the text is on either side of it. No such word reaches across a stop, so a text that is cut at a stop
falls into two texts whose words can be looked at one by one.
-/

namespace PathQuery.Text

/-! ### Depth -/

/-- The parentheses that a text opens, less those that it closes. -/
def depth (cs : List Char) : Int :=
  cs.count '(' - cs.count ')'

@[simp] theorem depth_nil : depth [] = 0 := rfl

@[simp] theorem depth_append (front back : List Char) : depth (front ++ back) = depth front + depth back := by
  simp only [depth, List.count_append]
  omega

@[simp] theorem depth_open (cs : List Char) : depth ('(' :: cs) = 1 + depth cs := by
  have hclose : List.count ')' ('(' :: cs) = List.count ')' cs := List.count_cons_of_ne (by decide)
  rw [depth, depth, List.count_cons_self, hclose]
  omega

@[simp] theorem depth_close (cs : List Char) : depth (')' :: cs) = depth cs - 1 := by
  have hopen : List.count '(' (')' :: cs) = List.count '(' cs := List.count_cons_of_ne (by decide)
  rw [depth, depth, List.count_cons_self, hopen]
  omega

/-- No parenthesis in a text. -/
def Bare (cs : List Char) : Prop :=
  '(' ∉ cs ∧ ')' ∉ cs

instance (cs : List Char) : Decidable (Bare cs) :=
  inferInstanceAs (Decidable (_ ∧ _))

theorem Bare.depth {cs : List Char} (h : Bare cs) : depth cs = 0 := by
  rw [Text.depth, List.count_eq_zero.2 h.1, List.count_eq_zero.2 h.2]
  rfl

theorem bare_append {front back : List Char} : Bare (front ++ back) ↔ Bare front ∧ Bare back := by
  simp only [Bare, List.mem_append, not_or]
  exact and_and_and_comm

/-! ### Paired texts -/

theorem prefix_append_cases {before front back : List Char} (h : before <+: front ++ back) :
    before <+: front ∨ ∃ rest, before = front ++ rest ∧ rest <+: back := by
  rcases List.prefix_or_prefix_of_prefix h (List.prefix_append front back) with hin | ⟨rest, rfl⟩
  · exact .inl hin
  · exact .inr ⟨rest, rfl, (List.prefix_append_right_inj front).1 h⟩

structure Paired (cs : List Char) : Prop where
  nonneg : ∀ before, before <+: cs → 0 ≤ depth before
  closed : depth cs = 0

theorem Bare.paired {cs : List Char} (h : Bare cs) : Paired cs := by
  refine ⟨?_, h.depth⟩
  rintro before ⟨after, rfl⟩
  exact Int.le_of_eq (bare_append.1 h).1.depth.symm

theorem paired_nil : Paired [] :=
  Bare.paired (by decide)

theorem Paired.append {front back : List Char} (hfront : Paired front) (hback : Paired back) :
    Paired (front ++ back) := by
  refine ⟨?_, by rw [depth_append, hfront.closed, hback.closed]; rfl⟩
  intro before hbefore
  rcases prefix_append_cases hbefore with hin | ⟨rest, rfl, hrest⟩
  · exact hfront.nonneg before hin
  · rw [depth_append, hfront.closed, Int.zero_add]
    exact hback.nonneg rest hrest

theorem Paired.enclosed {cs : List Char} (h : Paired cs) : Paired ('(' :: (cs ++ [')'])) := by
  refine ⟨?_, by rw [depth_open, depth_append, depth_close, depth_nil, h.closed]; rfl⟩
  intro before hbefore
  rcases List.prefix_cons_iff.1 hbefore with rfl | ⟨rest, rfl, hrest⟩
  · exact Int.le_refl 0
  · rw [depth_open]
    rcases List.prefix_concat_iff.1 hrest with rfl | hin
    · rw [depth_append, depth_close, depth_nil, h.closed]
      decide
    · have hnonneg := h.nonneg rest hin
      omega

/-- A part without parentheses may be replaced by another. -/
theorem Paired.replace {before part other after : List Char} (hpart : Bare part) (hother : Bare other)
    (h : Paired (before ++ part ++ after)) : Paired (before ++ other ++ after) := by
  have hdepth : ∀ {cs rest : List Char}, Bare cs → depth (before ++ cs ++ rest) = depth before + depth rest := by
    intro cs rest hcs
    rw [depth_append, depth_append, hcs.depth, Int.add_zero]
  refine ⟨?_, by rw [hdepth hother, ← hdepth hpart, h.closed]⟩
  intro cs hcs
  have hbefore : before <+: before ++ part ++ after := by
    rw [List.append_assoc]
    exact List.prefix_append before _
  rcases prefix_append_cases hcs with hin | ⟨rest, rfl, hrest⟩
  · rcases prefix_append_cases hin with hin | ⟨rest, rfl, behind, rfl⟩
    · exact h.nonneg cs (hin.trans hbefore)
    · rw [depth_append, (bare_append.1 hother).1.depth, Int.add_zero]
      exact h.nonneg before hbefore
  · rw [hdepth hother, ← hdepth hpart]
    exact h.nonneg _ ((List.prefix_append_right_inj (before ++ part)).2 hrest)

/-- A pair of parentheses lies on one side of any place where none is open. -/
theorem Paired.pair_cases {left right front inner back : List Char} (hleft : Paired left) (hinner : Paired inner)
    (h : left ++ right = front ++ '(' :: (inner ++ ')' :: back)) :
    (∃ rest, left = front ++ '(' :: (inner ++ ')' :: rest)) ∨
      ∃ rest, right = rest ++ '(' :: (inner ++ ')' :: back) := by
  rcases List.append_eq_append_iff.1 h with ⟨rest, -, hright⟩ | ⟨rest, hfront, hrest⟩
  · exact .inr ⟨rest, hright⟩
  rcases List.cons_eq_append_iff.1 hrest with ⟨-, hright⟩ | ⟨within, rfl, hwithin⟩
  · exact .inr ⟨[], hright⟩
  -- Here the place is behind the opening parenthesis, and it cannot be in front of the closing one.
  have hnot : ∀ part, part <+: inner → left ≠ front ++ '(' :: part := by
    intro part hpart hleftEq
    have hopen := hleft.closed
    have hbefore := hleft.nonneg front (hleftEq ▸ List.prefix_append front _)
    have hpartDepth := hinner.nonneg part hpart
    rw [hleftEq, depth_append, depth_open] at hopen
    omega
  rcases List.append_eq_append_iff.1 hwithin with ⟨more, rfl, hmore⟩ | ⟨more, hinnerEq, -⟩
  · rcases List.cons_eq_append_iff.1 hmore with ⟨rfl, -⟩ | ⟨more, rfl, -⟩
    · rw [List.append_nil] at hfront
      exact absurd hfront (hnot inner (List.prefix_refl inner))
    · exact .inl ⟨more, hfront⟩
  · exact absurd hfront (hnot within (hinnerEq ▸ List.prefix_append within more))

/-- The outermost pair of an enclosed text encloses all of it, and every other pair lies inside. -/
theorem Paired.pair_enclosed {cs front inner back : List Char} (hcs : Paired cs) (hinner : Paired inner)
    (h : '(' :: (cs ++ [')']) = front ++ '(' :: (inner ++ ')' :: back)) :
    inner = cs ∨ ∃ before after, cs = before ++ '(' :: (inner ++ ')' :: after) := by
  rcases List.cons_eq_append_iff.1 h with ⟨-, hsame⟩ | ⟨start, -, hstart⟩
  · refine .inl ?_
    rcases List.append_eq_append_iff.1 (List.cons.inj hsame).2 with ⟨rest, hrest, hback⟩ | ⟨rest, rfl, hback⟩
    · rcases List.cons_eq_append_iff.1 hback with ⟨rfl, -⟩ | ⟨rest, rfl, -⟩
      · rw [hrest, List.append_nil]
      · -- The text would close the parenthesis around it.
        have hnonneg := hcs.nonneg (inner ++ [')']) ⟨rest, by rw [hrest, List.append_assoc]; rfl⟩
        rw [depth_append, hinner.closed] at hnonneg
        exact absurd hnonneg (by decide)
    · rcases List.cons_eq_append_iff.1 hback with ⟨rfl, -⟩ | ⟨rest, rfl, hnil⟩
      · rw [List.append_nil]
      · cases rest <;> cases hnil
  · rcases hcs.pair_cases hinner hstart with ⟨after, hafter⟩ | ⟨before, hbefore⟩
    · exact .inr ⟨start, after, hafter⟩
    · cases before with
      | nil => cases hbefore
      | cons c rest => cases rest <;> cases hbefore

/-! ### Words in a text -/

/-- What words of a query stand between. -/
def isDelimiter (c : Char) : Bool :=
  c == ' ' || c == '(' || c == ')'

/-- What the names in a query stand between. -/
def isBreak (c : Char) : Bool :=
  isDelimiter c || c == '.'

theorem isBreak_of_isDelimiter {c : Char} (h : isDelimiter c) : isBreak c := by
  rw [isBreak, h, Bool.true_or]

/-- Parentheses are stops. -/
theorem bare_of_no_stop {stops : Char → Bool} (hstops : ∀ c, isDelimiter c → stops c) {cs : List Char}
    (h : ∀ c ∈ cs, stops c = false) : Bare cs :=
  ⟨fun hopen => Bool.eq_false_iff.1 (h '(' hopen) (hstops '(' rfl),
    fun hclose => Bool.eq_false_iff.1 (h ')' hclose) (hstops ')' rfl)⟩

/-- A word between two parts of a text, each of which is empty or has a stop next to the word. -/
structure Stands (stops : Char → Bool) (word : String) (before after cs : List Char) : Prop where
  eq : cs = before ++ word.toList ++ after
  left : ∀ c ∈ before.getLast?, stops c
  right : ∀ c ∈ after.head?, stops c

/-- Words that no stop cuts. -/
structure Uncut (stops : Char → Bool) (word : String) : Prop where
  ne_nil : word.toList ≠ []
  not_stop : ∀ c ∈ word.toList, stops c = false

variable {stops : Char → Bool} {word : String} {before after cs front back : List Char} {d : Char}

theorem Stands.depth_nonneg (h : Stands stops word before after cs) (hcs : Paired cs) : 0 ≤ depth before := by
  refine hcs.nonneg before ?_
  rw [h.eq, List.append_assoc]
  exact List.prefix_append before _

theorem not_stands_nil (hword : Uncut stops word) : ¬ Stands stops word before after [] := by
  intro hstands
  exact hword.ne_nil (List.append_eq_nil_iff.1 (List.append_eq_nil_iff.1 hstands.eq.symm).1).2

theorem Stands.mono {more : Char → Bool} (hmore : ∀ c, stops c → more c)
    (h : Stands stops word before after cs) : Stands more word before after cs :=
  ⟨h.eq, fun c hc => hmore c (h.left c hc), fun c hc => hmore c (h.right c hc)⟩

/-- In a text without stops a word stands only if it is all of the text. -/
theorem Stands.eq_of_no_stop (hcs : ∀ c ∈ cs, stops c = false) (h : Stands stops word before after cs) :
    before = [] ∧ after = [] ∧ cs = word.toList := by
  have hno : ∀ c ∈ cs, ¬ stops c := fun c hc => Bool.eq_false_iff.1 (hcs c hc)
  rw [h.eq] at hno
  have hbefore : before = [] := by
    rw [← List.getLast?_eq_none_iff, Option.eq_none_iff_forall_not_mem]
    intro c hc
    have hmem := List.mem_append_left word.toList (List.mem_of_getLast? hc)
    exact hno c (List.mem_append_left after hmem) (h.left c hc)
  have hafter : after = [] := by
    rw [← List.head?_eq_none_iff, Option.eq_none_iff_forall_not_mem]
    intro c hc
    exact hno c (List.mem_append_right _ (List.mem_of_head? hc)) (h.right c hc)
  refine ⟨hbefore, hafter, ?_⟩
  rw [h.eq, hbefore, hafter, List.nil_append, List.append_nil]

theorem Stands.in_front (h : Stands stops word before after front) (hd : stops d) (back : List Char) :
    Stands stops word before (after ++ d :: back) (front ++ d :: back) := by
  refine ⟨by rw [h.eq, List.append_assoc _ after], h.left, ?_⟩
  cases after with
  | nil =>
    rintro c ⟨⟩
    exact hd
  | cons c rest => exact h.right

theorem Stands.in_back (h : Stands stops word before after back) (hd : stops d) (front : List Char) :
    Stands stops word (front ++ d :: before) after (front ++ d :: back) := by
  refine ⟨by simp only [h.eq, List.append_assoc, List.cons_append], ?_, h.right⟩
  intro c hc
  rw [List.getLast?_append, List.getLast?_cons, Option.some_or, Option.mem_some_iff] at hc
  cases hlast : before.getLast? with
  | none =>
    rw [hlast] at hc
    exact hc ▸ hd
  | some last =>
    rw [hlast] at hc
    exact hc ▸ h.left last hlast

/-- A word does not reach across a stop. -/
theorem Stands.cases_of_stop (hword : Uncut stops word) (hd : stops d)
    (h : Stands stops word before after (front ++ d :: back)) :
    (∃ rest, after = rest ++ d :: back ∧ Stands stops word before rest front) ∨
      ∃ rest, before = front ++ d :: rest ∧ Stands stops word rest after back := by
  have hnot : d ∉ word.toList := by
    intro hmem
    rw [hword.not_stop d hmem] at hd
    cases hd
  have heq := h.eq
  rw [List.append_assoc] at heq
  rcases List.append_eq_append_iff.1 heq with ⟨rest, hbefore, hrest⟩ | ⟨rest, hfront, hrest⟩
  · rcases List.cons_eq_append_iff.1 hrest with ⟨-, hword'⟩ | ⟨rest, rfl, hback⟩
    · -- The stop would be the first character of the word.
      rcases List.append_eq_cons_iff.1 hword' with ⟨hnil, -⟩ | ⟨letters, hletters, -⟩
      · exact absurd hnil hword.ne_nil
      · exact absurd (hletters ▸ List.mem_cons_self) hnot
    · refine .inr ⟨rest, hbefore, by rw [hback, List.append_assoc], ?_, h.right⟩
      intro c hc
      refine h.left c ?_
      rw [hbefore, List.getLast?_append, List.getLast?_cons, hc]
      rfl
  · rcases List.append_eq_append_iff.1 hrest with ⟨more, hrestEq, hafter⟩ | ⟨more, hword', hback⟩
    · refine .inl ⟨more, hafter, by rw [hfront, hrestEq, List.append_assoc], h.left, ?_⟩
      intro c hc
      refine h.right c ?_
      rw [hafter, List.head?_append, hc]
      rfl
    · rcases List.cons_eq_append_iff.1 hback with ⟨rfl, hafter⟩ | ⟨letters, rfl, -⟩
      · refine .inl ⟨[], hafter, ?_, h.left, by simp⟩
        rw [hword', List.append_nil, List.append_nil, hfront]
      · exact absurd (hword' ▸ List.mem_append_right rest List.mem_cons_self) hnot

/-- Inside an enclosed text a word has its parentheses further out. -/
theorem Stands.cases_of_enclosed (hword : Uncut isDelimiter word)
    (h : Stands isDelimiter word before after ('(' :: (cs ++ [')']))) :
    ∃ start rest, before = '(' :: start ∧ after = rest ++ [')'] ∧ Stands isDelimiter word start rest cs := by
  have hopen : Stands isDelimiter word before after ([] ++ '(' :: (cs ++ ')' :: [])) := h
  rcases hopen.cases_of_stop hword rfl with ⟨_, -, hin⟩ | ⟨start, hbefore, hclose⟩
  · exact absurd hin (not_stands_nil hword)
  · rcases hclose.cases_of_stop hword rfl with ⟨rest, hafter, hin⟩ | ⟨_, -, hin⟩
    · exact ⟨start, rest, hbefore, hafter, hin⟩
    · exact absurd hin (not_stands_nil hword)

/-! ### Text without keywords -/

/-- The words that conditions are joined and negated by. -/
def keywords : List String :=
  ["AND", "OR", "NOT"]

/-- No keyword stands in a text. -/
def Free (stops : Char → Bool) (cs : List Char) : Prop :=
  ∀ word ∈ keywords, ∀ before after, ¬ Stands stops word before after cs

theorem Free.delimited (h : Free isBreak cs) : Free isDelimiter cs :=
  fun word hword before after hstands =>
    h word hword before after (hstands.mono fun _ => isBreak_of_isDelimiter)

/-- A text without stops that is no keyword. -/
def IsPiece (stops : Char → Bool) (s : String) : Prop :=
  (s.toList.all fun c => !stops c) ∧ s ∉ keywords

instance (stops : Char → Bool) (s : String) : Decidable (IsPiece stops s) :=
  inferInstanceAs (Decidable (_ ∧ _))

theorem IsPiece.no_stop {s : String} (h : IsPiece stops s) : ∀ c ∈ s.toList, stops c = false := by
  intro c hc
  have hc := List.all_eq_true.1 h.1 c hc
  rwa [Bool.not_eq_true'] at hc

theorem IsPiece.free {s : String} (h : IsPiece stops s) : Free stops s.toList := by
  intro word hword before after hstands
  have hall := (hstands.eq_of_no_stop h.no_stop).2.2
  rw [String.toList_inj] at hall
  exact h.2 (hall ▸ hword)

section Breaks

variable (hstops : ∀ c, stops c → isBreak c)

include hstops

theorem uncut_of_mem_keywords (h : word ∈ keywords) : Uncut stops word := by
  have hkeywords : ∀ word ∈ keywords, word.toList ≠ [] ∧ word.toList.all fun c => !isBreak c := by decide
  obtain ⟨hne, hchars⟩ := hkeywords word h
  refine ⟨hne, fun c hc => ?_⟩
  have hbreak := List.all_eq_true.1 hchars c hc
  rw [Bool.not_eq_true'] at hbreak
  exact Bool.eq_false_iff.2 fun hstop => Bool.eq_false_iff.1 hbreak (hstops c hstop)

theorem free_nil : Free stops [] :=
  fun _ hword _ _ => not_stands_nil (uncut_of_mem_keywords hstops hword)

theorem free_append_cons (hd : stops d) : Free stops (front ++ d :: back) ↔ Free stops front ∧ Free stops back := by
  constructor
  · intro h
    exact ⟨fun word hword before after hstands => h word hword _ _ (hstands.in_front hd back),
      fun word hword before after hstands => h word hword _ _ (hstands.in_back hd front)⟩
  · rintro ⟨hfront, hback⟩ word hword before after hstands
    rcases hstands.cases_of_stop (uncut_of_mem_keywords hstops hword) hd with ⟨rest, -, hin⟩ | ⟨rest, -, hin⟩
    · exact hfront word hword _ _ hin
    · exact hback word hword _ _ hin

theorem free_append_of_last (hlast : ∀ c ∈ front.getLast?, stops c) :
    Free stops (front ++ back) ↔ Free stops front ∧ Free stops back := by
  rcases List.eq_nil_or_concat' front with rfl | ⟨start, d, rfl⟩
  · exact (and_iff_right (free_nil hstops)).symm
  · have hd : stops d := hlast d List.getLast?_concat
    rw [List.append_assoc, List.singleton_append, free_append_cons hstops hd, free_append_cons hstops hd,
      and_iff_left (free_nil hstops)]

theorem free_append_of_head (hhead : ∀ c ∈ back.head?, stops c) :
    Free stops (front ++ back) ↔ Free stops front ∧ Free stops back := by
  cases back with
  | nil =>
    rw [List.append_nil]
    exact (and_iff_left (free_nil hstops)).symm
  | cons d rest =>
    have hd : stops d := hhead d rfl
    have hrest : Free stops (d :: rest) ↔ Free stops rest := by
      have hsplit : Free stops ([] ++ d :: rest) ↔ Free stops [] ∧ Free stops rest := free_append_cons hstops hd
      rwa [List.nil_append, and_iff_right (free_nil hstops)] at hsplit
    rw [free_append_cons hstops hd, hrest]

end Breaks

end PathQuery.Text
