import PathQuery.Proofs.Condition.Meaning
import PathQuery.Proofs.Parentheses
import PathQuery.Proofs.Qualification
import PathQuery.Proofs.Substitution
/-!
# Filter text groups in one way

Whoever reads the text of a filter does not need to know which connective binds tighter. No connective stands
outside all parentheses, those directly inside one pair of them are the same, and what is negated has a pair
of its own. The leaves bring no connective with them: their names are no keywords, and what renaming puts in
the place of a path has a dot or is one of these names.
-/

namespace PathQuery

namespace Text

/-- The connectives that stand outside all parentheses of a text. -/
def Directly (outer : Connective → Prop) (cs : List Char) : Prop :=
  ∀ (c : Connective) (before after : List Char),
    Stands isDelimiter c.text before after cs → depth before = 0 → outer c

/-- A paired text with one connective for each pair of parentheses. -/
structure Uniform (outer : Connective → Prop) (cs : List Char) : Prop where
  paired : Paired cs
  outside : Directly outer cs
  inside : ∀ front inner back, cs = front ++ '(' :: (inner ++ ')' :: back) → Paired inner →
    ∃ c, Directly (· = c) inner

/-- What stands around a negation: an opening parenthesis, and what is negated in parentheses of its own. -/
def Negates (before after : List Char) : Prop :=
  ∃ start inner rest, before = start ++ ['('] ∧ after = ' ' :: '(' :: (inner ++ ')' :: ')' :: rest) ∧
    Paired inner

def Negated (cs : List Char) : Prop :=
  ∀ before after, Stands isDelimiter "NOT" before after cs → Negates before after

structure Grouped (outer : Connective → Prop) (cs : List Char) : Prop where
  uniform : Uniform outer cs
  negated : Negated cs

theorem uncut_text (c : Connective) : Uncut isDelimiter c.text :=
  uncut_of_mem_keywords (fun _ => isBreak_of_isDelimiter) (by cases c <;> decide)

theorem uncut_not : Uncut isDelimiter "NOT" :=
  uncut_of_mem_keywords (fun _ => isBreak_of_isDelimiter) (by decide)

/-! ### Negations -/

theorem Negates.extend {before after : List Char} (h : Negates before after) (front back : List Char) :
    Negates (front ++ before) (after ++ back) := by
  obtain ⟨start, inner, rest, rfl, rfl, hinner⟩ := h
  refine ⟨front ++ start, inner, rest ++ back, by rw [List.append_assoc], ?_, hinner⟩
  simp only [List.cons_append, List.append_assoc]

section Texts

variable {outer : Connective → Prop} {c : Connective} {cs front back : List Char}

theorem Negated.spaced (hfront : Negated front) (hback : Negated back) : Negated (front ++ ' ' :: back) := by
  intro before after hstands
  rcases hstands.cases_of_stop uncut_not rfl with ⟨rest, rfl, hin⟩ | ⟨rest, rfl, hin⟩
  · exact (hfront before rest hin).extend [] _
  · have hnegates := (hback rest after hin).extend (front ++ [' ']) []
    rwa [List.append_assoc, List.append_nil] at hnegates

theorem Negated.enclosed (h : Negated cs) : Negated ('(' :: (cs ++ [')'])) := by
  intro before after hstands
  obtain ⟨start, rest, rfl, rfl, hin⟩ := hstands.cases_of_enclosed uncut_not
  exact (h start rest hin).extend ['('] [')']

/-! ### Connectives -/

theorem Directly.mono {other : Connective → Prop} (hsub : ∀ c, outer c → other c) (h : Directly outer cs) :
    Directly other cs :=
  fun c before after hstands hdepth => hsub c (h c before after hstands hdepth)

theorem Uniform.mono {other : Connective → Prop} (hsub : ∀ c, outer c → other c) (h : Uniform outer cs) :
    Uniform other cs :=
  ⟨h.paired, h.outside.mono hsub, h.inside⟩

/-- A text without delimiters is at most a connective itself. -/
theorem uniform_of_no_stop (hcs : ∀ d ∈ cs, isDelimiter d = false)
    (houter : ∀ c : Connective, cs = c.text.toList → outer c) : Uniform outer cs := by
  have hbare := bare_of_no_stop (fun _ => id) hcs
  refine ⟨hbare.paired, fun c before after hstands _ => houter c (hstands.eq_of_no_stop hcs).2.2, ?_⟩
  rintro front inner back rfl
  exact absurd (List.mem_append_right front List.mem_cons_self) hbare.1

/-- A paired text without keywords is grouped, whatever is around it. -/
theorem grouped_of_free (hpaired : Paired cs) (hfree : Free isDelimiter cs) : Grouped outer cs := by
  have hnone : ∀ (c : Connective) (before after : List Char), ¬ Stands isDelimiter c.text before after cs :=
    fun c => hfree c.text (by cases c <;> decide)
  refine ⟨⟨hpaired, fun c before after hstands _ => absurd hstands (hnone c before after), ?_⟩,
    fun before after hstands => absurd hstands (hfree "NOT" (by decide) before after)⟩
  rintro front inner back rfl -
  refine ⟨.and, fun c before after hstands _ => ?_⟩
  exact absurd ((hstands.in_front rfl back).in_back rfl front) (hnone c _ _)

theorem Uniform.spaced (hfront : Uniform outer front) (hback : Uniform outer back) :
    Uniform outer (front ++ ' ' :: back) := by
  have hblank : Bare [' '] := by decide
  refine ⟨hfront.paired.append (hblank.paired.append hback.paired), ?_, ?_⟩
  · intro c before after hstands hdepth
    rcases hstands.cases_of_stop (uncut_text c) rfl with ⟨rest, -, hin⟩ | ⟨rest, rfl, hin⟩
    · exact hfront.outside c before rest hin hdepth
    · refine hback.outside c rest after hin ?_
      have hrest : depth (' ' :: rest) = depth rest := by
        rw [← List.singleton_append, depth_append, hblank.depth, Int.zero_add]
      rwa [depth_append, hfront.paired.closed, Int.zero_add, hrest] at hdepth
  · intro left inner right hpair hinner
    rcases hfront.paired.pair_cases hinner hpair with ⟨rest, hin⟩ | ⟨rest, hin⟩
    · exact hfront.inside left inner rest hin hinner
    · rcases List.cons_eq_append_iff.1 hin with ⟨-, hopen⟩ | ⟨rest, -, hin⟩
      · cases hopen
      · exact hback.inside rest inner right hin hinner

/-- Parentheses around a text take its connectives in. -/
theorem Uniform.enclosed (h : Uniform (· = c) cs) : Uniform (fun _ => False) ('(' :: (cs ++ [')'])) := by
  refine ⟨h.paired.enclosed, ?_, ?_⟩
  · intro other before after hstands hdepth
    obtain ⟨start, rest, rfl, -, hin⟩ := hstands.cases_of_enclosed (uncut_text other)
    have hnonneg := hin.depth_nonneg h.paired
    rw [depth_open] at hdepth
    omega
  · intro front inner back hpair hinner
    rcases h.paired.pair_enclosed hinner hpair with rfl | ⟨before, after, hin⟩
    · exact ⟨c, h.outside⟩
    · exact h.inside before inner after hin hinner

/-! ### Grouped texts -/

theorem Grouped.mono {other : Connective → Prop} (hsub : ∀ c, outer c → other c) (h : Grouped outer cs) :
    Grouped other cs :=
  ⟨h.uniform.mono hsub, h.negated⟩

theorem Grouped.spaced (hfront : Grouped outer front) (hback : Grouped outer back) :
    Grouped outer (front ++ ' ' :: back) :=
  ⟨hfront.uniform.spaced hback.uniform, hfront.negated.spaced hback.negated⟩

theorem Grouped.enclosed (h : Grouped (· = c) cs) : Grouped (fun _ => False) ('(' :: (cs ++ [')'])) :=
  ⟨h.uniform.enclosed, h.negated.enclosed⟩

theorem grouped_text (c : Connective) : Grouped (· = c) c.text.toList := by
  have hno : ∀ d ∈ c.text.toList, isDelimiter d = false := (uncut_text c).not_stop
  refine ⟨uniform_of_no_stop hno ?_, ?_⟩
  · intro other hsame
    cases c <;> cases other <;> first | rfl | exact absurd hsame (by decide)
  · intro before after hstands
    have hsame := (hstands.eq_of_no_stop hno).2.2
    cases c <;> exact absurd hsame (by decide)

/-- A negation is grouped in itself, and what is negated may have connectives of its own. -/
theorem Grouped.negation (h : Grouped (· = c) cs) :
    Grouped (fun _ => False) ('(' :: ("NOT".toList ++ ' ' :: '(' :: (cs ++ [')']) ++ [')'])) := by
  have hinner := h.enclosed
  have hnot : Uniform (fun _ => False) "NOT".toList :=
    uniform_of_no_stop uncut_not.not_stop fun c hsame => by cases c <;> exact absurd hsame (by decide)
  refine ⟨((hnot.spaced hinner.uniform).mono fun _ => False.elim).enclosed (c := .and), ?_⟩
  intro before after hstands
  obtain ⟨start, rest, rfl, rfl, hin⟩ := hstands.cases_of_enclosed uncut_not
  rcases hin.cases_of_stop uncut_not rfl with ⟨behind, rfl, hword⟩ | ⟨behind, rfl, hwithin⟩
  · -- This is the word in front of the inner parentheses.
    obtain ⟨rfl, rfl, -⟩ := hword.eq_of_no_stop uncut_not.not_stop
    refine ⟨[], cs, [], rfl, ?_, h.uniform.paired⟩
    simp only [List.nil_append, List.cons_append, List.append_assoc]
  · have hnegates := (hinner.negated behind rest hwithin).extend ('(' :: "NOT".toList ++ [' ']) [')']
    rwa [List.append_assoc] at hnegates

/-- Parts that are joined by one connective have no other outside their parentheses. -/
theorem grouped_joinWith (c : Connective) {parts : List String}
    (h : ∀ part ∈ parts, Grouped (fun _ => False) part.toList) :
    Grouped (· = c) (joinWith c.between parts).toList := by
  have hwiden : ∀ {cs}, Grouped (fun _ => False) cs → Grouped (· = c) cs :=
    fun hcs => hcs.mono fun _ => False.elim
  rw [c.between_eq]
  induction parts with
  | nil =>
    exact grouped_of_free paired_nil (free_nil fun _ => isBreak_of_isDelimiter)
  | cons part rest ih =>
    obtain ⟨hpart, hrest⟩ := List.forall_mem_cons.1 h
    by_cases hnil : rest = []
    · rw [hnil, joinWith_singleton]
      exact hwiden hpart
    · have hjoined := (hwiden hpart).spaced ((grouped_text c).spaced (ih hrest))
      rw [joinWith_cons _ _ hnil]
      simp only [String.toList_append, List.append_assoc]
      exact hjoined

end Texts

end Text

open Text

/-! ### Formulas -/

theorem Connective.grouped_spell (c : Connective) (negated grouped : Bool) {parts : List String}
    (h : ∀ part ∈ parts, Grouped (fun _ => False) part.toList) :
    Grouped (fun _ => False) (c.spell negated grouped parts).toList := by
  have hjoined := grouped_joinWith c h
  rw [spell]
  split
  · have hnegation := hjoined.negation
    simp only [List.cons_append, List.append_assoc] at hnegation
    simp only [String.toList_append, List.append_assoc]
    exact hnegation
  · split
    · simp only [String.toList_append, List.append_assoc]
      exact hjoined.enclosed
    · -- There is one part at most, and so no connective.
      rename_i hfew
      rcases parts with _ | ⟨part, _ | ⟨next, rest⟩⟩
      · exact grouped_of_free paired_nil (free_nil fun _ => isBreak_of_isDelimiter)
      · exact h part List.mem_cons_self
      · exact absurd (.inl (Nat.succ_lt_succ rest.length.succ_pos)) hfew

mutual

/-- The text of a formula is grouped if the texts of its leaves are. -/
theorem Formula.grouped (f : Formula (Place × Sql))
    (h : ∀ piece ∈ f.leaves, Grouped (fun _ => False) piece.2.text.toList) :
    Grouped (fun _ => False) f.text.toList := by
  cases f with
  | leaf piece => exact h piece List.mem_cons_self
  | group connective negated grouped parts =>
    rw [Formula.leaves_group] at h
    rw [Formula.text_group]
    exact connective.grouped_spell negated grouped (formulas_grouped parts h)

theorem formulas_grouped (parts : List (Formula (Place × Sql)))
    (h : ∀ piece ∈ parts.flatMap Formula.leaves, Grouped (fun _ => False) piece.2.text.toList) :
    ∀ text ∈ parts.map Formula.text, Grouped (fun _ => False) text.toList := by
  cases parts with
  | nil =>
    intro text htext
    cases htext
  | cons part rest =>
    rw [List.flatMap_cons, List.forall_mem_append] at h
    rw [List.map_cons, List.forall_mem_cons]
    exact ⟨part.grouped h.1, formulas_grouped rest h.2⟩

end

/-! ### Lookups -/

/-- Letters, digits and underscores, if anything. -/
def Lettered (s : String) : Prop :=
  s.toList.all isWordChar

instance (s : String) : Decidable (Lettered s) :=
  inferInstanceAs (Decidable (_ = true))

/-- A name that is no keyword. -/
def IsName (s : String) : Prop :=
  Lettered s ∧ s ∉ keywords

instance (s : String) : Decidable (IsName s) :=
  inferInstanceAs (Decidable (_ ∧ _))

/-- Expressions without raw text whose names are no keywords. -/
def Expr.Named : Expr → Prop
  | .column source field => IsName source ∧ IsName field
  | .call function argument => IsName function ∧ argument.Named
  | .countAll => True
  | .raw _ => False

instance Expr.decidableNamed : (e : Expr) → Decidable e.Named
  | .column source field => inferInstanceAs (Decidable (IsName source ∧ IsName field))
  | .call function argument =>
    have := argument.decidableNamed
    inferInstanceAs (Decidable (IsName function ∧ argument.Named))
  | .countAll => .isTrue trivial
  | .raw _ => .isFalse id

theorem isBreak_of_isWordChar {c : Char} (h : isWordChar c) : isBreak c = false := by
  have hno : ∀ {d : Char}, isWordChar d = false → c ≠ d := by
    rintro d hd rfl
    rw [hd] at h
    cases h
  simp only [isBreak, isDelimiter, Bool.or_eq_false_iff, beq_eq_false_iff_ne]
  exact ⟨⟨⟨hno (by decide), hno (by decide)⟩, hno (by decide)⟩, hno (by decide)⟩

theorem IsName.isPiece {s : String} (h : IsName s) : IsPiece isBreak s := by
  refine ⟨List.all_eq_true.2 fun c hc => ?_, h.2⟩
  rw [isBreak_of_isWordChar (List.all_eq_true.1 h.1 c hc)]
  rfl

/-- A paired text without keywords. -/
structure Keyless (stops : Char → Bool) (cs : List Char) : Prop where
  paired : Paired cs
  free : Free stops cs

theorem keyless_of_isPiece {s : String} (h : IsPiece isBreak s) : Keyless isBreak s.toList :=
  ⟨(bare_of_no_stop (fun _ => isBreak_of_isDelimiter) h.no_stop).paired, h.free⟩

namespace Keyless

variable {front back : List Char}

theorem behind {d : Char} (hd : d = ' ' ∨ d = '.') (hfront : Keyless isBreak front) (hback : Keyless isBreak back) :
    Keyless isBreak (front ++ d :: back) := by
  have hstop : isBreak d := by rcases hd with rfl | rfl <;> decide
  have hbare : Bare [d] := by rcases hd with rfl | rfl <;> decide
  exact ⟨hfront.paired.append (hbare.paired.append hback.paired),
    (free_append_cons (fun _ => id) hstop).2 ⟨hfront.free, hback.free⟩⟩

theorem called (hfront : Keyless isBreak front) (hback : Keyless isBreak back) :
    Keyless isBreak (front ++ '(' :: (back ++ [')'])) := by
  have hinner : Free isBreak (back ++ [')']) :=
    (free_append_cons (fun _ => id) rfl).2 ⟨hback.free, free_nil fun _ => id⟩
  exact ⟨hfront.paired.append hback.paired.enclosed,
    (free_append_cons (fun _ => id) rfl).2 ⟨hfront.free, hinner⟩⟩

end Keyless

theorem Expr.keyless_render {e : Expr} (he : e.Named) : Keyless isBreak e.render.text.toList := by
  induction e with
  | column source field =>
    have hjoined := (keyless_of_isPiece he.1.isPiece).behind (.inr rfl) (keyless_of_isPiece he.2.isPiece)
    show Keyless isBreak (source ++ "." ++ field).toList
    rw [String.append_assoc, String.toList_append, String.toList_append]
    exact hjoined
  | call function argument ih =>
    have hcall := (keyless_of_isPiece he.1.isPiece).called (ih he.2)
    show Keyless isBreak (function ++ "(" ++ argument.render.text ++ ")").toList
    simp only [String.toList_append, List.append_assoc]
    exact hcall
  | countAll =>
    have hcount : Keyless isBreak "COUNT".toList := keyless_of_isPiece (by decide)
    have hid : Keyless isBreak "Id".toList := keyless_of_isPiece (by decide)
    exact hcount.called hid
  | raw sql => exact he.elim

theorem keyless_placeholders (n : Nat) : Keyless isBreak (Sql.placeholders n).toList := by
  have hone : Keyless isBreak "%s".toList := keyless_of_isPiece (by decide)
  have hcomma : Keyless isBreak "%s,".toList := keyless_of_isPiece (by decide)
  induction n with
  | zero => exact keyless_of_isPiece (by decide : IsPiece isBreak "")
  | succ n ih =>
    cases n with
    | zero => exact hone
    | succ n =>
      have hjoin : Sql.placeholders (n + 1 + 1) = "%s," ++ (" " ++ Sql.placeholders (n + 1)) := by
        rw [← String.append_assoc]
        rfl
      rw [hjoin, String.toList_append, String.toList_append]
      exact hcomma.behind (.inl rfl) ih

/-- Two pieces with a blank between them. -/
theorem keyless_pieces {s t text : String} (hs : IsPiece isBreak s) (ht : IsPiece isBreak t)
    (htext : text = s ++ " " ++ t) : Keyless isBreak text.toList := by
  rw [htext, String.append_assoc, String.toList_append, String.toList_append]
  exact (keyless_of_isPiece hs).behind (.inl rfl) (keyless_of_isPiece ht)

theorem Compares.keyless {tail : Tail} {values : List Value} (h : Compares tail values) :
    Keyless isBreak tail.text.toList := by
  cases h with
  | null negated =>
    have hnull : IsPiece isBreak "null" := by decide
    cases negated with
    | false => exact keyless_pieces (by decide : IsPiece isBreak "=") hnull (by decide +kernel)
    | true => exact keyless_pieces (by decide : IsPiece isBreak "!=") hnull (by decide +kernel)
  | member values =>
    have hin : Keyless isBreak "IN".toList := keyless_of_isPiece (by decide)
    have hempty : Keyless isBreak "".toList := keyless_of_isPiece (by decide)
    have htail := hin.behind (.inl rfl) (hempty.called (keyless_placeholders values.length))
    show Keyless isBreak ("IN (" ++ (Sql.placeholders values.length ++ ")")).toList
    rw [String.toList_append, String.toList_append]
    exact htail
  | @operator kind operator hoperator value =>
    have hmark : IsPiece isBreak "%s" := by decide
    have hpiece : IsPiece isBreak operator := by cases kind <;> cases hoperator <;> decide
    refine keyless_pieces hpiece hmark ?_
    rw [String.append_assoc]
    rfl
  | pattern value =>
    have hmark : IsPiece isBreak "%s" := by decide
    exact keyless_pieces (by decide : IsPiece isBreak "LIKE") hmark (by decide +kernel)

theorem Lookup.keyless_predicate {l : Lookup} (hl : l.lhs.Named) {sql : Sql} {resolved : Bool}
    (h : l.predicate = .ok (.sql sql resolved)) : resolved = false ∧ Keyless isBreak sql.text.toList := by
  rcases predicate_cases h with hnothing | ⟨tail, values, htail, hpredicate⟩
  · cases hnothing
  · cases h.symm.trans (hpredicate l.lhs)
    have hjoined := (Expr.keyless_render hl).behind (.inl rfl) htail.keyless
    refine ⟨rfl, ?_⟩
    rw [String.append_assoc, String.toList_append, String.toList_append]
    exact hjoined

/-! ### Renaming -/

/-- Letters, digits, underscores and dots. -/
def Dotted (s : String) : Prop :=
  ∀ c ∈ s.toList, isWordChar c ∨ c = '.'

theorem dotted_append {s t : String} : Dotted (s ++ t) ↔ Dotted s ∧ Dotted t := by
  simp only [Dotted, String.toList_append, List.forall_mem_append]

theorem Text.IsWord.dotted {s : String} (h : IsWord s) : Dotted s :=
  fun c hc => .inl (h.2 c hc)

theorem Lettered.dotted {s : String} (h : Lettered s) : Dotted s :=
  fun c hc => .inl (List.all_eq_true.1 h c hc)

theorem dotted_dot : Dotted "." := by
  intro c hc
  exact .inr (List.mem_singleton.1 hc)

theorem Dotted.not_delimiter {s : String} (h : Dotted s) : ∀ c ∈ s.toList, isDelimiter c = false := by
  intro c hc
  rcases h c hc with hword | rfl
  · exact (Bool.or_eq_false_iff.1 (isBreak_of_isWordChar hword)).1
  · rfl

theorem Dotted.isPiece {s : String} (h : Dotted s) (hne : s ∉ keywords) : IsPiece isDelimiter s := by
  refine ⟨List.all_eq_true.2 fun c hc => ?_, hne⟩
  rw [h.not_delimiter c hc]
  rfl

theorem not_keyword_of_dot {s : String} (h : '.' ∈ s.toList) : s ∉ keywords := by
  have hkeywords : ∀ word ∈ keywords, '.' ∉ word.toList := by decide
  exact fun hs => hkeywords s hs h

theorem Text.Free.not_keyword {stops : Char → Bool} {s : String} (h : Free stops s.toList) : s ∉ keywords := by
  intro hs
  refine h s hs [] [] ⟨?_, by simp, by simp⟩
  rw [List.nil_append, List.append_nil]

theorem dotted_joinWith {parts : List String} (h : ∀ part ∈ parts, IsWord part) :
    Dotted (joinWith "." parts) := by
  intro c hc
  rcases mem_joinWith hc with hdot | ⟨part, hpart, hc⟩
  · exact dotted_dot c hdot
  · exact (h part hpart).dotted c hc

namespace Fragment

theorem eq_open_of_last_head (f : Fragment) : ∀ c ∈ f.head.toList.getLast?, c = '(' := by
  obtain ⟨functions, path, closings, tail⟩ := f
  induction functions with
  | nil =>
    intro c hc
    cases hc
  | cons function rest ih =>
    intro c hc
    rw [head, List.map_cons, joinWith_empty_cons, String.toList_append, List.getLast?_append,
      String.toList_append, List.getLast?_append] at hc
    cases hlast : (joinWith "" (rest.map (· ++ "("))).toList.getLast? with
    | none =>
      rw [hlast] at hc
      exact (Option.some.inj hc).symm
    | some last =>
      rw [hlast] at hc
      exact ih c (hlast.trans hc)

theorem isDelimiter_of_head_ending (f : Fragment) : ∀ c ∈ f.ending.toList.head?, isDelimiter c := by
  obtain ⟨functions, path, closings, tail⟩ := f
  intro c hc
  rw [ending, String.toList_append, String.toList_ofList] at hc
  cases closings with
  | succ n =>
    cases hc
    rfl
  | zero =>
    cases tail with
    | none => cases hc
    | some tail =>
      rw [List.replicate_zero, List.nil_append, Option.elim_some, String.toList_append] at hc
      cases hc
      rfl

/-- Whatever stands in the place of the path, no keyword reaches into what is around it. -/
theorem free_spell_iff {stops : Char → Bool} (hstops : ∀ c, stops c → isBreak c)
    (hdelimiter : ∀ c, isDelimiter c → stops c) (f : Fragment) (core : String) :
    Free stops (f.head ++ core ++ f.ending).toList ↔
      (Free stops f.head.toList ∧ Free stops core.toList) ∧ Free stops f.ending.toList := by
  have hlast : ∀ c ∈ f.head.toList.getLast?, stops c :=
    fun c hc => hdelimiter c (f.eq_open_of_last_head c hc ▸ rfl)
  have hhead : ∀ c ∈ f.ending.toList.head?, stops c :=
    fun c hc => hdelimiter c (f.isDelimiter_of_head_ending c hc)
  rw [String.toList_append, String.toList_append, free_append_of_head hstops hhead,
    free_append_of_last hstops hlast]

end Fragment

/-- The table and the foreign key of a join, if it has one, consist of letters, digits and underscores. -/
structure Join.Spelled (j : Join) : Prop where
  table : Lettered j.table
  key : ∀ link, j.Refers link → Lettered link.key

namespace Naming

variable {n : Naming} {joins : List Join} (hresolve : Tree.resolve joins = .ok n.tree)
  (hjoins : ∀ j ∈ joins, j.Spelled)

include hresolve hjoins

theorem Qualifies.dotted {name q : String} (h : n.Qualifies name q) : Dotted q := by
  have hpaths : ∀ {path}, n.tree.path? name = some path → Dotted path := by
    have hending : ∀ c ∈ "__r".toList, isWordChar c := List.all_eq_true.1 (by decide)
    intro path hpath
    refine Tree.path_chars hresolve (.inr rfl) (fun c hc => .inl (hending c hc)) ?_ hpath
    exact fun j hj link hlink => ((hjoins j hj).key link hlink).dotted
  have htables : ∀ {table}, n.tree.rootTable? = some table → Dotted table := by
    intro table htable
    obtain ⟨root, -, hroot⟩ := Option.bind_eq_some_iff.1 htable
    obtain ⟨j, hj, -, rfl⟩ := Tree.exists_join_of_table? hresolve hroot
    exact (hjoins j hj).table.dotted
  cases h with
  | minimal _ hpath => exact hpaths hpath
  | root _ _ htable => exact htables htable
  | below _ hpath _ htable =>
    exact dotted_append.2 ⟨dotted_append.2 ⟨htables htable, dotted_dot⟩, hpaths hpath⟩

/-- What stands in the place of a path is no keyword: it has a dot, or it is the name behind one. -/
theorem isPiece_qualified {f : Fragment} (hvalid : f.Valid) (hfree : Free isBreak f.text.toList)
    {name field : String} (hsplit : n.split? f.path = some (name, field)) :
    IsPiece isDelimiter (qualified (n.standsFor name) field) := by
  obtain ⟨hknown, hpath⟩ := split?_eq_some hsplit
  have hq : Dotted (n.standsFor name) := (qualifies_standsFor hresolve hknown).dotted hresolve hjoins
  have hfield : Dotted field ∧ field ∉ keywords := by
    rcases hpath with hpath | ⟨first, hpath, rfl⟩
    · have hword : IsWord field := hvalid.path field (by rw [hpath]; simp)
      have hcore := ((f.free_spell_iff (fun _ => id) (fun _ => isBreak_of_isDelimiter) _).1 hfree).1.2
      have hjoined : joinWith "." f.path = name ++ ("." ++ field) := by
        rw [hpath, ← String.append_assoc]
        rfl
      rw [hjoined, String.toList_append, String.toList_append] at hcore
      have hback : Free isBreak field.toList := ((free_append_cons (fun _ => id) rfl).1 hcore).2
      exact ⟨hword.dotted, hback.not_keyword⟩
    · have hword : IsWord first := hvalid.path first (by rw [hpath]; simp)
      have hkind : Dotted discriminator := (by decide : Lettered discriminator).dotted
      refine ⟨dotted_append.2 ⟨dotted_append.2 ⟨hword.dotted, dotted_dot⟩, hkind⟩, not_keyword_of_dot ?_⟩
      simp
  rw [qualified]
  split
  · exact hfield.1.isPiece hfield.2
  · refine (dotted_append.2 ⟨dotted_append.2 ⟨hq, dotted_dot⟩, hfield.1⟩).isPiece (not_keyword_of_dot ?_)
    simp

theorem keyless_rename {s t : String} (hs : Keyless isBreak s.toList) (h : (n.rename s).result = .ok t) :
    Keyless isDelimiter t.toList := by
  rcases rename_ok h with rfl | ⟨f, name, field, q, hparse, hsplit, hq, rfl⟩
  · exact ⟨hs.paired, hs.free.delimited⟩
  · obtain ⟨hvalid, rfl⟩ := Fragment.parse?_sound hparse
    have hknown := (Tree.path?_isSome_iff hresolve).1 (split?_eq_some hsplit).1
    cases hq.symm.trans (qualifier_eq hresolve hknown)
    have hpiece := isPiece_qualified hresolve hjoins hvalid hs.free hsplit
    have hbare := bare_of_no_stop (fun _ => id) hpiece.no_stop
    have hpath := bare_of_no_stop (fun _ => id) (dotted_joinWith hvalid.path).not_delimiter
    have hiff := f.free_spell_iff (fun _ => isBreak_of_isDelimiter) (fun _ => id)
    have haround := (hiff _).1 hs.free.delimited
    refine ⟨?_, (hiff _).2 ⟨⟨haround.1.1, hpiece.free⟩, haround.2⟩⟩
    have hpaired := hs.paired
    rw [Fragment.text, String.toList_append, String.toList_append] at hpaired
    rw [String.toList_append, String.toList_append]
    exact hpaired.replace hpath hbare

end Naming

/-! ### Filters -/

/-- Filters without raw text whose names are no keywords. -/
structure Filter.Named (g : Filter) : Prop where
  columns : ∀ e ∈ g.columns, e.Named
  no_raw : ∀ leaf ∈ (g.formula []).leaves, ∀ sql, leaf.2 ≠ .raw sql

section Filters

variable {n : Naming} {joins : List Join} (hresolve : Tree.resolve joins = .ok n.tree)
  (hjoins : ∀ j ∈ joins, j.Spelled) {g : Filter} (hg : g.Named)

include hresolve hjoins hg

theorem Filter.Named.piece {leaf : Place × Condition} (hleaf : leaf ∈ (g.formula []).leaves)
    {piece : Place × Sql} (hkeeps : FilterRules.Keeps { rename := n.rename } piece leaf) :
    Keyless isDelimiter piece.2.text.toList := by
  obtain ⟨text, resolved, -, hname, hcompiled⟩ := hkeeps.compiled
  have hkind := g.isLeaf_of_mem_leaves [] leaf hleaf
  have hraw := hg.no_raw leaf hleaf
  obtain ⟨place, c⟩ := leaf
  cases c with
  | group => exact hkind.elim
  | everything | nothing => cases hcompiled
  | raw sql => exact absurd rfl (hraw sql)
  | lookup l =>
    obtain ⟨rfl, hkeyless⟩ := Lookup.keyless_predicate (hg.columns _ hkind) hcompiled
    exact Naming.keyless_rename hresolve hjoins hkeyless hname

theorem Filter.Named.grouped {sql : Sql} {resolved : Bool}
    (h : (g.compile { rename := n.rename }).result = .ok (.sql sql resolved)) :
    Grouped (fun _ => False) sql.text.toList := by
  obtain ⟨-, f, hf⟩ := Filter.compile_settles (n.rename_proper Lookup.predicate) [] g h
  rw [← hf.text]
  refine f.grouped fun piece hpiece => ?_
  obtain ⟨leaf, hleaf, hkeeps⟩ := FilterRules.exists_leaf hf.leaves hpiece
  have hkeyless := hg.piece hresolve hjoins hleaf hkeeps
  exact grouped_of_free hkeyless.paired hkeyless.free

/-- **The text of a filter groups in one way.** Its parentheses match. No connective stands outside all of
them, and those that stand directly inside one pair are the same. A negation opens a pair, and what it negates
fills a pair inside. -/
theorem Filter.compile_groups_unambiguously {sql : Sql} {resolved : Bool}
    (h : (g.compile { rename := n.rename }).result = .ok (.sql sql resolved)) :
    Paired sql.text.toList ∧
      (∀ (c : Connective) (before after : List Char),
        Stands isDelimiter c.text before after sql.text.toList → 0 < depth before) ∧
      (∀ front inner back, sql.text.toList = front ++ '(' :: (inner ++ ')' :: back) → Paired inner →
        ∃ c, Directly (· = c) inner) ∧
      ∀ before after, Stands isDelimiter "NOT" before after sql.text.toList → Negates before after := by
  have hgrouped := hg.grouped hresolve hjoins h
  refine ⟨hgrouped.uniform.paired, ?_, hgrouped.uniform.inside, hgrouped.negated⟩
  intro c before after hstands
  have hnonneg := hstands.depth_nonneg hgrouped.uniform.paired
  have hne : depth before ≠ 0 := hgrouped.uniform.outside c before after hstands
  omega

end Filters

/-- Notes with the word they explain, whose relationship is spelled like a keyword. -/
def wordsOfNotes : List Join :=
  [.base "Note" "n", .single "n" "Word" "NOTId" "Id" "w"]

/-- Neither a note on a given word nor one of the given notes without a word. -/
def Filter.otherNotes : Filter :=
  { connective := .or
    negated := true
    children := [
      .lookup ⟨.column "w" "Name", .exact, .single (.text "or")⟩,
      .group (.all [.lookup ⟨.column "n" "Id", .oneOf, .list [.text "a", .text "b"]⟩,
        .lookup ⟨.column "w" "Name", .isNull, .single (.bool true)⟩])] }

theorem Filter.otherNotes_grouped :
    Tree.resolve wordsOfNotes = .ok (Naming.ofJoins wordsOfNotes []).tree ∧
      (∀ j ∈ wordsOfNotes, j.Spelled) ∧ Filter.otherNotes.Named ∧
      (Filter.otherNotes.compile { rename := (Naming.ofJoins wordsOfNotes []).rename }).result =
        .ok (.sql ⟨"(NOT (Note.NOT.Name = %s OR (Note.Id IN (%s, %s) AND Note.NOT.Name = null)))",
          [.text "or", .text "a", .text "b"]⟩ true) ∧
      Negates "(".toList " (Note.NOT.Name = %s OR (Note.Id IN (%s, %s) AND Note.NOT.Name = null)))".toList := by
  have hresolve := Naming.ofJoins_resolve [] (by decide +kernel : (Tree.resolve wordsOfNotes).toOption.isSome)
  have hjoins : ∀ j ∈ wordsOfNotes, j.Spelled := by
    refine List.forall_mem_cons.2 ⟨⟨by decide, nofun⟩, List.forall_mem_singleton.2 ⟨by decide, ?_⟩⟩
    intro link hlink
    obtain ⟨pair, hpair, hkey⟩ := hlink.key_mem
    cases List.mem_singleton.1 hpair
    rcases hkey with hkey | hkey <;> rw [hkey] <;> decide
  have hnamed : Filter.otherNotes.Named :=
    ⟨by decide, List.forall_mem_cons.2 ⟨nofun, List.forall_mem_cons.2
      ⟨nofun, List.forall_mem_singleton.2 nofun⟩⟩⟩
  have hcompile : ∀ rename : String → Report NamingError String,
      (rename "w.Name = %s").result = .ok "Note.NOT.Name = %s" →
      (rename "n.Id IN (%s, %s)").result = .ok "Note.Id IN (%s, %s)" →
      (rename "w.Name = null").result = .ok "Note.NOT.Name = null" →
      (Filter.otherNotes.compile { rename }).result = .ok (.sql
        ⟨"(NOT (Note.NOT.Name = %s OR (Note.Id IN (%s, %s) AND Note.NOT.Name = null)))",
          [.text "or", .text "a", .text "b"]⟩ true) := by
    intro rename hname hid hnull
    have habsorb : ∀ {p : Progress} {sql : Sql} {name : String}, sql.isEmpty = false →
        (rename sql.text).result = .ok name → (p.absorb { rename } (.sql sql false)).result =
          .ok { p with parts := p.parts ++ [name], params := p.params ++ sql.params } := by
      intro p sql name hne hrename
      rw [Progress.absorb, hne]
      exact Report.bind_result_eq_ok.2 ⟨name, Report.mapError_result_eq_ok.2 hrename, rfl⟩
    have hinner : (Condition.compile { rename } (.group (.all
        [.lookup ⟨.column "n" "Id", .oneOf, .list [.text "a", .text "b"]⟩,
          .lookup ⟨.column "w" "Name", .isNull, .single (.bool true)⟩]))).result =
        .ok (.sql ⟨"(Note.Id IN (%s, %s) AND Note.NOT.Name = null)", [.text "a", .text "b"]⟩ true) := by
      show (compileChildren { rename } .and false false { tally := ⟨2, 1⟩ } _).result = _
      rw [compileChildren_open rfl (habsorb rfl hid) rfl, compileChildren_open rfl (habsorb rfl hnull) rfl]
      rfl
    show (compileChildren { rename } .or true false { tally := ⟨1, 2⟩ } _).result = _
    rw [compileChildren_open rfl (habsorb rfl hname) rfl, compileChildren_open hinner rfl rfl]
    rfl
  have hsql := hcompile (Naming.ofJoins wordsOfNotes []).rename (by decide +kernel) (by decide +kernel)
    (by decide +kernel)
  refine ⟨hresolve, hjoins, hnamed, hsql, ?_⟩
  refine (compile_groups_unambiguously hresolve hjoins hnamed hsql).2.2.2 _ _ ⟨by decide +kernel, ?_, ?_⟩
  · rintro c ⟨⟩
    rfl
  · rintro c ⟨⟩
    rfl

end PathQuery
