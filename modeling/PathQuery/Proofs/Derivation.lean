import PathQuery.Proofs.Grammar
/-!
# The grammar of fragments

The grammar as a relation between fragments and texts, rule by rule, and without a reader: a rule says which
texts may stand for a part, not how the part is found. `ASC` and `DESC` are words, so the grammar takes them
for labels as well as for directions. Nothing else can be derived in two ways, and the reader accepts just the
texts that can be derived. Of the two ways it takes the direction.
-/

namespace PathQuery

open Text (IsWord joinWith)

/-! ### Rules -/

/-- The letters, the digits and the underscore. -/
def WordChar (c : Char) : Prop :=
  'A' ≤ c ∧ c ≤ 'Z' ∨ 'a' ≤ c ∧ c ≤ 'z' ∨ '0' ≤ c ∧ c ≤ '9' ∨ c = '_'

def Word (s : String) : Prop :=
  s ≠ "" ∧ ∀ c ∈ s.toList, WordChar c

inductive Direction : Bool → String → Prop
  | ascending : Direction false "ASC"
  | descending : Direction true "DESC"

inductive Tail.Derives : Tail → String → Prop
  | oneOf (items : String) : Derives (.oneOf false items) ("IN (" ++ items)
  | noneOf (items : String) : Derives (.oneOf true items) ("NOT IN (" ++ items)
  | isNull : Derives (.nullCheck false) "= null"
  | isNotNull : Derives (.nullCheck true) "!= null"
  | like : Derives .like "LIKE %s"
  | ordering {descending : Bool} {direction : String} (h : Direction descending direction) :
      Derives (.ordering descending none) direction
  | nullsFirst {descending : Bool} {direction : String} (h : Direction descending direction) :
      Derives (.ordering descending (some .first)) (direction ++ " NULLS FIRST")
  | nullsLast {descending : Bool} {direction : String} (h : Direction descending direction) :
      Derives (.ordering descending (some .last)) (direction ++ " NULLS LAST")
  | comparison {operator : String} (hne : operator ≠ "")
      (hchars : ∀ c ∈ operator.toList, c = '!' ∨ c = '<' ∨ c = '>' ∨ c = '=') :
      Derives (.comparison operator) (operator ++ " %s")
  | label {name : String} (hname : Word name) : Derives (.label name) name

namespace Fragment

/-- Function names, each with an opening parenthesis behind it. -/
inductive Calls : List String → String → Prop
  | none : Calls [] ""
  | call {function text : String} {functions : List String} (hfunction : Word function)
      (h : Calls functions text) : Calls (function :: functions) (function ++ "(" ++ text)

/-- Words with dots between them. -/
inductive Dotted : List String → String → Prop
  | word {step : String} (hstep : Word step) : Dotted [step] step
  | dot {step text : String} {path : List String} (hstep : Word step) (h : Dotted path text) :
      Dotted (step :: path) (step ++ "." ++ text)

/-- Closing parentheses, and then nothing or a blank and a tail. -/
inductive Ends : Nat → Option Tail → String → Prop
  | bare : Ends 0 none ""
  | tail {tail : Tail} {text : String} (h : tail.Derives text) : Ends 0 (some tail) (" " ++ text)
  | close {closings : Nat} {tail : Option Tail} {text : String} (h : Ends closings tail text) :
      Ends (closings + 1) tail (")" ++ text)

/-- The three parts that the text of a fragment is made of. -/
structure Derives (f : Fragment) (head core ending : String) : Prop where
  head : Calls f.functions head
  core : Dotted f.path core
  ending : Ends f.closings f.tail ending

end Fragment

/-! ### Words -/

theorem wordChar_iff {c : Char} : WordChar c ↔ Text.isWordChar c := by
  show _ ↔ (decide (c.val ≥ 'A'.val ∧ c.val ≤ 'Z'.val) || (decide (c.val ≥ 'a'.val) && decide (c.val ≤ 'z'.val)) ||
    (decide (c.val ≥ '0'.val) && decide (c.val ≤ '9'.val)) || c == '_') = true
  simp [WordChar, Char.le_def, or_assoc]

theorem word_iff {s : String} : Word s ↔ IsWord s := by
  simp only [Word, IsWord, wordChar_iff]

/-! ### Tails -/

/-- The tail with a label that spells a direction taken for that direction. -/
def Tail.directed : Tail → Tail
  | .label name =>
    if name = "ASC" then .ordering false none else if name = "DESC" then .ordering true none else .label name
  | tail => tail

theorem Tail.directed_text (tail : Tail) : tail.directed.text = tail.text := by
  cases tail with
  | label name =>
    by_cases hasc : name = "ASC"
    · subst hasc
      rfl
    · by_cases hdesc : name = "DESC"
      · subst hdesc
        rfl
      · simp [directed, hasc, hdesc]
  | _ => rfl

theorem Tail.Valid.directed {tail : Tail} (h : tail.Valid) : tail.directed = tail := by
  cases tail with
  | label name =>
    obtain ⟨-, hasc, hdesc⟩ := h
    simp [Tail.directed, hasc, hdesc]
  | _ => rfl

theorem isOperatorChar_iff {c : Char} :
    Fragment.isOperatorChar c ↔ c = '!' ∨ c = '<' ∨ c = '>' ∨ c = '=' := by
  simp [Fragment.isOperatorChar, or_assoc]

theorem direction_iff {descending : Bool} {text : String} :
    Direction descending text ↔ text = if descending then "DESC" else "ASC" := by
  constructor
  · intro h
    cases h <;> rfl
  · rintro rfl
    cases descending
    · exact .ascending
    · exact .descending

theorem Tail.directed_label_valid_iff {name : String} : (Tail.label name).directed.Valid ↔ Word name := by
  rw [word_iff]
  by_cases hasc : name = "ASC"
  · subst hasc
    exact iff_of_true trivial (by decide)
  · by_cases hdesc : name = "DESC"
    · subst hdesc
      exact iff_of_true trivial (by decide)
    · simp [directed, hasc, hdesc, Valid]

theorem Tail.derives_iff {tail : Tail} {text : String} :
    tail.Derives text ↔ tail.directed.Valid ∧ text = tail.text := by
  constructor
  · intro h
    cases h with
    | ordering h => exact ⟨trivial, (direction_iff.1 h).trans String.append_empty.symm⟩
    | nullsFirst h => exact ⟨trivial, direction_iff.1 h ▸ rfl⟩
    | nullsLast h => exact ⟨trivial, direction_iff.1 h ▸ rfl⟩
    | comparison hne hchars => exact ⟨⟨hne, fun c hc => isOperatorChar_iff.2 (hchars c hc)⟩, rfl⟩
    | label hname => exact ⟨directed_label_valid_iff.2 hname, rfl⟩
    | _ => exact ⟨trivial, rfl⟩
  · rintro ⟨hvalid, rfl⟩
    cases tail with
    | label name => exact .label (directed_label_valid_iff.1 hvalid)
    | comparison operator => exact .comparison hvalid.1 fun c hc => isOperatorChar_iff.1 (hvalid.2 c hc)
    | like => exact .like
    | nullCheck negated =>
      cases negated
      · exact .isNull
      · exact .isNotNull
    | oneOf negated items =>
      cases negated
      · exact .oneOf items
      · exact .noneOf items
    | ordering descending nulls =>
      rcases nulls with - | (- | -)
      · exact .ordering (direction_iff.2 String.append_empty)
      · exact .nullsFirst (direction_iff.2 rfl)
      · exact .nullsLast (direction_iff.2 rfl)

/-! ### Fragments -/

namespace Fragment

theorem calls_iff {functions : List String} {text : String} :
    Calls functions text ↔
      (∀ function ∈ functions, IsWord function) ∧ text = joinWith "" (functions.map (· ++ "(")) := by
  constructor
  · intro h
    induction h with
    | none => exact ⟨List.forall_mem_nil _, rfl⟩
    | call hfunction _ ih =>
      obtain ⟨hwords, rfl⟩ := ih
      rw [List.map_cons, Text.joinWith_empty_cons]
      exact ⟨List.forall_mem_cons.2 ⟨word_iff.1 hfunction, hwords⟩, rfl⟩
  · rintro ⟨hwords, rfl⟩
    induction functions with
    | nil => exact .none
    | cons function functions ih =>
      obtain ⟨hword, hrest⟩ := List.forall_mem_cons.1 hwords
      rw [List.map_cons, Text.joinWith_empty_cons]
      exact .call (word_iff.2 hword) (ih hrest)

theorem dotted_iff {path : List String} {text : String} :
    Dotted path text ↔ (path ≠ [] ∧ ∀ step ∈ path, IsWord step) ∧ text = joinWith "." path := by
  constructor
  · intro h
    induction h with
    | word hstep => simp [word_iff.1 hstep]
    | dot hstep _ ih =>
      obtain ⟨⟨hne, hwords⟩, rfl⟩ := ih
      rw [Text.joinWith_cons "." _ hne]
      exact ⟨⟨List.cons_ne_nil _ _, List.forall_mem_cons.2 ⟨word_iff.1 hstep, hwords⟩⟩, rfl⟩
  · rintro ⟨⟨hne, hwords⟩, rfl⟩
    induction path with
    | nil => exact absurd rfl hne
    | cons step path ih =>
      obtain ⟨hstep, hrest⟩ := List.forall_mem_cons.1 hwords
      by_cases hpath : path = []
      · subst hpath
        exact .word (word_iff.2 hstep)
      · rw [Text.joinWith_cons "." _ hpath]
        exact .dot (word_iff.2 hstep) (ih hpath hrest)

theorem ends_iff {closings : Nat} {tail : Option Tail} {text : String} :
    Ends closings tail text ↔ (∀ t ∈ tail, t.directed.Valid) ∧
      text = String.ofList (List.replicate closings ')') ++ tail.elim "" (" " ++ ·.text) := by
  have hmore : ∀ n, String.ofList (List.replicate (n + 1) ')') = ")" ++ String.ofList (List.replicate n ')') := by
    intro n
    rw [List.replicate_succ, ← List.singleton_append, String.ofList_append]
  constructor
  · intro h
    induction h with
    | bare => simp
    | tail h =>
      obtain ⟨hvalid, rfl⟩ := Tail.derives_iff.1 h
      simp [hvalid]
    | close _ ih =>
      obtain ⟨hvalid, rfl⟩ := ih
      rw [hmore, String.append_assoc]
      exact ⟨hvalid, rfl⟩
  · rintro ⟨hvalid, rfl⟩
    induction closings with
    | zero =>
      cases tail with
      | none => exact .bare
      | some tail => exact .tail (Tail.derives_iff.2 ⟨hvalid tail rfl, rfl⟩)
    | succ closings ih =>
      rw [hmore, String.append_assoc]
      exact .close ih

/-- The fragment with its tail taken for a direction where it spells one. -/
def directed (f : Fragment) : Fragment :=
  { f with tail := f.tail.map Tail.directed }

theorem directed_ending (f : Fragment) : f.directed.ending = f.ending := by
  obtain ⟨functions, path, closings, tail⟩ := f
  cases tail with
  | none => rfl
  | some tail => simp [directed, ending, Tail.directed_text]

theorem directed_text (f : Fragment) : f.directed.text = f.text := by
  rw [text, directed_ending]
  rfl

theorem Valid.directed {f : Fragment} (h : f.Valid) : f.directed = f := by
  obtain ⟨functions, path, closings, tail⟩ := f
  cases tail with
  | none => rfl
  | some tail => simp [Fragment.directed, (h.tail tail rfl).directed]

theorem derives_iff {f : Fragment} {head core ending : String} :
    f.Derives head core ending ↔
      f.directed.Valid ∧ head = f.head ∧ core = joinWith "." f.path ∧ ending = f.ending := by
  have htail : (∀ t ∈ f.tail, t.directed.Valid) ↔ ∀ t ∈ f.directed.tail, t.Valid := by
    simp [directed]
  constructor
  · rintro ⟨hhead, hcore, hending⟩
    obtain ⟨hfunctions, rfl⟩ := calls_iff.1 hhead
    obtain ⟨⟨hne, hpath⟩, rfl⟩ := dotted_iff.1 hcore
    obtain ⟨hvalid, rfl⟩ := ends_iff.1 hending
    exact ⟨⟨hfunctions, hne, hpath, htail.1 hvalid⟩, rfl, rfl, rfl⟩
  · rintro ⟨hvalid, rfl, rfl, rfl⟩
    exact ⟨calls_iff.2 ⟨hvalid.functions, rfl⟩, dotted_iff.2 ⟨⟨hvalid.path_ne, hvalid.path⟩, rfl⟩,
      ends_iff.2 ⟨htail.2 hvalid.tail, rfl⟩⟩

theorem Derives.parse?_eq {f : Fragment} {head core ending : String} (h : f.Derives head core ending) :
    parse? (head ++ core ++ ending) = some f.directed := by
  obtain ⟨hvalid, rfl, rfl, rfl⟩ := derives_iff.1 h
  exact parse?_eq_some_iff.2 ⟨hvalid, f.directed_text⟩

theorem derives_of_parse? {s : String} {f : Fragment} (h : parse? s = some f) :
    f.Derives f.head (joinWith "." f.path) f.ending := by
  have hvalid := (parse?_sound h).1
  exact derives_iff.2 ⟨hvalid.directed.symm ▸ hvalid, rfl, rfl, rfl⟩

/-- **The reader accepts the grammar.** A text is read exactly when it can be derived. What is read derives the
text, spells it in full, and has no direction for a label. Every other derivation has the same parts and is of
the same fragment, up to the choice between a label and a direction. -/
theorem parse?_derives (s : String) :
    ((parse? s).isSome ↔ ∃ f head core ending, Derives f head core ending ∧ head ++ core ++ ending = s) ∧
      ∀ f, parse? s = some f →
        (Derives f f.head (joinWith "." f.path) f.ending ∧ f.head ++ joinWith "." f.path ++ f.ending = s ∧
          f.tail ≠ some (.label "ASC") ∧ f.tail ≠ some (.label "DESC")) ∧
        ∀ g head core ending, Derives g head core ending → head ++ core ++ ending = s →
          g.directed = f ∧ head = f.head ∧ core = joinWith "." f.path ∧ ending = f.ending := by
  refine ⟨⟨fun hsome => ?_, ?_⟩, fun f hf => ?_⟩
  · obtain ⟨f, hf⟩ := Option.isSome_iff_exists.1 hsome
    exact ⟨f, _, _, _, derives_of_parse? hf, (parse?_sound hf).2⟩
  · rintro ⟨g, head, core, ending, hderives, rfl⟩
    rw [hderives.parse?_eq]
    rfl
  · obtain ⟨hvalid, htext⟩ := parse?_sound hf
    refine ⟨⟨derives_of_parse? hf, htext, fun hlabel => ?_, fun hlabel => ?_⟩, ?_⟩
    · exact (hvalid.tail _ hlabel).2.1 rfl
    · exact (hvalid.tail _ hlabel).2.2 rfl
    · rintro g head core ending hderives rfl
      obtain rfl : g.directed = f := Option.some.inj (hderives.parse?_eq.symm.trans hf)
      obtain ⟨-, rfl, rfl, rfl⟩ := derives_iff.1 hderives
      exact ⟨rfl, rfl, rfl, g.directed_ending.symm⟩

end Fragment

end PathQuery
