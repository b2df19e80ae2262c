import PathQuery.Proofs.Steps
/-!
# Erasing a qualifier

Every occurrence of a word with the dot behind it is erased from a text. An occurrence never reaches over a
character that stands in no word, so a text can be erased piece by piece: where one piece ends outside of a
word, or the next one starts outside of a path, the pieces are changed independently. Leaving a text as it is
has the same property, so that erased and untouched text are treated alike.
-/

namespace PathQuery.Text

/-! ### Occurrences -/

theorem eraseChars_append_self {gone : List Char} (hgone : gone ≠ []) (rest : List Char) :
    eraseChars gone (gone ++ rest) = eraseChars gone rest := by
  cases gone with
  | nil => exact absurd rfl hgone
  | cons c gone =>
    have hafter : (c :: gone).isPrefixOf? (c :: (gone ++ rest)) = some rest :=
      List.isPrefixOf?_eq_some_iff_append_eq.2 rfl
    rw [List.cons_append, eraseChars, hafter]
    exact dif_pos (by rw [List.length_cons, List.length_append]; omega)

theorem eraseChars_cons {gone : List Char} {c : Char} {rest : List Char} (h : ¬ gone <+: c :: rest) :
    eraseChars gone (c :: rest) = c :: eraseChars gone rest := by
  have hafter : gone.isPrefixOf? (c :: rest) = none := by
    rw [Option.eq_none_iff_forall_ne_some]
    intro after hafter
    exact h ⟨after, List.isPrefixOf?_eq_some_iff_append_eq.1 hafter⟩
  rw [eraseChars, hafter]

theorem eraseChars_eq_self {gone text : List Char} (h : ∀ part, part <:+ text → ¬ gone <+: part) :
    eraseChars gone text = text := by
  induction text with
  | nil => rw [eraseChars]
  | cons c rest ih =>
    rw [eraseChars_cons (h _ (List.suffix_refl _)),
      ih fun part hpart => h part (hpart.trans (List.suffix_cons c rest))]

theorem length_eraseChars_le (gone text : List Char) : (eraseChars gone text).length ≤ text.length := by
  fun_induction eraseChars gone text with
  | case1 => exact Nat.le_refl 0
  | case2 c rest after hafter hlength ih => exact ih.trans hlength.le
  | case3 c rest after hafter hlength ih => exact Nat.succ_le_succ ih
  | case4 c rest hafter ih => exact Nat.succ_le_succ ih

/-- A text is left alone exactly when there is no occurrence in it. -/
theorem eraseChars_eq_self_iff {gone text : List Char} (hgone : gone ≠ []) :
    eraseChars gone text = text ↔ ¬ gone <:+: text := by
  rw [List.infix_iff_prefix_suffix]
  constructor
  · rintro h ⟨part, hstarts, hpart⟩
    fun_induction eraseChars gone text with
    | case1 =>
      rw [List.suffix_nil.1 hpart] at hstarts
      exact hgone (List.prefix_nil.1 hstarts)
    | case2 c rest after hafter hlength ih =>
      have hshort := length_eraseChars_le gone after
      rw [h] at hshort
      omega
    | case3 c rest after hafter hlength ih =>
      have hsplit := congrArg List.length (List.isPrefixOf?_eq_some_iff_append_eq.1 hafter)
      have hpos := List.length_pos_iff.2 hgone
      rw [List.length_append] at hsplit
      omega
    | case4 c rest hafter ih =>
      rcases List.suffix_cons_iff.1 hpart with rfl | hpart
      · obtain ⟨after, hsplit⟩ := hstarts
        rw [List.isPrefixOf?_eq_some_iff_append_eq.2 hsplit] at hafter
        cases hafter
      · exact ih (List.cons.inj h).2 hpart
  · intro h
    exact eraseChars_eq_self fun part hpart hstarts => h ⟨part, hstarts, hpart⟩

theorem eraseAll_eq_self_iff {gone text : String} (hgone : gone ≠ "") :
    eraseAll gone text = text ↔ ¬ gone.toList <:+: text.toList := by
  have hchars : gone.toList ≠ [] := fun h => hgone (String.toList_eq_nil_iff.1 h)
  rw [eraseAll, ← String.toList_inj, String.toList_ofList, eraseChars_eq_self_iff hchars]

/-- Pieces are erased one by one if no occurrence reaches over their seam. -/
theorem eraseChars_append {gone a b : List Char} (hgone : gone ≠ [])
    (hseam : ∀ part, part <:+ a → part ≠ [] → gone <+: part ++ b → gone <+: part) :
    eraseChars gone (a ++ b) = eraseChars gone a ++ eraseChars gone b := by
  fun_induction eraseChars gone a with
  | case1 => rfl
  | case2 c rest after hafter hlength ih =>
    have hsplit := List.isPrefixOf?_eq_some_iff_append_eq.1 hafter
    rw [← hsplit] at hseam ⊢
    rw [List.append_assoc, eraseChars_append_self hgone,
      ih fun part hpart => hseam part (hpart.trans (List.suffix_append gone after))]
  | case3 c rest after hafter hlength ih =>
    have hsplit := congrArg List.length (List.isPrefixOf?_eq_some_iff_append_eq.1 hafter)
    have hpos := List.length_pos_iff.2 hgone
    rw [List.length_append] at hsplit
    omega
  | case4 c rest hafter ih =>
    have hnone : ¬ gone <+: c :: rest := by
      rintro ⟨after, hsplit⟩
      rw [List.isPrefixOf?_eq_some_iff_append_eq.2 hsplit] at hafter
      cases hafter
    have hall : ¬ gone <+: c :: (rest ++ b) :=
      fun hstarts => hnone (hseam _ (List.suffix_refl _) (List.cons_ne_nil c rest) hstarts)
    rw [List.cons_append, eraseChars_cons hall,
      ih fun part hpart => hseam part (hpart.trans (List.suffix_cons c rest)), List.cons_append]

/-! ### Pieces -/

/-- The text ends outside of a word. -/
def endsApart (text : String) : Bool :=
  text.toList.getLast?.all fun c => !isWordChar c

/-- The text starts outside of a path. -/
def startsApart (text : String) : Bool :=
  text.toList.head?.all fun c => !isWordChar c && c != '.'

/-- A word and its dot do not reach over the end of a text outside of words, nor over the start of one
outside of paths. -/
theorem prefix_of_seam {word a b : List Char} (hword : ∀ c ∈ word, isWordChar c)
    (hseam : (a.getLast?.all fun c => !isWordChar c) ∨ (b.head?.all fun c => !isWordChar c && c != '.'))
    {part : List Char} (hpart : part <:+ a) (hne : part ≠ []) (h : word ++ ['.'] <+: part ++ b) :
    word ++ ['.'] <+: part := by
  rcases List.prefix_or_prefix_of_prefix h (List.prefix_append part b) with hinside | ⟨more, hmore⟩
  · exact hinside
  cases more with
  | nil => exact ⟨[], by rw [List.append_nil, ← hmore, List.append_nil]⟩
  | cons d more =>
    exfalso
    rcases hseam with hlast | hfirst
    · have hsub : ∀ c ∈ part, c ∈ word := by
        rcases List.append_eq_append_iff.1 hmore with ⟨x, rfl, -⟩ | ⟨x, rfl, hx⟩
        · exact fun c hc => List.mem_append_left x hc
        · cases x with
          | nil => simp
          | cons y x => simp at hx
      obtain ⟨start, rfl⟩ := hpart
      rw [List.getLast?_append_of_ne_nil start hne, List.getLast?_eq_some_getLast hne] at hlast
      have hwordChar := hword _ (hsub _ (List.getLast_mem hne))
      simp [hwordChar] at hlast
    · rw [← hmore, List.prefix_append_right_inj] at h
      obtain ⟨rest, rfl⟩ := h
      have hd : d ∈ word ++ ['.'] := hmore ▸ List.mem_append_right part List.mem_cons_self
      rcases List.mem_append.1 hd with hd | hd
      · simp [hword d hd] at hfirst
      · simp [List.mem_singleton.1 hd] at hfirst

/-- Texts can be changed piece by piece, and without a dot they stay as they are. -/
structure Piecewise (f : String → String) : Prop where
  append : ∀ a b, endsApart a ∨ startsApart b → f (a ++ b) = f a ++ f b
  plain : ∀ a, '.' ∉ a.toList → f a = a

theorem IsWord.dotless {s : String} (hs : IsWord s) : '.' ∉ s.toList :=
  fun hdot => Bool.noConfusion (hs.2 '.' hdot)

theorem endsApart_append (a : String) {b : String} (hb : b ≠ "") : endsApart (a ++ b) = endsApart b := by
  rw [endsApart, endsApart, String.toList_append, List.getLast?_append_of_ne_nil]
  rw [ne_eq, String.toList_eq_nil_iff]
  exact hb

theorem startsApart_append {a : String} (ha : a ≠ "") (b : String) : startsApart (a ++ b) = startsApart a := by
  rw [startsApart, startsApart, String.toList_append, List.head?_append_of_ne_nil]
  rw [ne_eq, String.toList_eq_nil_iff]
  exact ha

namespace Piecewise

variable {f : String → String} (hf : Piecewise f)

include hf

theorem led {start : String} (hstart : endsApart start) (hdot : '.' ∉ start.toList) (text : String) :
    f (start ++ text) = start ++ f text := by
  rw [hf.append _ _ (.inl hstart), hf.plain start hdot]

theorem followed {ending : String} (hending : startsApart ending) (hdot : '.' ∉ ending.toList)
    (text : String) : f (text ++ ending) = f text ++ ending := by
  rw [hf.append _ _ (.inr hending), hf.plain ending hdot]

theorem spaced (a b : String) : f (a ++ " " ++ b) = f a ++ " " ++ f b := by
  have hstarts : startsApart (" " ++ b) := by
    rw [startsApart_append (by decide)]
    decide
  rw [String.append_assoc, hf.append _ _ (.inr hstarts), hf.led (by decide) (by decide), String.append_assoc]

theorem joined {separator : String} (hne : separator ≠ "") (hstarts : startsApart separator)
    (hends : endsApart separator) (hdot : '.' ∉ separator.toList) (parts : List String) :
    f (joinWith separator parts) = joinWith separator (parts.map f) := by
  induction parts with
  | nil => exact hf.plain "" (by simp)
  | cons part rest ih =>
    cases rest with
    | nil => rfl
    | cons next rest =>
      have hseam : startsApart (separator ++ joinWith separator (next :: rest)) := by
        rw [startsApart_append hne]
        exact hstarts
      rw [joinWith_cons separator part (List.cons_ne_nil next rest), String.append_assoc,
        hf.append _ _ (.inr hseam), hf.append _ _ (.inl hends), hf.plain separator hdot, ih,
        ← String.append_assoc]
      rfl

end Piecewise

theorem piecewise_id : Piecewise id :=
  ⟨fun _ _ _ => rfl, fun _ _ => rfl⟩

section Erased

variable {word : String} (hword : IsWord word)

theorem toList_qualifier (word : String) : (word ++ ".").toList = word.toList ++ ['.'] :=
  String.toList_append

include hword in
theorem piecewise_eraseAll : Piecewise (eraseAll (word ++ ".")) := by
  have hne : word.toList ++ ['.'] ≠ [] := by simp
  refine ⟨fun a b hseam => ?_, fun a ha => ?_⟩
  · have hparts : ∀ part, part <:+ a.toList → part ≠ [] → word.toList ++ ['.'] <+: part ++ b.toList →
        word.toList ++ ['.'] <+: part :=
      fun part hpart hpartNe h => prefix_of_seam hword.2 hseam hpart hpartNe h
    rw [eraseAll, eraseAll, eraseAll, toList_qualifier, String.toList_append, eraseChars_append hne hparts,
      String.ofList_append]
  · rw [eraseAll, toList_qualifier, eraseChars_eq_self, String.ofList_toList]
    rintro part hpart hstarts
    exact ha (hpart.subset (hstarts.subset (List.mem_append_right _ List.mem_cons_self)))

theorem eraseAll_qualifier (word rest : String) :
    eraseAll (word ++ ".") (word ++ "." ++ rest) = eraseAll (word ++ ".") rest := by
  have htext : (word ++ "." ++ rest).toList = (word ++ ".").toList ++ rest.toList := String.toList_append
  rw [eraseAll, eraseAll, htext, eraseChars_append_self]
  simp

/-- A step that does not end with the word keeps its dot. -/
theorem eraseAll_step {step : String} (hstep : IsWord step) (hend : beforeEnd? word step = none) :
    eraseAll (word ++ ".") (step ++ ".") = step ++ "." := by
  rw [eraseAll, toList_qualifier, eraseChars_eq_self, String.ofList_toList]
  rintro part ⟨before, hbefore⟩ ⟨after, rfl⟩
  rw [toList_qualifier] at hbefore
  rcases List.eq_nil_or_concat after with rfl | ⟨front, last, rfl⟩
  · rw [List.append_nil, ← List.append_assoc, List.append_left_inj] at hbefore
    refine beforeEnd?_eq_none_iff.1 hend (String.ofList before) ?_
    rw [← String.toList_inj, String.toList_append, String.toList_ofList, hbefore]
  · -- The dot that is erased would stand inside of the step.
    rw [List.concat_eq_append, ← List.append_assoc, ← List.append_assoc] at hbefore
    have hinside := (List.append_inj' hbefore rfl).1
    have hdot : '.' ∈ step.toList := by
      rw [← hinside]
      simp
    exact Bool.noConfusion (hstep.2 '.' hdot)

include hword in
theorem eraseAll_steps {steps : List String} (hsteps : ∀ step ∈ steps, IsWord step ∧ beforeEnd? word step = none)
    {field : String} (hfield : IsWord field) :
    eraseAll (word ++ ".") (joinWith "." (steps ++ [field])) = joinWith "." (steps ++ [field]) := by
  have hpieces := piecewise_eraseAll hword
  induction steps with
  | nil => exact hpieces.plain field hfield.dotless
  | cons step steps ih =>
    obtain ⟨⟨hstep, hend⟩, hsteps⟩ := List.forall_mem_cons.1 hsteps
    have hapart : endsApart (step ++ ".") := by
      rw [endsApart_append step (by decide)]
      decide
    rw [List.cons_append, joinWith_cons "." step (by simp), hpieces.append _ _ (.inl hapart),
      eraseAll_step hstep hend, ih hsteps]

end Erased

end PathQuery.Text
