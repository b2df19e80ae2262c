import PathQuery.Proofs.Substitution
/-!
# Patterns match literally

A pattern that is built from a text is matched by just those texts that contain it, start with it or end with it,
whatever special characters it has. An escaped text takes exactly itself off the front of what it is matched
with, so only the percent signs around it leave a choice.

Escaping looks at each character once. The same comes from guarding one special character after the other, as
long as the backslash is first: a later pass does not touch the backslashes that an earlier one has put in.
-/

namespace PathQuery

namespace Like

/-- Which texts match a pattern, character by character. -/
inductive Accepts : List Char → List Char → Prop
  | nil : Accepts [] []
  | escaped (c : Char) {pattern s : List Char} (h : Accepts pattern s) : Accepts ('\\' :: c :: pattern) (c :: s)
  | any (skipped : List Char) {pattern s : List Char} (h : Accepts pattern s) :
      Accepts ('%' :: pattern) (skipped ++ s)
  | one (c : Char) {pattern s : List Char} (h : Accepts pattern s) : Accepts ('_' :: pattern) (c :: s)
  | other {c : Char} (hbackslash : c ≠ '\\') (hpercent : c ≠ '%') (hunderscore : c ≠ '_') {pattern s : List Char}
      (h : Accepts pattern s) : Accepts (c :: pattern) (c :: s)

def Matches (pattern s : String) : Prop :=
  Accepts pattern.toList s.toList

/-- Puts a backslash before each occurrence of one character. -/
def guard (special : Char) (text : String) : String :=
  Text.replaceChars (fun c => if c = special then some ['\\', c] else none) text

/-! ### One character of a pattern -/

theorem accepts_any_iff {pattern s : List Char} :
    Accepts ('%' :: pattern) s ↔ ∃ skipped rest, s = skipped ++ rest ∧ Accepts pattern rest := by
  constructor
  · intro h
    cases h with
    | any skipped h => exact ⟨skipped, _, rfl, h⟩
    | other _ hpercent => exact absurd rfl hpercent
  · rintro ⟨skipped, rest, rfl, h⟩
    exact .any skipped h

theorem accepts_nil_iff {s : List Char} : Accepts [] s ↔ s = [] := by
  constructor
  · intro h
    cases h
    rfl
  · rintro rfl
    exact .nil

/-- A character that is escaped if it has to be stands for itself. -/
theorem accepts_escape_cons {c : Char} {pattern s : List Char} :
    Accepts ((if isSpecial c then ['\\', c] else [c]) ++ pattern) s ↔
      ∃ rest, s = c :: rest ∧ Accepts pattern rest := by
  by_cases hc : isSpecial c
  · rw [if_pos hc]
    constructor
    · intro h
      cases h with
      | escaped _ h => exact ⟨_, rfl, h⟩
      | other hbackslash => exact absurd rfl hbackslash
    · rintro ⟨rest, rfl, h⟩
      exact .escaped c h
  · rw [if_neg hc]
    have hplain : (c ≠ '\\' ∧ c ≠ '%') ∧ c ≠ '_' := by simpa [isSpecial] using hc
    obtain ⟨⟨hbackslash, hpercent⟩, hunderscore⟩ := hplain
    constructor
    · intro h
      cases h with
      | escaped => exact absurd rfl hbackslash
      | any => exact absurd rfl hpercent
      | one => exact absurd rfl hunderscore
      | other _ _ _ h => exact ⟨_, rfl, h⟩
    · rintro ⟨rest, rfl, h⟩
      exact .other hbackslash hpercent hunderscore h

/-! ### Escaped texts -/

theorem toList_escape (text : String) :
    (escape text).toList = text.toList.flatMap fun c => if isSpecial c then ['\\', c] else [c] := by
  rw [escape, Text.replaceChars, String.toList_ofList]
  refine List.flatMap_congr fun c _ => ?_
  split <;> rfl

/-- An escaped text matches itself and leaves the rest to what follows it. -/
theorem accepts_escape_append {text pattern s : List Char} :
    Accepts (text.flatMap (fun c => if isSpecial c then ['\\', c] else [c]) ++ pattern) s ↔
      ∃ rest, s = text ++ rest ∧ Accepts pattern rest := by
  induction text generalizing s with
  | nil => simp
  | cons c text ih =>
    rw [List.flatMap_cons, List.append_assoc, accepts_escape_cons]
    constructor
    · rintro ⟨after, rfl, h⟩
      obtain ⟨rest, rfl, hrest⟩ := ih.1 h
      exact ⟨rest, rfl, hrest⟩
    · rintro ⟨rest, rfl, h⟩
      exact ⟨text ++ rest, rfl, ih.2 ⟨rest, rfl, h⟩⟩

theorem toList_guard (special : Char) (text : String) :
    (guard special text).toList = text.toList.flatMap fun c => if c = special then ['\\', c] else [c] := by
  rw [guard, Text.replaceChars, String.toList_ofList]
  refine List.flatMap_congr fun c _ => ?_
  split <;> rfl

/-- The special characters may be guarded one after the other, the backslash first. -/
theorem escape_eq_guard (text : String) : escape text = guard '_' (guard '%' (guard '\\' text)) := by
  rw [← String.toList_inj, toList_escape, toList_guard, toList_guard, toList_guard, List.flatMap_assoc,
    List.flatMap_assoc]
  refine List.flatMap_congr fun c _ => ?_
  by_cases hbackslash : c = '\\'
  · subst hbackslash
    rfl
  by_cases hpercent : c = '%'
  · subst hpercent
    rfl
  by_cases hunderscore : c = '_'
  · subst hunderscore
    rfl
  · simp [isSpecial, hbackslash, hpercent, hunderscore]

theorem matches_contains_iff {text s : String} :
    Matches ("%" ++ escape text ++ "%") s ↔ text.toList <:+: s.toList := by
  have hpattern : ("%" ++ escape text ++ "%").toList = '%' :: ((escape text).toList ++ ['%']) := by
    simp
  rw [Matches, hpattern, accepts_any_iff, toList_escape]
  constructor
  · rintro ⟨skipped, rest, hs, h⟩
    obtain ⟨after, rfl, -⟩ := accepts_escape_append.1 h
    exact ⟨skipped, after, by rw [hs, List.append_assoc]⟩
  · rintro ⟨skipped, after, hs⟩
    refine ⟨skipped, text.toList ++ after, by rw [← hs, List.append_assoc], ?_⟩
    exact accepts_escape_append.2 ⟨after, rfl, accepts_any_iff.2 ⟨after, [], (List.append_nil after).symm, .nil⟩⟩

theorem matches_startsWith_iff {text s : String} :
    Matches (escape text ++ "%") s ↔ text.toList <+: s.toList := by
  have hpattern : (escape text ++ "%").toList = (escape text).toList ++ ['%'] := by
    simp
  rw [Matches, hpattern, toList_escape, accepts_escape_append]
  constructor
  · rintro ⟨rest, hs, -⟩
    exact ⟨rest, hs.symm⟩
  · rintro ⟨rest, hs⟩
    exact ⟨rest, hs.symm, accepts_any_iff.2 ⟨rest, [], (List.append_nil rest).symm, .nil⟩⟩

theorem matches_endsWith_iff {text s : String} :
    Matches ("%" ++ escape text) s ↔ text.toList <:+ s.toList := by
  have hpattern : ("%" ++ escape text).toList = '%' :: ((escape text).toList ++ []) := by
    simp
  rw [Matches, hpattern, accepts_any_iff, toList_escape]
  constructor
  · rintro ⟨skipped, rest, hs, h⟩
    obtain ⟨after, rfl, hafter⟩ := accepts_escape_append.1 h
    rw [accepts_nil_iff.1 hafter, List.append_nil] at hs
    exact ⟨skipped, hs.symm⟩
  · rintro ⟨skipped, hs⟩
    exact ⟨skipped, text.toList, hs.symm, accepts_escape_append.2 ⟨[], (List.append_nil _).symm, .nil⟩⟩

end Like

namespace Lookup

/-- The lookup compares its column with a pattern. -/
def AsksFor (l : Lookup) (pattern : String) : Prop :=
  l.predicate = .ok (.sql ⟨l.lhs.render.text ++ " LIKE %s", l.lhs.render.params ++ [.text pattern]⟩ false)

theorem asksFor_pattern {kind : LookupKind} {text pattern : String} (h : pattern? text kind = some pattern)
    (lhs : Expr) : AsksFor ⟨lhs, kind, .single (.text text)⟩ pattern := by
  have hblank : lhs.render.text ++ " LIKE %s" = lhs.render.text ++ " " ++ "LIKE %s" := by
    rw [String.append_assoc]
    rfl
  rw [AsksFor, hblank]
  exact predicate_pattern h lhs

/-- **Patterns match literally.** A lookup for a text binds a pattern that has the text in it with its special
characters guarded. The pattern is matched by exactly the texts that have the text somewhere, at the start or
at the end. -/
theorem patterns_match_literally (lhs : Expr) (text : String) :
    let guarded := Like.guard '_' (Like.guard '%' (Like.guard '\\' text))
    (AsksFor ⟨lhs, .contains, .single (.text text)⟩ ("%" ++ guarded ++ "%") ∧
        ∀ s, Like.Matches ("%" ++ guarded ++ "%") s ↔ text.toList <:+: s.toList) ∧
      (AsksFor ⟨lhs, .startsWith, .single (.text text)⟩ (guarded ++ "%") ∧
        ∀ s, Like.Matches (guarded ++ "%") s ↔ text.toList <+: s.toList) ∧
      AsksFor ⟨lhs, .endsWith, .single (.text text)⟩ ("%" ++ guarded) ∧
        ∀ s, Like.Matches ("%" ++ guarded) s ↔ text.toList <:+ s.toList := by
  rw [← Like.escape_eq_guard]
  refine ⟨⟨asksFor_pattern rfl lhs, fun s => Like.matches_contains_iff⟩,
    ⟨asksFor_pattern rfl lhs, fun s => Like.matches_startsWith_iff⟩,
    asksFor_pattern rfl lhs, fun s => Like.matches_endsWith_iff⟩

end Lookup

end PathQuery
