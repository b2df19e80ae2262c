import Mathlib.Data.List.Basic
import Mathlib.Tactic.MkIffOfInductiveProp
import PathQuery.Proofs.Text
import PathQuery.Relation.Memo
/-!
# Reading the text of joins back

The text that stands for a list of joins is all that its key is made from. Each part of a join ends at a mark, so
where no part contains the mark by which it ends, the parts can be read off one after the other, and with them
the number of column pairs and the number of joins.

One thing is not written: a missing parent. Its place is left empty, as it is for a join to the empty alias, and
`Join.filled` forgets the difference. Two lists have the same text exactly when they are equal after that.
-/

namespace PathQuery

open Text (joinWith)

/-! ### One join -/

namespace Join

/-- Every part of the join lacks the mark by which its text ends. -/
@[mk_iff] structure Legible (j : Join) : Prop where
  parent : '\x1f' ∉ (j.parent.getD "").toList
  table : '\x1f' ∉ j.table.toList
  columns : ∀ pair ∈ j.columns, '=' ∉ pair.1.toList ∧ ',' ∉ pair.2.toList ∧
    '\x1f' ∉ pair.1.toList ∧ '\x1f' ∉ pair.2.toList
  name : '\x1e' ∉ j.name.toList

instance (j : Join) : Decidable j.Legible :=
  decidable_of_iff _ (legible_iff j).symm

/-- The join with the empty alias in the place of a missing parent. -/
def filled (j : Join) : Join :=
  { j with parent := some (j.parent.getD "") }

theorem filled_inj {j k : Join} (hparent : j.parent.getD "" = k.parent.getD "") (htable : j.table = k.table)
    (hcolumns : j.columns = k.columns) (hname : j.name = k.name) : j.filled = k.filled := by
  simp [filled, hparent, htable, hcolumns, hname]

end Join

/-! ### The text of joins -/

namespace Memo

theorem toList_columnsText_cons (pair : String × String) (rest : List (String × String)) :
    (joinWith "" ((pair :: rest).map columnText)).toList =
      pair.1.toList ++ '=' :: (pair.2.toList ++ ',' :: (joinWith "" (rest.map columnText)).toList) := by
  simp [Text.joinWith_empty_cons, columnText]

theorem toList_keyText_cons (j : Join) (rest : List Join) :
    (keyText (j :: rest)).toList =
      (j.parent.getD "").toList ++ '\x1f' :: (j.table.toList ++ '\x1f' ::
        ((joinWith "" (j.columns.map columnText)).toList ++ '\x1f' ::
          (j.name.toList ++ '\x1e' :: (keyText rest).toList))) := by
  simp [keyText, Text.joinWith_empty_cons, joinText, fieldMark, joinMark]

theorem columnsText_free {columns : List (String × String)}
    (h : ∀ pair ∈ columns, '\x1f' ∉ pair.1.toList ∧ '\x1f' ∉ pair.2.toList) :
    '\x1f' ∉ (joinWith "" (columns.map columnText)).toList := by
  induction columns with
  | nil => simp [joinWith]
  | cons pair rest ih =>
    have hpair := h pair List.mem_cons_self
    have hrest := ih fun other hother => h other (List.mem_cons_of_mem _ hother)
    simp only [toList_columnsText_cons, List.mem_append, List.mem_cons, not_or]
    exact ⟨hpair.1, by decide, hpair.2, by decide, hrest⟩

theorem columnsText_inj {a b : List (String × String)}
    (ha : ∀ pair ∈ a, '=' ∉ pair.1.toList ∧ ',' ∉ pair.2.toList)
    (hb : ∀ pair ∈ b, '=' ∉ pair.1.toList ∧ ',' ∉ pair.2.toList)
    (h : (joinWith "" (a.map columnText)).toList = (joinWith "" (b.map columnText)).toList) : a = b := by
  induction a generalizing b with
  | nil =>
    cases b with
    | nil => rfl
    | cons pair rest =>
      rw [toList_columnsText_cons] at h
      simp [joinWith] at h
  | cons pair rest ih =>
    cases b with
    | nil =>
      rw [toList_columnsText_cons] at h
      simp [joinWith] at h
    | cons other others =>
      rw [toList_columnsText_cons, toList_columnsText_cons] at h
      obtain ⟨hpair, hrest⟩ := List.forall_mem_cons.1 ha
      obtain ⟨hother, hothers⟩ := List.forall_mem_cons.1 hb
      obtain ⟨hfirst, h⟩ := Text.append_mark_inj hpair.1 hother.1 h
      obtain ⟨hsecond, h⟩ := Text.append_mark_inj hpair.2 hother.2 h
      rw [Prod.ext (String.toList_inj.1 hfirst) (String.toList_inj.1 hsecond), ih hrest hothers h]

/-- What is read off the front of a text is the first join, up to its missing parent, and the text of the rest. -/
theorem keyText_cons_inj {j k : Join} {rest others : List Join} (hj : j.Legible) (hk : k.Legible)
    (h : keyText (j :: rest) = keyText (k :: others)) : j.filled = k.filled ∧ keyText rest = keyText others := by
  rw [← String.toList_inj, toList_keyText_cons, toList_keyText_cons] at h
  obtain ⟨hparent, h⟩ := Text.append_mark_inj hj.parent hk.parent h
  obtain ⟨htable, h⟩ := Text.append_mark_inj hj.table hk.table h
  have hfreeJ := columnsText_free fun pair hpair => (hj.columns pair hpair).2.2
  have hfreeK := columnsText_free fun pair hpair => (hk.columns pair hpair).2.2
  obtain ⟨hcolumns, h⟩ := Text.append_mark_inj hfreeJ hfreeK h
  obtain ⟨hname, h⟩ := Text.append_mark_inj hj.name hk.name h
  have hcolumns : j.columns = k.columns := columnsText_inj
    (fun pair hpair => ⟨(hj.columns pair hpair).1, (hj.columns pair hpair).2.1⟩)
    (fun pair hpair => ⟨(hk.columns pair hpair).1, (hk.columns pair hpair).2.1⟩) hcolumns
  exact ⟨Join.filled_inj (String.toList_inj.1 hparent) (String.toList_inj.1 htable) hcolumns
    (String.toList_inj.1 hname), String.toList_inj.1 h⟩

theorem keyText_cons_ne_nil (j : Join) (rest : List Join) : keyText (j :: rest) ≠ keyText [] := by
  intro h
  rw [← String.toList_inj, toList_keyText_cons] at h
  simp [keyText, joinWith] at h

/-- A missing parent is written like the empty alias. -/
theorem keyText_filled (joins : List Join) : keyText (joins.map Join.filled) = keyText joins := by
  have htext : joinText ∘ Join.filled = joinText := by
    funext j
    simp [joinText, Join.filled]
  rw [keyText, List.map_map, htext, keyText]

/-- Joins that can be read back have one text exactly when they differ at most in missing parents. -/
theorem keyText_eq_iff {a b : List Join} (ha : ∀ j ∈ a, j.Legible) (hb : ∀ j ∈ b, j.Legible) :
    keyText a = keyText b ↔ a.map Join.filled = b.map Join.filled := by
  constructor
  · intro h
    induction a generalizing b with
    | nil =>
      cases b with
      | nil => rfl
      | cons k others => exact absurd h.symm (keyText_cons_ne_nil k others)
    | cons j rest ih =>
      cases b with
      | nil => exact absurd h (keyText_cons_ne_nil j rest)
      | cons k others =>
        obtain ⟨hj, hrest⟩ := List.forall_mem_cons.1 ha
        obtain ⟨hk, hothers⟩ := List.forall_mem_cons.1 hb
        obtain ⟨hfirst, h⟩ := keyText_cons_inj hj hk h
        rw [List.map_cons, List.map_cons, hfirst, ih hrest hothers h]
  · intro h
    rw [← keyText_filled a, h, keyText_filled]

/-! ### What enters the digest -/

/-- The bytes of which the key is the digest. -/
def stream (joins : List Join) : ByteArray :=
  (keyText joins).toUTF8

theorem key_eq_digest (joins : List Join) :
    key joins = String.ofList ((Sha256.digest (stream joins).toList).flatMap Sha256.hexByte) := rfl

end Memo

/-- A text without any of the marks. -/
def Unmarked (s : String) : Prop :=
  '\x1e' ∉ s.toList ∧ '\x1f' ∉ s.toList ∧ '=' ∉ s.toList ∧ ',' ∉ s.toList

instance (s : String) : Decidable (Unmarked s) :=
  inferInstanceAs (Decidable (_ ∧ _))

/-- All texts of a join. -/
def Join.texts (j : Join) : List String :=
  j.parent.toList ++ j.table :: j.name :: j.columns.flatMap fun pair => [pair.1, pair.2]

theorem Join.legible_of_unmarked {j : Join} (h : ∀ s ∈ j.texts, Unmarked s) : j.Legible where
  parent := by
    cases hparent : j.parent with
    | none => simp
    | some parent => exact (h parent (by simp [texts, hparent])).2.1
  table := (h j.table (by simp [texts])).2.1
  columns := by
    intro pair hpair
    have hfirst : Unmarked pair.1 := h pair.1 (by
      simp only [texts, List.mem_append, List.mem_cons, List.mem_flatMap]
      exact .inr (.inr (.inr ⟨pair, hpair, by simp⟩)))
    have hsecond : Unmarked pair.2 := h pair.2 (by
      simp only [texts, List.mem_append, List.mem_cons, List.mem_flatMap]
      exact .inr (.inr (.inr ⟨pair, hpair, by simp⟩)))
    exact ⟨hfirst.2.2.1, hsecond.2.2.2, hfirst.2.1, hsecond.2.1⟩
  name := (h j.name (by simp [texts])).1

namespace Memo

/-- **What enters the digest determines the joins.** A key is the digest of one stream of bytes. Joins without any
of the marks have one stream exactly when they are equal, up to the difference between a missing parent and the
empty alias. -/
theorem stream_determines_joins {a b : List Join} (ha : ∀ j ∈ a, ∀ s ∈ j.texts, Unmarked s)
    (hb : ∀ j ∈ b, ∀ s ∈ j.texts, Unmarked s) :
    (∀ joins, key joins = String.ofList ((Sha256.digest (stream joins).toList).flatMap Sha256.hexByte)) ∧
      (stream a = stream b ↔ a.map Join.filled = b.map Join.filled) := by
  have htext : stream a = stream b ↔ keyText a = keyText b := String.toByteArray_inj
  refine ⟨key_eq_digest, ?_⟩
  rw [htext]
  exact keyText_eq_iff (fun j hj => Join.legible_of_unmarked (ha j hj))
    fun j hj => Join.legible_of_unmarked (hb j hj)

/-- Contacts that stand alone, with their accounts. -/
def contactsAlone : List Join :=
  [⟨none, "Contact", [], "C"⟩, ⟨some "C", "Account", [("AccountId", "Id")], "A"⟩]

/-- The same contacts, joined to the empty alias. -/
def contactsJoined : List Join :=
  [⟨some "", "Contact", [], "C"⟩, ⟨some "C", "Account", [("AccountId", "Id")], "A"⟩]

/-- The accounts with one more pair of columns, which have no names. -/
def contactsPaired : List Join :=
  [⟨none, "Contact", [], "C"⟩, ⟨some "C", "Account", [("AccountId", "Id"), ("", "")], "A"⟩]

/-- The first two have one key, the third is told apart. -/
theorem contactsAlone_stream :
    (∀ joins ∈ [contactsAlone, contactsJoined, contactsPaired], ∀ j ∈ joins, ∀ s ∈ j.texts, Unmarked s) ∧
      (stream contactsAlone = stream contactsJoined ∧ key contactsAlone = key contactsJoined) ∧
      stream contactsAlone ≠ stream contactsPaired := by
  have hunmarked : ∀ joins ∈ [contactsAlone, contactsJoined, contactsPaired], ∀ j ∈ joins, ∀ s ∈ j.texts,
      Unmarked s := by
    decide
  have halone := hunmarked contactsAlone (by simp)
  obtain ⟨hkey, hjoined⟩ := stream_determines_joins halone (hunmarked contactsJoined (by simp))
  obtain ⟨-, hpaired⟩ := stream_determines_joins halone (hunmarked contactsPaired (by simp))
  have hsame : stream contactsAlone = stream contactsJoined := hjoined.2 (by decide)
  refine ⟨hunmarked, ⟨hsame, ?_⟩, ?_⟩
  · rw [hkey, hkey, hsame]
  · intro hequal
    exact absurd (hpaired.1 hequal) (by decide)

end Memo

end PathQuery
