import PathQuery.Proofs.Relation.KeyText
import PathQuery.Proofs.Report
/-!
# When remembered trees are current

A memo finds a tree by the digest of the text of its joins. Digests aside, an answer is out of date exactly
when an earlier list of joins had the same text, was resolved, and has another resolution than the list
that is asked for now.

Different joins can have the same text: the text of a join has no sign for a missing parent, so a table that
stands alone is written like one that is joined to the empty alias, and the marks between the parts may
occur in the parts themselves. Where no parent is empty and each part lacks the mark that ends it, the text
can be read back, and the answers are those of resolving every list anew.
-/

namespace PathQuery

/-! ### Joins that are told apart -/

/-- The text of the join can be read back, and its parent is not empty. -/
@[mk_iff] structure Join.Separable (j : Join) : Prop extends Join.Legible j where
  parent_ne : j.parent ≠ some ""

instance (j : Join) : Decidable j.Separable :=
  decidable_of_iff _ (Join.separable_iff j).symm

namespace Join

/-- The join with no parent in the place of the empty alias. -/
def emptied (j : Join) : Join :=
  { j with parent := j.parent.filter (· ≠ "") }

theorem Separable.emptied_filled {j : Join} (h : j.Separable) : j.filled.emptied = j := by
  have hparent : (some (j.parent.getD "")).filter (· ≠ "") = j.parent := by
    cases hj : j.parent with
    | none => rfl
    | some parent =>
      have hne : parent ≠ "" := fun heq => h.parent_ne (by rw [hj, heq])
      simp [hne]
  show { j with parent := (some (j.parent.getD "")).filter (· ≠ "") } = j
  rw [hparent]

end Join

namespace Memo

/-- A parent that is not empty is not mistaken for a missing one. -/
theorem keyText_inj {a b : List Join} (ha : ∀ j ∈ a, j.Separable) (hb : ∀ j ∈ b, j.Separable)
    (h : keyText a = keyText b) : a = b := by
  have hfilled : a.map Join.filled = b.map Join.filled :=
    (keyText_eq_iff (fun j hj => (ha j hj).toLegible) fun j hj => (hb j hj).toLegible).1 h
  -- The empty parents of filled joins are the missing ones.
  have hback : ∀ joins : List Join, (∀ j ∈ joins, j.Separable) →
      (joins.map Join.filled).map Join.emptied = joins := by
    intro joins hjoins
    rw [List.map_map]
    calc
      joins.map (Join.emptied ∘ Join.filled) = joins.map id :=
        List.map_congr_left fun j hj => (hjoins j hj).emptied_filled
      _ = joins := List.map_id joins
  rw [← hback a ha, hfilled, hback b hb]

/-! ### One request after another -/

/-- A request is answered with what is kept, or it fails, or its tree is found and kept. -/
theorem resolve_cases (m : Memo) (joins : List Join) :
    (∃ t, m.entries.lookup (key joins) = some t ∧ m.resolve joins = (.ok t, { m with hits := m.hits + 1 })) ∨
    (m.entries.lookup (key joins) = none ∧ ∃ e, Tree.resolve joins = .error e ∧
      m.resolve joins = (.error e, { m with misses := m.misses + 1 })) ∨
    (m.entries.lookup (key joins) = none ∧ ∃ t, Tree.resolve joins = .ok t ∧
      m.resolve joins =
        (.ok t, { m with misses := m.misses + 1, entries := m.entries ++ [(key joins, t)] })) := by
  rw [resolve]
  cases hkept : m.entries.lookup (key joins) with
  | some t => exact .inl ⟨t, rfl, rfl⟩
  | none =>
    refine .inr ?_
    cases hfound : Tree.resolve joins with
    | error e => exact .inl ⟨rfl, e, rfl, rfl⟩
    | ok t => exact .inr ⟨rfl, t, rfl, rfl⟩

/-- The answers to several requests, each to the memo that the one before it has left. -/
def answers (m : Memo) : List (List Join) → List (Except RelationError Tree)
  | [] => []
  | joins :: rest => (m.resolve joins).1 :: answers (m.resolve joins).2 rest

/-- What the memo keeps after the requests `seen`: a tree for each key under which one was found. -/
structure Recalls (m : Memo) (seen : List (List Join)) : Prop where
  sound : ∀ k t, m.entries.lookup k = some t → ∃ joins ∈ seen, key joins = k ∧ Tree.resolve joins = .ok t
  complete : ∀ joins ∈ seen, ∀ t, Tree.resolve joins = .ok t →
    ∃ kept, m.entries.lookup (key joins) = some kept

theorem recalls_empty : Recalls {} [] :=
  ⟨nofun, nofun⟩

/-- A request that adds nothing to what is kept. -/
theorem Recalls.idle {m other : Memo} {seen : List (List Join)} {joins : List Join} (h : m.Recalls seen)
    (hentries : other.entries = m.entries)
    (hknown : ∀ t, Tree.resolve joins = .ok t → ∃ kept, m.entries.lookup (key joins) = some kept) :
    other.Recalls (seen ++ [joins]) := by
  refine ⟨fun k t hk => ?_, fun later hlater t ht => ?_⟩
  · rw [hentries] at hk
    obtain ⟨earlier, hmem, hrest⟩ := h.sound k t hk
    exact ⟨earlier, List.mem_append_left _ hmem, hrest⟩
  · rw [hentries]
    rcases List.mem_append.1 hlater with hlater | hlater
    · exact h.complete later hlater t ht
    · rw [List.mem_singleton.1 hlater] at ht ⊢
      exact hknown t ht

theorem Recalls.step {m : Memo} {seen : List (List Join)} (h : m.Recalls seen) (joins : List Join) :
    (m.resolve joins).2.Recalls (seen ++ [joins]) := by
  rcases m.resolve_cases joins with ⟨tree, hkept, hcall⟩ | ⟨-, e, hfail, hcall⟩ | ⟨hnone, tree, hfound, hcall⟩
  · rw [hcall]
    exact h.idle rfl fun _ _ => ⟨tree, hkept⟩
  · rw [hcall]
    refine h.idle rfl fun t ht => ?_
    rw [hfail] at ht
    cases ht
  · rw [hcall]
    refine ⟨fun k t hk => ?_, fun other hother t ht => ?_⟩
    · rw [List.lookup_append, Option.or_eq_some_iff] at hk
      rcases hk with hk | ⟨-, hk⟩
      · obtain ⟨earlier, hmem, hrest⟩ := h.sound k t hk
        exact ⟨earlier, List.mem_append_left _ hmem, hrest⟩
      · rw [List.lookup_cons] at hk
        split at hk
        · rename_i hkey
          cases hk
          exact ⟨joins, List.mem_append_right _ (List.mem_singleton_self _),
            (beq_iff_eq.1 hkey).symm, hfound⟩
        · cases hk
    · rw [List.lookup_append]
      rcases List.mem_append.1 hother with hother | hother
      · obtain ⟨kept, hkept⟩ := h.complete other hother t ht
        exact ⟨kept, by rw [hkept]; rfl⟩
      · rw [List.mem_singleton.1 hother, hnone]
        exact ⟨tree, by simp⟩

/-- Whatever was found for the joins of one request is found for those of another one with its key. -/
def Agrees (earlier later : List Join) : Prop :=
  key earlier = key later → ∀ t, Tree.resolve earlier = .ok t → Tree.resolve later = .ok t

/-- Two requests with one key that agree have the same tree, in whichever order they came. -/
theorem tree_unique {seen : List (List Join)} (hseen : seen.Pairwise Agrees) {a b : List Join}
    (ha : a ∈ seen) (hb : b ∈ seen) (hkey : key a = key b) {s t : Tree} (hs : Tree.resolve a = .ok s)
    (ht : Tree.resolve b = .ok t) : s = t := by
  have hall := List.Pairwise.forall_of_forall_of_flip
    (R := fun a b => key a = key b → ∀ s t, Tree.resolve a = .ok s → Tree.resolve b = .ok t → s = t)
    (l := seen) ?_ ?_ ?_
  · exact hall ha hb hkey s t hs ht
  · intro a _ _ s t hs ht
    exact Except.ok.inj (hs.symm.trans ht)
  · exact hseen.imp fun hagrees hkey s t hs ht => Except.ok.inj ((hagrees hkey s hs).symm.trans ht)
  · exact hseen.imp fun hagrees hkey s t hs ht =>
      Except.ok.inj (hs.symm.trans (hagrees hkey.symm t ht))

/-- The answer to one request is current exactly when the requests before agree with it. -/
theorem Recalls.resolve_eq_iff {m : Memo} {seen : List (List Join)} (h : m.Recalls seen)
    (hseen : seen.Pairwise Agrees) (joins : List Join) :
    (m.resolve joins).1 = Tree.resolve joins ↔ ∀ earlier ∈ seen, Agrees earlier joins := by
  rw [Memo.resolve]
  split
  case h_1 tree hkept =>
    obtain ⟨first, hfirst, hkey, hfound⟩ := h.sound _ _ hkept
    constructor
    · intro hsame earlier hearlier hkeys t ht
      have hcurrent : Tree.resolve joins = .ok tree := hsame.symm
      have heq : tree = t := tree_unique hseen hfirst hearlier (hkey.trans hkeys.symm) hfound ht
      rw [hcurrent, heq]
    · intro hagrees
      exact (hagrees first hfirst hkey tree hfound).symm
  case h_2 hnone =>
    have hcurrent : ∀ earlier ∈ seen, Agrees earlier joins := by
      intro earlier hearlier hkeys t ht
      obtain ⟨kept, hkept⟩ := h.complete earlier hearlier t ht
      rw [hkeys, hnone] at hkept
      cases hkept
    refine iff_of_true ?_ hcurrent
    dsimp only
    split
    · rename_i hfail
      exact hfail.symm
    · rename_i hfound
      exact hfound.symm

theorem Recalls.answers_eq_iff {m : Memo} {seen : List (List Join)} (h : m.Recalls seen)
    (hseen : seen.Pairwise Agrees) (lists : List (List Join)) :
    m.answers lists = lists.map Tree.resolve ↔ (seen ++ lists).Pairwise Agrees := by
  induction lists generalizing m seen with
  | nil => simpa [answers] using hseen
  | cons joins rest ih =>
    rw [answers, List.map_cons, List.cons.injEq, h.resolve_eq_iff hseen, List.append_cons]
    constructor
    · rintro ⟨hjoins, hrest⟩
      have hnext : (seen ++ [joins]).Pairwise Agrees :=
        List.pairwise_append.2 ⟨hseen, List.pairwise_singleton _ _, by simpa using hjoins⟩
      exact (ih (h.step joins) hnext).1 hrest
    · intro hall
      have hnext := (List.pairwise_append.1 hall).1
      refine ⟨?_, (ih (h.step joins) hnext).2 hall⟩
      simpa using (List.pairwise_append.1 hnext).2.2

/-- **Remembered trees are current** unless two lists of joins with one text have different resolutions.
With digests that tell apart the texts in question, all answers are those of resolving each list anew
exactly when no earlier success disagrees with a later list of the same text; joins whose text can be read
back never disagree. -/
theorem answers_current (lists : List (List Join))
    (hdigest : ∀ a ∈ lists, ∀ b ∈ lists, key a = key b → keyText a = keyText b) :
    (answers {} lists = lists.map Tree.resolve ↔
        lists.Pairwise fun earlier later => keyText earlier = keyText later →
          ∀ t, Tree.resolve earlier = .ok t → Tree.resolve later = .ok t) ∧
      ((∀ joins ∈ lists, ∀ j ∈ joins, j.Separable) → answers {} lists = lists.map Tree.resolve) := by
  have hanswers := recalls_empty.answers_eq_iff .nil lists
  rw [List.nil_append] at hanswers
  have hexact : answers {} lists = lists.map Tree.resolve ↔
      lists.Pairwise fun earlier later => keyText earlier = keyText later →
        ∀ t, Tree.resolve earlier = .ok t → Tree.resolve later = .ok t := by
    rw [hanswers]
    constructor
    · refine fun h => h.imp fun hagrees htext => hagrees ?_
      rw [key, key, htext]
    · refine fun h => h.imp_of_mem fun ha hb hagrees hkey => hagrees (hdigest _ ha _ hb hkey)
  refine ⟨hexact, fun hseparable => hexact.2 ?_⟩
  refine List.pairwise_of_forall_mem_list fun a ha b hb htext t ht => ?_
  rw [← keyText_inj (hseparable a ha) (hseparable b hb) htext]
  exact ht

/-- Contacts, then contacts with their accounts, then contacts again. -/
def contactRequests : List (List Join) :=
  [[.base "Contact" "C"], [.base "Contact" "C", .single "C" "Account" "AccountId" "Id" "A"],
    [.base "Contact" "C"]]

theorem contactRequests_current :
    (∀ a ∈ contactRequests, ∀ b ∈ contactRequests, key a = key b → keyText a = keyText b) ∧
      (∀ joins ∈ contactRequests, ∀ j ∈ joins, j.Separable) ∧
      answers {} contactRequests = contactRequests.map Tree.resolve := by
  have hdigest : ∀ a ∈ contactRequests, ∀ b ∈ contactRequests, key a = key b → keyText a = keyText b := by
    decide +kernel
  have hseparable : ∀ joins ∈ contactRequests, ∀ j ∈ joins, j.Separable := by
    decide
  exact ⟨hdigest, hseparable, (answers_current contactRequests hdigest).2 hseparable⟩

/-- A table that stands alone, then the same table joined to the empty alias by no columns. -/
def aloneThenJoined : List (List Join) :=
  [[⟨none, "Contact", [], "C"⟩], [⟨some "", "Contact", [], "C"⟩]]

theorem aloneThenJoined_stale :
    (∀ a ∈ aloneThenJoined, ∀ b ∈ aloneThenJoined, key a = key b → keyText a = keyText b) ∧
      ∃ t, answers {} aloneThenJoined = [.ok t, .ok t] ∧
        aloneThenJoined.map Tree.resolve = [.ok t, .error (.missingColumns "C")] := by
  have htext : keyText [⟨some "", "Contact", [], "C"⟩] = keyText [⟨none, "Contact", [], "C"⟩] := rfl
  have hkey : key [⟨some "", "Contact", [], "C"⟩] = key [⟨none, "Contact", [], "C"⟩] := by
    rw [key, key, htext]
  obtain ⟨t, ht⟩ : ∃ t, Tree.resolve [⟨none, "Contact", [], "C"⟩] = .ok t :=
    exists_eq_ok (by decide +kernel)
  refine ⟨?_, t, ?_, ?_⟩
  · simp [aloneThenJoined, htext]
  · simp [aloneThenJoined, answers, Memo.resolve, ht, hkey]
  · rw [aloneThenJoined, List.map_cons, ht]
    rfl

end Memo

end PathQuery
