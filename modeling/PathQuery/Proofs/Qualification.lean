import PathQuery.Proofs.Derivation
import PathQuery.Proofs.Rereading
/-!
# Renaming replaces the qualifier and nothing else

A column of an alias consists of what stands before the alias, the alias with its dot, and what stands behind.
Renaming puts the qualifier in the place of the alias. Any other text is left as it is, or is refused by a
strict naming. In a resolved tree all paths lie below the root, so that is the only reason to refuse a text.
-/

namespace PathQuery.Naming

open Text (joinWith)

/-- A row count, with or without a label. -/
def CountsRows (s : String) : Prop :=
  s = "COUNT(Id)" ∨ ∃ label, Word label ∧ s = "COUNT(Id) " ++ label

/-- The root's table is left out everywhere, or for the alias, or for its table. -/
def LeavesOut (n : Naming) (name : String) : Prop :=
  n.minimal ∨ name ∈ n.minimalTables ∨ ∃ table ∈ n.minimalTables, n.tree.table? name = some table

/-- What replaces an alias, by its path and the root's table. -/
inductive Qualifies (n : Naming) (name : String) : String → Prop
  | minimal {path : String} (hminimal : n.LeavesOut name) (hpath : n.tree.path? name = some path) :
      Qualifies n name path
  | root {table : String} (hfull : ¬ n.LeavesOut name) (hpath : n.tree.path? name = some "")
      (htable : n.tree.rootTable? = some table) : Qualifies n name table
  | below {path table : String} (hfull : ¬ n.LeavesOut name) (hpath : n.tree.path? name = some path)
      (hne : path ≠ "") (htable : n.tree.rootTable? = some table) : Qualifies n name (table ++ "." ++ path)

/-- A column of a known alias, with what stands before the alias and behind its dot. -/
structure Column (n : Naming) (s before name after : String) : Prop where
  not_nested : ∀ rest, s ≠ "(" ++ rest
  not_count : ¬ CountsRows s
  read : ∃ f rest, Fragment.parse? s = some f ∧ f.path = name :: rest ∧ IsField rest ∧ before = f.head ∧
    after = joinWith "." rest ++ f.ending
  known : (n.tree.path? name).isSome

/-! ### Row counts and qualifiers -/

theorem CountsRows.isCountAll {s : String} (h : CountsRows s) : isCountAll s := by
  rcases h with rfl | ⟨label, hlabel, rfl⟩
  · decide
  · obtain ⟨hne, hchars⟩ := word_iff.1 hlabel
    have hrest : Text.afterHead? Expr.countAllText ("COUNT(Id) " ++ label) = some (" " ++ label) := by
      rw [Text.afterHead?_eq_some_iff, ← String.append_assoc]
      rfl
    have hlist : (" " ++ label).toList = ' ' :: label.toList := String.toList_append
    have hsome : label.toList.isEmpty = false := by
      rw [List.isEmpty_eq_false_iff, ne_eq, String.toList_eq_nil_iff]
      exact hne
    simp only [Naming.isCountAll, hrest, hlist, hsome, List.all_eq_true.2 hchars]
    rfl

variable {n : Naming}

theorem leavesOut_iff {name : String} : n.LeavesOut name ↔ n.isMinimal name := by
  simp only [LeavesOut, isMinimal, Bool.or_eq_true, List.any_eq_true, beq_iff_eq]
  refine or_congr_right ⟨?_, ?_⟩
  · rintro (hname | ⟨table, hmem, htable⟩)
    · exact ⟨name, hname, .inl rfl⟩
    · exact ⟨table, hmem, .inr htable.symm⟩
  · rintro ⟨table, hmem, rfl | htable⟩
    · exact .inl hmem
    · exact .inr ⟨table, hmem, htable.symm⟩

/-! ### Columns of aliases -/

/-- A field behind its qualifier is the text behind the dot, with the qualifier and the dot in front unless
there is none. -/
theorem qualified_append (q field ending : String) :
    qualified q field ++ ending = if q = "" then field ++ ending else q ++ "." ++ (field ++ ending) := by
  rw [qualified]
  split
  · rfl
  · simp only [String.append_assoc]

theorem Column.eq_append {s before name after : String} (h : n.Column s before name after) :
    s = before ++ name ++ "." ++ after := by
  obtain ⟨f, rest, hparse, hpath, hrest, rfl, rfl⟩ := h.read
  rw [← (Fragment.parse?_sound hparse).2, Fragment.text, hpath, Text.joinWith_cons "." name hrest.ne_nil]
  simp only [String.append_assoc]

/-- What is renamed at all is a column. -/
theorem column_of_split? {s name field : String} {f : Fragment} (hparse : Fragment.parse? s = some f)
    (hsplit : n.split? f.path = some (name, field)) : n.Column s f.head name (field ++ f.ending) := by
  obtain ⟨hknown, rest, hrest, hpath, rfl⟩ := split?_eq_some_iff.1 hsplit
  refine ⟨?_, ?_, ⟨f, rest, hparse, hpath, hrest, rfl, rfl⟩, hknown⟩
  · rintro text rfl
    exact not_parens_of_parse? hparse (congrArg List.head? String.toList_append)
  · intro hcount
    obtain ⟨g, hg, hword⟩ := parse?_of_isCountAll hcount.isCountAll
    cases hparse.symm.trans hg
    rw [hword] at hpath
    exact hrest.ne_nil (List.cons.inj hpath).2.symm

section Resolved

variable {joins : List Join} (hresolve : Tree.resolve joins = .ok n.tree)

include hresolve

theorem qualifies_standsFor {name : String} (hname : (n.tree.path? name).isSome) :
    n.Qualifies name (n.standsFor name) := by
  obtain ⟨path, hpath⟩ := Option.isSome_iff_exists.1 hname
  obtain ⟨table, htable⟩ := Tree.exists_rootTable? hresolve hpath
  by_cases hminimal : n.LeavesOut name
  · have hstands : n.standsFor name = path := by
      rw [standsFor, if_pos (leavesOut_iff.1 hminimal), hpath, Option.getD_some]
    rw [hstands]
    exact .minimal hminimal hpath
  · have hstands : n.standsFor name = Tree.qualify table path := by
      rw [standsFor, if_neg (mt leavesOut_iff.2 hminimal), Tree.qualifiedPath?_of_path? hpath htable,
        Option.getD_some]
    rw [hstands, Tree.qualify]
    split
    · rename_i hempty
      exact .root hminimal (hempty ▸ hpath) htable
    · rename_i hempty
      exact .below hminimal hpath hempty htable

theorem Column.rename_eq {s before name after : String} (h : n.Column s before name after) :
    n.rename s = pure (before ++ if n.standsFor name = "" then after else n.standsFor name ++ "." ++ after) := by
  obtain ⟨f, rest, hparse, hpath, hrest, rfl, rfl⟩ := h.read
  have hsplit : n.split? f.path = some (name, joinWith "." rest) :=
    split?_eq_some_iff.2 ⟨h.known, rest, hrest, hpath, rfl⟩
  have hname := (Tree.path?_isSome_iff hresolve).1 h.known
  rw [rename_path hparse hsplit (qualifier_eq hresolve hname), String.append_assoc, qualified_append]

theorem rename_error {s : String} {e : NamingError} (h : (n.rename s).result = .error e) :
    n.strict ∧ ∃ reason, e = .unexpected s reason := by
  have hunexpected : ∀ reason, (n.unexpected s reason).result = .error e →
      n.strict ∧ ∃ reason, e = .unexpected s reason := by
    intro reason h
    rw [unexpected] at h
    split at h
    · rename_i hstrict
      cases h
      exact ⟨hstrict, reason, rfl⟩
    · cases h
  cases hparse : Fragment.parse? s with
  | none =>
    simp only [rename, hparse] at h
    split at h
    · cases h
    · exact hunexpected _ h
  | some f =>
    cases hsplit : n.split? f.path with
    | none =>
      simp only [rename, hparse, hsplit] at h
      split at h
      · cases h
      · split at h
        · cases h
        · exact hunexpected _ h
    | some found =>
      -- The qualifier of a known alias is never refused.
      rw [(column_of_split? hparse hsplit).rename_eq hresolve] at h
      cases h

/-- **Renaming replaces the qualifier and nothing else.** Only a strict naming fails, and only for a text that it
does not expect. A column of an alias keeps all but the alias, which gives way to its qualifier, together with
the dot where the qualifier is empty. Every other text is kept. -/
theorem rename_replaces_qualifier (s : String) :
    (∀ e, (n.rename s).result = .error e → n.strict ∧ ∃ reason, e = .unexpected s reason) ∧
      (∀ before name after, n.Column s before name after → s = before ++ name ++ "." ++ after ∧
        ∃ q, n.Qualifies name q ∧
          n.rename s = pure (before ++ if q = "" then after else q ++ "." ++ after)) ∧
      ((∀ before name after, ¬ n.Column s before name after) →
        ∀ t, (n.rename s).result = .ok t → t = s) := by
  refine ⟨fun e => rename_error hresolve, ?_, ?_⟩
  · intro before name after hcolumn
    exact ⟨hcolumn.eq_append, _, qualifies_standsFor hresolve hcolumn.known, hcolumn.rename_eq hresolve⟩
  · intro hnone t ht
    rcases rename_ok ht with heq | ⟨f, name, field, q, hparse, hsplit, -⟩
    · exact heq
    · exact absurd (column_of_split? hparse hsplit) (hnone _ _ _)

end Resolved

/-- Accounts with the plan they follow, whose relationship starts with the letters of the root's table. -/
def plansOfAccounts : List Join :=
  [.base "Account" "a", .single "a" "Plan" "AccountPlanId" "Id" "p"]

theorem plansOfAccounts_renamed :
    Tree.resolve plansOfAccounts = .ok (ofJoins plansOfAccounts ["p"]).tree ∧
      (ofJoins plansOfAccounts ["p"]).rename "MAX(p.Owner.Type) latest" =
        pure "MAX(AccountPlan.Owner.Type) latest" := by
  have hresolve := ofJoins_resolve ["p"] (by decide +kernel : (Tree.resolve plansOfAccounts).toOption.isSome)
  have hparse : Fragment.parse? "MAX(p.Owner.Type) latest" =
      some ⟨["MAX"], ["p", "Owner", "Type"], 1, some (.label "latest")⟩ := by
    decide +kernel
  have hpath : (ofJoins plansOfAccounts ["p"]).tree.path? "p" = some "AccountPlan" := by
    decide +kernel
  have hminimal : (ofJoins plansOfAccounts ["p"]).LeavesOut "p" := .inr (.inl (List.mem_singleton_self "p"))
  have hcolumn : (ofJoins plansOfAccounts ["p"]).Column "MAX(p.Owner.Type) latest" "MAX(" "p" "Owner.Type) latest" :=
    column_of_split? hparse (split?_eq_some_iff.2
      ⟨Option.isSome_of_eq_some hpath, ["Owner", "Type"], .inr ⟨"Owner", rfl⟩, rfl, rfl⟩)
  obtain ⟨-, q, hq, hrename⟩ := (rename_replaces_qualifier hresolve _).2.1 _ _ _ hcolumn
  refine ⟨hresolve, hrename.trans ?_⟩
  cases hq with
  | minimal _ hpath' =>
    cases hpath.symm.trans hpath'
    rfl
  | root hfull => exact absurd hminimal hfull
  | below hfull => exact absurd hminimal hfull

end PathQuery.Naming
