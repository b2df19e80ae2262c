import PathQuery.Naming
import PathQuery.Proofs.Grammar
import PathQuery.Proofs.Report
/-!
# What renaming does

A renamed fragment is the fragment itself, or the fragment with the first step of its path replaced by a
qualifier. In both cases something is left of a fragment that was not empty.
-/

namespace PathQuery.Naming

open Text (IsWord joinWith)

theorem split?_eq_some {n : Naming} {path : List String} {name field : String}
    (h : n.split? path = some (name, field)) :
    (n.tree.path? name).isSome ∧
      (path = [name, field] ∨
        ∃ first, path = [name, first, discriminator] ∧ field = first ++ "." ++ discriminator) := by
  unfold split? at h
  split at h
  · split at h
    · rename_i hname
      cases h
      exact ⟨hname, .inl rfl⟩
    · cases h
  · split at h
    · rename_i hlast
      cases h
      exact ⟨hlast.2, .inr ⟨_, by rw [hlast.1], by rw [hlast.1]⟩⟩
    · cases h
  · cases h

/-- The two ways in which renaming succeeds. -/
theorem rename_ok {n : Naming} {s t : String} (h : (n.rename s).result = .ok t) :
    t = s ∨ ∃ f name field q, Fragment.parse? s = some f ∧ n.split? f.path = some (name, field) ∧
      n.qualifier name = .ok q ∧ t = f.head ++ qualified q field ++ f.ending := by
  have hkept : ∀ reason, (n.unexpected s reason).result = .ok t → t = s := by
    intro reason h
    rw [unexpected] at h
    split at h <;> cases h
    rfl
  rw [rename] at h
  split at h
  · cases h
    exact .inl rfl
  split at h
  · exact .inl (hkept _ h)
  · rename_i f hparse
    split at h
    · rename_i name field hsplit
      rw [Report.ofExcept_result] at h
      cases hq : n.qualifier name with
      | error e =>
        rw [hq] at h
        cases h
      | ok q =>
        rw [hq] at h
        cases h
        exact .inr ⟨f, name, field, q, hparse, hsplit, hq, rfl⟩
    · split at h
      · cases h
        exact .inl rfl
      · exact .inl (hkept _ h)

/-! ### Fragments that are understood -/

theorem not_parens_of_parse? {s : String} {f : Fragment} (h : Fragment.parse? s = some f) :
    s.toList.head? ≠ some '(' := by
  intro hhead
  obtain ⟨rest, hrest⟩ := List.head?_eq_some_iff.1 hhead
  have hword : Fragment.word ('(' :: rest) = [] := rfl
  have hpath : Fragment.readPath? ('(' :: rest) = none := by
    rw [Fragment.readPath?, if_pos hword]
  have hfunctions : Fragment.readFunctions ('(' :: rest) = ([], '(' :: rest) :=
    Fragment.readFunctions_stop fun _ _ => hword
  simp only [Fragment.parse?, hrest, hfunctions, hpath] at h
  cases h

/-- Every word is read as a tail: as a sort direction, or else as a label. -/
theorem exists_tail_of_word {word : String} (h : IsWord word) :
    ∃ tail : Tail, tail.Valid ∧ tail.text = word := by
  by_cases hasc : word = "ASC"
  · exact ⟨.ordering false none, trivial, hasc.symm⟩
  by_cases hdesc : word = "DESC"
  · exact ⟨.ordering true none, trivial, hdesc.symm⟩
  · exact ⟨.label word, ⟨h, hasc, hdesc⟩, rfl⟩

/-- A row count is a fragment about one word. -/
theorem parse?_of_isCountAll {s : String} (h : isCountAll s) :
    ∃ f, Fragment.parse? s = some f ∧ f.path = [primaryKey] := by
  have hvalid : ∀ tail : Option Tail, (∀ t ∈ tail, t.Valid) →
      Fragment.Valid ⟨["COUNT"], [primaryKey], 1, tail⟩ :=
    fun tail htail => ⟨List.forall_mem_singleton.2 (by decide), List.cons_ne_nil _ _,
      List.forall_mem_singleton.2 (by decide), htail⟩
  rw [isCountAll] at h
  split at h
  · cases h
  · rename_i rest hrest
    rw [Text.afterHead?_eq_some_iff] at hrest
    split at h
    · rename_i hnil
      refine ⟨⟨["COUNT"], [primaryKey], 1, none⟩, Fragment.parse?_eq_some_iff.2 ⟨hvalid _ (by simp), ?_⟩, rfl⟩
      rw [hrest, String.toList_eq_nil_iff.1 hnil]
      rfl
    · rename_i c label hlabel
      simp only [Bool.and_eq_true, beq_iff_eq, Bool.not_eq_true', List.isEmpty_eq_false_iff,
        List.all_eq_true] at h
      obtain ⟨⟨rfl, hne⟩, hword⟩ := h
      obtain ⟨tail, htail, htext⟩ := exists_tail_of_word (Text.isWord_ofList.2 ⟨hne, hword⟩)
      refine ⟨⟨["COUNT"], [primaryKey], 1, some tail⟩,
        Fragment.parse?_eq_some_iff.2 ⟨hvalid _ (by simpa using htail), ?_⟩, rfl⟩
      rw [hrest, ← String.toList_inj, String.toList_append, hlabel]
      simp [Fragment.text, Fragment.head, Fragment.ending, joinWith, htext, Expr.countAllText, primaryKey]

theorem rename_path {n : Naming} {s : String} {f : Fragment} {name field q : String}
    (hparse : Fragment.parse? s = some f) (hsplit : n.split? f.path = some (name, field))
    (hq : n.qualifier name = .ok q) : n.rename s = pure (f.head ++ qualified q field ++ f.ending) := by
  have hcount : ¬ isCountAll s := by
    intro hcount
    obtain ⟨g, hg, hpath⟩ := parse?_of_isCountAll hcount
    cases hparse.symm.trans hg
    rw [hpath] at hsplit
    cases hsplit
  rw [rename, if_neg (not_or.2 ⟨not_parens_of_parse? hparse, hcount⟩)]
  simp only [hparse, hsplit, hq]
  rfl

/-- A field without a qualifier stays as it is. -/
theorem rename_word {n : Naming} {s word : String} {f : Fragment} (hparse : Fragment.parse? s = some f)
    (hpath : f.path = [word]) : n.rename s = pure s := by
  rw [rename]
  split
  · rfl
  · simp only [hparse, hpath]
    rfl

theorem split?_field_ne {n : Naming} {f : Fragment} (hvalid : f.Valid) {name field : String}
    (h : n.split? f.path = some (name, field)) : field ≠ "" := by
  obtain ⟨-, hpath | ⟨first, -, rfl⟩⟩ := split?_eq_some h
  · have hfield : field ∈ f.path := by
      rw [hpath]
      exact List.mem_cons_of_mem _ List.mem_cons_self
    exact (hvalid.path field hfield).1
  · intro hempty
    have hlength := congrArg String.length hempty
    simp [discriminator] at hlength

theorem rename_ne_empty {n : Naming} {s t : String} (hs : s ≠ "") (h : (n.rename s).result = .ok t) :
    t ≠ "" := by
  rcases rename_ok h with rfl | ⟨f, name, field, q, hparse, hsplit, -, rfl⟩
  · exact hs
  · have hfield := split?_field_ne (Fragment.parse?_sound hparse).1 hsplit
    intro hempty
    obtain ⟨⟨-, hqualified⟩, -⟩ := by
      simpa only [String.append_eq_empty_iff] using hempty
    rw [qualified] at hqualified
    split at hqualified
    · exact hfield hqualified
    · exact hfield (String.append_eq_empty_iff.1 hqualified).2

end PathQuery.Naming
