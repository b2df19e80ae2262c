import PathQuery.Proofs.Steps
/-!
# Renaming what has been renamed

A renamed fragment is again a fragment, with the same calls, the same tail and a longer path. It is left alone
when it is renamed once more, unless its path starts with a word that happens to be an alias: then it is read
as a column of that alias and is renamed again, which changes it if the alias stands for anything but itself.
Either way a second pass understands it and gives no warning.

Fragments that are changed twice are found in two cases only. What some alias stands for may have one or two
steps and start with another alias; or the qualifier of the root is left out, and a field with a
discriminator is left standing bare.
-/

namespace PathQuery

open Text (IsWord joinWith)

namespace Fragment

def withPath (f : Fragment) (path : List String) : Fragment :=
  { f with path }

theorem Valid.withPath {f : Fragment} (h : f.Valid) {path : List String} (hne : path ≠ [])
    (hwords : ∀ step ∈ path, IsWord step) : (f.withPath path).Valid :=
  ⟨h.functions, hne, hwords, h.tail⟩

def bare (path : List String) : Fragment :=
  ⟨[], path, 0, none⟩

theorem bare_text (path : List String) : (bare path).text = joinWith "." path := by
  show "" ++ joinWith "." path ++ "" = joinWith "." path
  rw [String.empty_append, String.append_empty]

theorem bare_valid {path : List String} (hne : path ≠ []) (hwords : ∀ step ∈ path, IsWord step) :
    (bare path).Valid :=
  ⟨List.forall_mem_nil _, hne, hwords, by simp [bare]⟩

end Fragment

namespace Naming

/-- A field, which may carry a discriminator. -/
def IsField (rest : List String) : Prop :=
  (∃ field, rest = [field]) ∨ ∃ field, rest = [field, discriminator]

theorem IsField.ne_nil {rest : List String} (h : IsField rest) : rest ≠ [] := by
  rcases h with ⟨field, rfl⟩ | ⟨field, rfl⟩ <;> exact List.cons_ne_nil _ _

/-- The text is read as a column of an alias that stands for something else. -/
def Misreads (n : Naming) (text : String) : Prop :=
  ∃ (f : Fragment) (name : String) (rest : List String), f.Valid ∧ f.text = text ∧ f.path = name :: rest ∧
    IsField rest ∧ (n.tree.path? name).isSome ∧ n.standsFor name ≠ name

/-- Aliases that a fragment can name. -/
def Names (n : Naming) (name : String) : Prop :=
  IsWord name ∧ (n.tree.path? name).isSome

/-- No alias stands for nothing, and an alias that starts what another one stands for, where this has at most
two steps, stands for itself. -/
structure Unambiguous (n : Naming) : Prop where
  qualified : ∀ name, n.Names name → n.standsFor name ≠ ""
  leading : ∀ name other, n.Names name → n.Names other →
    (n.standsFor name = other ∨ ∃ step, IsWord step ∧ n.standsFor name = other ++ "." ++ step) →
    n.standsFor other = other

variable {n : Naming}

theorem split?_eq_some_iff {path : List String} {name field : String} :
    n.split? path = some (name, field) ↔ (n.tree.path? name).isSome ∧
      ∃ rest, IsField rest ∧ path = name :: rest ∧ field = joinWith "." rest := by
  constructor
  · intro h
    obtain ⟨hname, rfl | ⟨first, rfl, rfl⟩⟩ := split?_eq_some h
    · exact ⟨hname, [field], .inl ⟨field, rfl⟩, rfl, rfl⟩
    · exact ⟨hname, [first, discriminator], .inr ⟨first, rfl⟩, rfl, rfl⟩
  · rintro ⟨hname, rest, ⟨field, rfl⟩ | ⟨field, rfl⟩, rfl, rfl⟩
    · simp [split?, hname]
    · simp [split?, hname, joinWith]

theorem misreads_column {name : String} {rest : List String} (hname : n.Names name) (hrest : IsField rest)
    (hwords : ∀ step ∈ rest, IsWord step) (hother : n.standsFor name ≠ name) :
    n.Misreads (joinWith "." (name :: rest)) := by
  refine ⟨Fragment.bare (name :: rest), name, rest, ?_, Fragment.bare_text _, rfl, hrest, hname.2, hother⟩
  exact Fragment.bare_valid (List.cons_ne_nil name rest) (List.forall_mem_cons.2 ⟨hname.1, hwords⟩)

/-! ### Paths that are left alone -/

theorem isPath_standsFor {name : String} (h : (n.tree.path? name).isSome) (hne : n.standsFor name ≠ "") :
    n.tree.isPath (n.standsFor name) := by
  refine List.any_eq_true.2 ⟨name, Dict.mem_keys.2 h, ?_⟩
  obtain ⟨path, hpath⟩ := Option.isSome_iff_exists.1 h
  rw [standsFor] at hne ⊢
  cases hminimal : n.isMinimal name with
  | true => simp [hpath]
  | false =>
    cases hfull : n.tree.qualifiedPath? name with
    | none => simp [hminimal, hfull] at hne
    | some full => simp

theorem isResolved_field {steps : List String} (hpath : steps ≠ [] → n.tree.isPath (joinWith "." steps))
    (field : String) : n.isResolved (steps ++ [field]) := by
  rcases List.eq_nil_or_concat steps with rfl | ⟨start, last, rfl⟩
  · rfl
  · have hpath := hpath (by simp)
    rw [List.concat_eq_append] at hpath ⊢
    rw [isResolved, List.reverse_append, List.reverse_append]
    cases hstart : start.reverse with
    | nil =>
      rw [List.reverse_eq_nil_iff.1 hstart] at hpath
      have hlast : n.tree.isPath last := hpath
      simp [hlast]
    | cons next rest =>
      have hsteps : start = (next :: rest).reverse := by rw [← hstart, List.reverse_reverse]
      rw [hsteps] at hpath
      simp only [List.reverse_cons, List.append_assoc, List.cons_append, List.nil_append] at hpath
      simp [hpath]

theorem isResolved_discriminator {steps : List String}
    (hpath : steps ≠ [] → n.tree.isPath (joinWith "." steps))
    (hroot : steps = [] → n.tree.root.any n.isMinimal) (first : String) :
    n.isResolved (steps ++ [first, discriminator]) := by
  rcases List.eq_nil_or_concat steps with rfl | ⟨start, last, rfl⟩
  · have hroot := hroot rfl
    simp [isResolved, hroot]
  · have hpath := hpath (by simp)
    rw [List.concat_eq_append] at hpath ⊢
    simp [isResolved, hpath]

theorem rename_resolved {s : String} {f : Fragment} (hparse : Fragment.parse? s = some f)
    (hsplit : n.split? f.path = none) (hresolved : n.isResolved f.path) : n.rename s = pure s := by
  rw [rename]
  split
  · rfl
  · simp only [hparse, hsplit, hresolved, if_true]

section Resolved

variable {joins : List Join} (hresolve : Tree.resolve joins = .ok n.tree)

include hresolve

/-- A fragment that is read as a column of an alias stays as it is exactly when the alias stands for itself. -/
theorem rename_eq_self_iff {f : Fragment} (hvalid : f.Valid) {name field : String}
    (hsplit : n.split? f.path = some (name, field)) :
    (n.rename f.text).result = .ok f.text ↔ n.standsFor name = name := by
  obtain ⟨hname, rest, hrest, hpath, rfl⟩ := split?_eq_some_iff.1 hsplit
  have hknown := (Tree.path?_isSome_iff hresolve).1 hname
  have htext : f.text = f.head ++ (name ++ "." ++ joinWith "." rest) ++ f.ending := by
    rw [Fragment.text, hpath, Text.joinWith_cons "." name hrest.ne_nil]
  rw [rename_path (Fragment.parse?_text hvalid) hsplit (qualifier_eq hresolve hknown)]
  show Except.ok _ = Except.ok _ ↔ _
  rw [htext, Except.ok.injEq, String.append_left_inj, String.append_right_inj, qualified]
  split
  · rename_i hempty
    rw [hempty]
    constructor
    · intro heq
      have hlength := congrArg String.length heq
      simp at hlength
    · rintro rfl
      have hword : IsWord "" := hvalid.path "" (hpath ▸ List.mem_cons_self)
      exact absurd rfl hword.1
  · rw [String.append_left_inj, String.append_left_inj]

theorem not_misreads {text : String} (h : (n.rename text).result = .ok text) : ¬ n.Misreads text := by
  rintro ⟨f, name, rest, hvalid, rfl, hpath, hrest, hname, hother⟩
  have hsplit : n.split? f.path = some (name, joinWith "." rest) :=
    split?_eq_some_iff.2 ⟨hname, rest, hrest, hpath, rfl⟩
  exact hother ((rename_eq_self_iff hresolve hvalid hsplit).1 h)

theorem rename_eq_self_of_split {f : Fragment} (hvalid : f.Valid) {read : String × String}
    (hsplit : n.split? f.path = some read) (hread : ¬ n.Misreads f.text) :
    (n.rename f.text).result = .ok f.text := by
  obtain ⟨name, field⟩ := read
  obtain ⟨hname, rest, hrest, hpath, -⟩ := split?_eq_some_iff.1 hsplit
  refine (rename_eq_self_iff hresolve hvalid hsplit).2 ?_
  by_contra hchanged
  exact hread ⟨f, name, rest, hvalid, rfl, hpath, hrest, hname, hchanged⟩

theorem rename_eq_self_of_lenient (hstrict : n.strict = false) {text : String} (hread : ¬ n.Misreads text) :
    (n.rename text).result = .ok text := by
  have hkept : ∀ reason, (n.unexpected text reason).result = .ok text := by
    intro reason
    rw [unexpected, hstrict]
    rfl
  cases hparse : Fragment.parse? text with
  | none =>
    rw [rename]
    split
    · rfl
    · simp only [hparse]
      exact hkept _
  | some f =>
    obtain ⟨hvalid, rfl⟩ := Fragment.parse?_eq_some_iff.1 hparse
    cases hsplit : n.split? f.path with
    | some read => exact rename_eq_self_of_split hresolve hvalid hsplit hread
    | none =>
      rw [rename]
      split
      · rfl
      simp only [hparse, hsplit]
      split
      · rfl
      · exact hkept _

theorem rename_column {name : String} {rest : List String} (hname : n.Names name) (hrest : IsField rest)
    (hwords : ∀ step ∈ rest, IsWord step) :
    (n.rename (joinWith "." (name :: rest))).result =
      .ok (qualified (n.standsFor name) (joinWith "." rest)) := by
  have hvalid : (Fragment.bare (name :: rest)).Valid :=
    Fragment.bare_valid (List.cons_ne_nil name rest) (List.forall_mem_cons.2 ⟨hname.1, hwords⟩)
  have hsplit : n.split? (name :: rest) = some (name, joinWith "." rest) :=
    split?_eq_some_iff.2 ⟨hname.2, rest, hrest, rfl, rfl⟩
  have hknown := (Tree.path?_isSome_iff hresolve).1 hname.2
  rw [← Fragment.bare_text, rename_path (Fragment.parse?_text hvalid) hsplit (qualifier_eq hresolve hknown)]
  show Except.ok ("" ++ _ ++ "") = _
  rw [String.empty_append, String.append_empty]

theorem unambiguous_of_not_misreads
    (hread : ∀ text renamed, (n.rename text).result = .ok renamed → ¬ n.Misreads renamed) :
    n.Unambiguous := by
  have htype : IsWord discriminator := by decide
  refine ⟨fun name hname hempty => ?_, fun name other hname hother hleads => ?_⟩
  · have hrename := rename_column hresolve hname (.inr ⟨name, rfl⟩)
      (List.forall_mem_cons.2 ⟨hname.1, List.forall_mem_singleton.2 htype⟩)
    rw [hempty] at hrename
    refine hread _ _ hrename (misreads_column hname (.inl ⟨discriminator, rfl⟩)
      (List.forall_mem_singleton.2 htype) ?_)
    rw [hempty]
    exact hname.1.1.symm
  · by_contra hchanged
    have hrename := rename_column hresolve hname (.inl ⟨discriminator, rfl⟩) (List.forall_mem_singleton.2 htype)
    rcases hleads with hstands | ⟨step, hstep, hstands⟩
    · rw [hstands, qualified, if_neg hother.1.1] at hrename
      exact hread _ _ hrename (misreads_column hother (.inl ⟨discriminator, rfl⟩)
        (List.forall_mem_singleton.2 htype) hchanged)
    · have hwords : ∀ word ∈ [other, step], IsWord word :=
        List.forall_mem_cons.2 ⟨hother.1, List.forall_mem_singleton.2 hstep⟩
      have hstands : n.standsFor name = joinWith "." [other, step] := hstands
      rw [hstands, qualified_joinWith hwords (List.cons_ne_nil _ _)] at hrename
      exact hread _ _ hrename (misreads_column hother (.inr ⟨step, rfl⟩)
        (List.forall_mem_cons.2 ⟨hstep, List.forall_mem_singleton.2 htype⟩) hchanged)

/-- A naming that has read a fragment reads it again without a warning. It leaves the fragment alone unless
the path starts with an alias. -/
theorem rename_understood {f : Fragment} (hvalid : f.Valid) (hresolved : n.isResolved f.path) :
    ∃ again, n.rename f.text = pure again ∧
      ((∀ first ∈ f.path.head?, n.tree.path? first = none) → again = f.text) := by
  cases hsplit : n.split? f.path with
  | none => exact ⟨f.text, rename_resolved (Fragment.parse?_text hvalid) hsplit hresolved, fun _ => rfl⟩
  | some read =>
    obtain ⟨hname, rest, -, hpath, -⟩ := split?_eq_some_iff.1 hsplit
    have hknown := (Tree.path?_isSome_iff hresolve).1 hname
    refine ⟨_, rename_path (Fragment.parse?_text hvalid) hsplit (qualifier_eq hresolve hknown), fun hnone => ?_⟩
    rw [hnone read.1 (by rw [hpath]; rfl)] at hname
    cases hname

section Keyed

variable (hkeyed : ∀ j ∈ joins, j.Keyed)

include hkeyed

/-- Renaming puts the words that the alias stands for in its place. -/
theorem exists_renamed {f : Fragment} (hvalid : f.Valid) {name : String} {rest : List String}
    (hpath : f.path = name :: rest) (hrest : IsField rest) (hname : (n.tree.path? name).isSome) :
    ∃ steps, (∀ step ∈ steps, IsWord step) ∧ n.standsFor name = joinWith "." steps ∧
      (f.withPath (steps ++ rest)).Valid ∧ n.rename f.text = pure (f.withPath (steps ++ rest)).text := by
  have hknown := (Tree.path?_isSome_iff hresolve).1 hname
  have hsplit : n.split? f.path = some (name, joinWith "." rest) :=
    split?_eq_some_iff.2 ⟨hname, rest, hrest, hpath, rfl⟩
  obtain ⟨table, steps, -, htable, hsteps, -, hstands⟩ := exists_steps hresolve hkeyed hknown
  obtain ⟨words, hwords, hstands⟩ :
      ∃ words : List String, (∀ word ∈ words, IsWord word) ∧ n.standsFor name = joinWith "." words := by
    refine ⟨_, ?_, hstands⟩
    split
    · exact hsteps
    · exact List.forall_mem_cons.2 ⟨htable, hsteps⟩
  refine ⟨words, hwords, hstands, hvalid.withPath ?_ ?_, ?_⟩
  · exact List.append_ne_nil_of_right_ne_nil words hrest.ne_nil
  · intro step hstep
    rcases List.mem_append.1 hstep with hstep | hstep
    · exact hwords step hstep
    · exact hvalid.path step (hpath ▸ List.mem_cons_of_mem name hstep)
  · rw [rename_path (Fragment.parse?_text hvalid) hsplit (qualifier_eq hresolve hknown), hstands,
      qualified_joinWith hwords hrest.ne_nil]
    rfl

/-- Only the root stands for nothing, and only where its table is left out. -/
theorem root_isMinimal {name : String} (hname : (n.tree.path? name).isSome) (h : n.standsFor name = "") :
    n.tree.root.any n.isMinimal := by
  have hknown := (Tree.path?_isSome_iff hresolve).1 hname
  obtain ⟨table, steps, -, htable, hsteps, hpath, hstands⟩ := exists_steps hresolve hkeyed hknown
  rw [h] at hstands
  cases hminimal : n.isMinimal name with
  | true =>
    rw [hminimal, if_pos rfl] at hstands
    rw [(Tree.path?_eq_empty_iff hresolve hpath).1 hstands.symm]
    exact hminimal
  | false =>
    rw [hminimal, if_neg Bool.false_ne_true] at hstands
    have hwords : ∀ word ∈ table :: steps, IsWord word := List.forall_mem_cons.2 ⟨htable, hsteps⟩
    exact absurd ((Text.joinWith_eq_empty_iff "." hwords).1 hstands.symm) (List.cons_ne_nil _ _)

/-- A field behind what an alias stands for is recognised. -/
theorem isResolved_renamed {name : String} {steps rest : List String} (hname : (n.tree.path? name).isSome)
    (hsteps : ∀ step ∈ steps, IsWord step) (hstands : n.standsFor name = joinWith "." steps)
    (hrest : IsField rest) : n.isResolved (steps ++ rest) := by
  have hisPath : steps ≠ [] → n.tree.isPath (joinWith "." steps) := by
    intro hne
    rw [← hstands]
    refine isPath_standsFor hname fun hempty => hne ?_
    exact (Text.joinWith_eq_empty_iff "." hsteps).1 (hstands.symm.trans hempty)
  rcases hrest with ⟨first, rfl⟩ | ⟨first, rfl⟩
  · exact isResolved_field hisPath first
  · refine isResolved_discriminator hisPath (fun hempty => ?_) first
    refine root_isMinimal hresolve hkeyed hname ?_
    rw [hstands, hempty]
    rfl

end Keyed

variable (hworded : ∀ j ∈ joins, j.Worded)

include hworded

/-- What has been renamed is changed by a second pass exactly when it is misread. -/
theorem rename_again {text renamed : String} (h : (n.rename text).result = .ok renamed) :
    (n.rename renamed).result = .ok renamed ↔ ¬ n.Misreads renamed := by
  refine ⟨not_misreads hresolve, fun hread => ?_⟩
  have hkeyed : ∀ j ∈ joins, j.Keyed := fun j hj => (hworded j hj).keyed
  rcases rename_ok h with rfl | ⟨f, name, field, q, hparse, hsplit, -, -⟩
  · exact h
  · obtain ⟨hvalid, rfl⟩ := Fragment.parse?_eq_some_iff.1 hparse
    obtain ⟨hname, rest, hrest, hpath, rfl⟩ := split?_eq_some_iff.1 hsplit
    obtain ⟨steps, hsteps, hstands, hvalid, hrename⟩ :=
      exists_renamed hresolve hkeyed hvalid hpath hrest hname
    rw [hrename] at h
    cases h
    cases hagain : n.split? (steps ++ rest) with
    | some read => exact rename_eq_self_of_split hresolve hvalid hagain hread
    | none =>
      have hresolved := isResolved_renamed hresolve hkeyed hname hsteps hstands hrest
      rw [rename_resolved (Fragment.parse?_text hvalid) hagain hresolved]
      rfl

theorem not_misreads_of_unambiguous (hclear : n.Unambiguous) {text renamed : String}
    (h : (n.rename text).result = .ok renamed) : ¬ n.Misreads renamed := by
  rcases rename_ok h with rfl | ⟨f, name, field, q, hparse, hsplit, -, -⟩
  · exact not_misreads hresolve h
  obtain ⟨hvalid, rfl⟩ := Fragment.parse?_eq_some_iff.1 hparse
  obtain ⟨hname, rest, hrest, hpath, rfl⟩ := split?_eq_some_iff.1 hsplit
  obtain ⟨steps, hsteps, hstands, hagain, hrename⟩ :=
    exists_renamed hresolve (fun j hj => (hworded j hj).keyed) hvalid hpath hrest hname
  rw [hrename] at h
  cases h
  rintro ⟨g, other, rest', hg, htext, hpath', hrest', hother, hchanged⟩
  obtain rfl : g = f.withPath (steps ++ rest) := by
    rw [← Option.some_inj, ← Fragment.parse?_text hg, htext, Fragment.parse?_text hagain]
  have hnames : n.Names name := ⟨hvalid.path name (hpath ▸ List.mem_cons_self), hname⟩
  have hothers : n.Names other := ⟨hg.path other (hpath' ▸ List.mem_cons_self), hother⟩
  refine hchanged (hclear.leading name other hnames hothers ?_)
  have hpath' : steps ++ rest = other :: rest' := hpath'
  -- At most three steps are read, and the last one is no step of what the alias stands for.
  match steps with
  | [] => exact absurd hstands (hclear.qualified name hnames)
  | [step] =>
    obtain ⟨rfl, -⟩ := List.cons.inj hpath'
    exact .inl hstands
  | [step, next] =>
    obtain ⟨rfl, -⟩ := List.cons.inj hpath'
    exact .inr ⟨next, hsteps next (by simp), hstands⟩
  | step :: next :: third :: more =>
    have hlength := congrArg List.length hpath'
    rcases hrest with ⟨field, rfl⟩ | ⟨field, rfl⟩ <;> rcases hrest' with ⟨field', rfl⟩ | ⟨field', rfl⟩ <;>
      simp at hlength

end Resolved

/-- What has been renamed is changed by a second pass exactly when it is misread (in a strict naming this
needs tables and columns that are words, as the second pass fails on what it cannot read). Over such tables
and columns, a second pass changes nothing at all exactly when the naming is unambiguous. -/
theorem rename_again_iff {n : Naming} {joins : List Join} (hresolve : Tree.resolve joins = .ok n.tree) :
    (∀ text renamed, (n.rename text).result = .ok renamed → (n.strict → ∀ j ∈ joins, j.Worded) →
      ((n.rename renamed).result = .ok renamed ↔ ¬ n.Misreads renamed)) ∧
    ((∀ j ∈ joins, j.Worded) →
      ((∀ text renamed, (n.rename text).result = .ok renamed → (n.rename renamed).result = .ok renamed) ↔
        n.Unambiguous)) := by
  refine ⟨fun text renamed h hworded => ?_, fun hworded => ⟨fun hagain => ?_, fun hclear text renamed h => ?_⟩⟩
  · cases hstrict : n.strict with
    | true => exact rename_again hresolve (hworded hstrict) h
    | false => exact ⟨not_misreads hresolve, rename_eq_self_of_lenient hresolve hstrict⟩
  · exact unambiguous_of_not_misreads hresolve fun text renamed h =>
      not_misreads hresolve (hagain text renamed h)
  · exact (rename_again hresolve hworded h).2 (not_misreads_of_unambiguous hresolve hworded hclear h)

/-- The naming of joins that have a tree. -/
def ofJoins (joins : List Join) (minimalTables : List String) : Naming where
  tree := (Tree.resolve joins).toOption.getD {}
  minimalTables := minimalTables
  strict := true

theorem ofJoins_resolve {joins : List Join} (minimalTables : List String)
    (h : (Tree.resolve joins).toOption.isSome) : Tree.resolve joins = .ok (ofJoins joins minimalTables).tree := by
  obtain ⟨tree, htree⟩ := exists_eq_ok h
  rw [ofJoins, htree]
  rfl

def contactsByLetter : List Join :=
  [.base "Contact" "C", .single "C" "Account" "AccountId" "Id" "A"]

theorem contactsByLetter_again :
    Tree.resolve contactsByLetter = .ok (ofJoins contactsByLetter []).tree ∧
    (∀ text renamed, ((ofJoins contactsByLetter []).rename text).result = .ok renamed →
      ((ofJoins contactsByLetter []).rename renamed).result = .ok renamed) ∧
    ((ofJoins contactsByLetter []).rename "MAX(A.CreatedDate) latest").result =
      .ok "MAX(Contact.Account.CreatedDate) latest" := by
  have hresolve := ofJoins_resolve [] (by decide +kernel : (Tree.resolve contactsByLetter).toOption.isSome)
  have hnames : ∀ name, (ofJoins contactsByLetter []).Names name → name = "C" ∨ name = "A" := by
    intro name hname
    simpa [contactsByLetter, Join.base, Join.single] using (Tree.path?_isSome_iff hresolve).1 hname.2
  -- All that an alias stands for starts with the table, and no alias has a second letter.
  have hsecond : ∀ name, (ofJoins contactsByLetter []).Names name →
      ((ofJoins contactsByLetter []).standsFor name).toList[1]? = some 'o' := by
    intro name hname
    rcases hnames name hname with rfl | rfl <;> decide +kernel
  refine ⟨hresolve, ((rename_again_iff hresolve).2 (by decide)).2 ⟨?_, ?_⟩, by decide +kernel⟩
  · intro name hname hempty
    have hletter := hsecond name hname
    simp [hempty] at hletter
  · intro name other hname hother hleads
    have hletter := hsecond name hname
    rcases hleads with hstands | ⟨step, -, hstands⟩ <;> rcases hnames other hother with rfl | rfl <;>
      simp [hstands] at hletter

def contactsByTable : List Join :=
  [.base "Contact" "Contact", .single "Contact" "Account" "AccountId" "Id" "Account"]

theorem contactsByTable_changed_twice :
    Tree.resolve contactsByTable = .ok (ofJoins contactsByTable ["Contact"]).tree ∧
    ((ofJoins contactsByTable ["Contact"]).rename "Account.Type").result = .ok "Contact.Account.Type" ∧
    ((ofJoins contactsByTable ["Contact"]).rename "Contact.Account.Type").result = .ok "Account.Type" := by
  refine ⟨ofJoins_resolve _ ?_, ?_, ?_⟩ <;> decide +kernel

/-! ### Reading what renaming writes -/

/-- **What renaming writes is recognised.** The text with an alias replaced is read as the same calls, the same
tail, and a path of the qualifier's steps and the field. It is renamed again without a warning, strictly or not,
and stays as it is unless it starts with an alias. -/
theorem renamed_recognised {n : Naming} {joins : List Join} (hresolve : Tree.resolve joins = .ok n.tree)
    (hkeyed : ∀ j ∈ joins, j.Keyed) {s : String} {f : Fragment} {name : String} {rest : List String}
    (hparse : Fragment.parse? s = some f) (hpath : f.path = name :: rest) (hrest : IsField rest)
    (hname : (n.tree.path? name).isSome) :
    ∃ steps renamed, n.qualifier name = .ok (joinWith "." steps) ∧ (∀ step ∈ steps, IsWord step) ∧
      n.rename s = pure renamed ∧ Fragment.parse? renamed = some { f with path := steps ++ rest } ∧
      ∀ strict, ∃ again, { n with strict }.rename renamed = pure again ∧
        ((∀ first ∈ (steps ++ rest).head?, n.tree.path? first = none) → again = renamed) := by
  obtain ⟨hvalid, rfl⟩ := Fragment.parse?_eq_some_iff.1 hparse
  obtain ⟨steps, hsteps, hstands, hagain, hrename⟩ := exists_renamed hresolve hkeyed hvalid hpath hrest hname
  refine ⟨steps, _, ?_, hsteps, hrename, Fragment.parse?_text hagain, fun strict => ?_⟩
  · rw [← hstands]
    exact qualifier_eq hresolve ((Tree.path?_isSome_iff hresolve).1 hname)
  · have hresolve : Tree.resolve joins = .ok { n with strict }.tree := hresolve
    exact rename_understood hresolve hagain (isResolved_renamed hresolve hkeyed hname hsteps hstands hrest)

def ownersOfAccounts : List Join :=
  [.base "Contact" "C", .single "C" "Account" "AccountId" "Id" "A", .single "A" "User" "OwnerId" "Id" "U"]

theorem ownersOfAccounts_recognised :
    Tree.resolve ownersOfAccounts = .ok (ofJoins ownersOfAccounts ["User"]).tree ∧
    (∀ j ∈ ownersOfAccounts, j.Keyed) ∧
    (ofJoins ownersOfAccounts ["User"]).rename "MAX(U.Owner.Type) latest" =
      pure "MAX(Account.Owner.Owner.Type) latest" ∧
    Fragment.parse? "MAX(Account.Owner.Owner.Type) latest" =
      some ⟨["MAX"], ["Account", "Owner", "Owner", "Type"], 1, some (.label "latest")⟩ ∧
    ∀ strict, { ofJoins ownersOfAccounts ["User"] with strict }.rename "MAX(Account.Owner.Owner.Type) latest" =
      pure "MAX(Account.Owner.Owner.Type) latest" := by
  have hresolve := ofJoins_resolve ["User"] (by decide +kernel : (Tree.resolve ownersOfAccounts).toOption.isSome)
  have hworded : ∀ j ∈ ownersOfAccounts, j.Worded := by decide
  have hkeyed : ∀ j ∈ ownersOfAccounts, j.Keyed := fun j hj => (hworded j hj).keyed
  have hparse : Fragment.parse? "MAX(U.Owner.Type) latest" =
      some ⟨["MAX"], ["U", "Owner", "Type"], 1, some (.label "latest")⟩ := by
    decide +kernel
  have hresult : ((ofJoins ownersOfAccounts ["User"]).rename "MAX(U.Owner.Type) latest").result =
      .ok "MAX(Account.Owner.Owner.Type) latest" := by
    decide +kernel
  have hagain : Fragment.parse? "MAX(Account.Owner.Owner.Type) latest" =
      some ⟨["MAX"], ["Account", "Owner", "Owner", "Type"], 1, some (.label "latest")⟩ := by
    decide +kernel
  obtain ⟨steps, renamed, -, -, hrename, hreread, hstays⟩ :=
    renamed_recognised hresolve hkeyed hparse rfl (.inr ⟨"Owner", rfl⟩) (by decide +kernel)
  rw [hrename] at hresult
  cases hresult
  have hpath : steps ++ ["Owner", "Type"] = ["Account", "Owner", "Owner", "Type"] :=
    congrArg Fragment.path (Option.some_inj.1 (hreread.symm.trans hagain))
  refine ⟨hresolve, hkeyed, hrename, hagain, fun strict => ?_⟩
  obtain ⟨again, hagain, hsame⟩ := hstays strict
  rw [hagain, hsame]
  rw [hpath]
  decide +kernel

end Naming

end PathQuery
