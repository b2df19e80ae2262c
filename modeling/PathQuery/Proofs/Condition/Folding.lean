import Mathlib.Data.List.Perm.Basic
import PathQuery.Proofs.Condition.Meaning
import PathQuery.Proofs.Substitution
/-!
# Folding of constants

Which of the three outcomes a filter has can be told from its leaves alone. Some leaves are constants, the others
are not known before a row is looked at, and the strong Kleene tables say what is known of the whole. A filter
compiles to a constant exactly when the tables give that constant, so the order of the parts of a group, anywhere
in the filter, makes no difference to the kind of its outcome.

The branches that gave text and those still to come are what the countdowns count. As long as a group is open both
countdowns are positive, so no branch takes one of them below zero.
-/

namespace PathQuery

/-! ### Three truth values -/

/-- The strong Kleene tables, with `none` for a value that is not known. -/
def Connective.kleene : Connective → Option Bool → Option Bool → Option Bool
  | .and, some a, some b => some (a && b)
  | .and, some false, none => some false
  | .and, none, some false => some false
  | .or, some a, some b => some (a || b)
  | .or, some true, none => some true
  | .or, none, some true => some true
  | _, _, _ => none

/-- What is known of several parts together. -/
def Connective.weigh (connective : Connective) (values : List (Option Bool)) : Option Bool :=
  values.foldr connective.kleene (some connective.unit)

namespace Connective

variable {connective : Connective}

theorem kleene_comm (a b : Option Bool) : connective.kleene a b = connective.kleene b a := by
  cases connective <;> rcases a with _ | _ | _ <;> rcases b with _ | _ | _ <;> rfl

theorem kleene_assoc (a b c : Option Bool) :
    connective.kleene (connective.kleene a b) c = connective.kleene a (connective.kleene b c) := by
  cases connective <;> rcases a with _ | _ | _ <;> rcases b with _ | _ | _ <;> rcases c with _ | _ | _ <;> rfl

theorem unit_kleene (a : Option Bool) : connective.kleene (some connective.unit) a = a := by
  cases connective <;> rcases a with _ | _ | _ <;> rfl

theorem decided_kleene (a : Option Bool) :
    connective.kleene (some !connective.unit) a = some !connective.unit := by
  cases connective <;> rcases a with _ | _ | _ <;> rfl

theorem unknown_kleene : connective.kleene none none = none := by
  cases connective <;> rfl

theorem weigh_perm {values others : List (Option Bool)} (h : values.Perm others) :
    connective.weigh values = connective.weigh others := by
  have hcomm : LeftCommutative connective.kleene := by
    refine ⟨fun a b c => ?_⟩
    rw [← kleene_assoc, kleene_comm a b, kleene_assoc]
  exact h.foldr_eq _

end Connective

/-- What is known of a tree from what is known of its leaves. A group without parts holds of everything. -/
def Formula.kleene {α : Type} (v : α → Option Bool) : Formula α → Option Bool :=
  fold v fun connective negated _ values =>
    if values.isEmpty then some true else (connective.weigh values).map (negated ^^ ·)

theorem Formula.kleene_group {α : Type} (v : α → Option Bool) (connective : Connective) (negated grouped : Bool)
    (parts : List (Formula α)) :
    (group connective negated grouped parts).kleene v =
      if parts.isEmpty then some true
      else (connective.weigh (parts.map (kleene v))).map (negated ^^ ·) := by
  rw [kleene, fold, foldAll_eq_map, List.isEmpty_map]

/-- The truth value of a leaf that does not depend on the row. -/
def Condition.constant? : Condition → Option Bool
  | .everything => some true
  | .nothing => some false
  | .raw sql => if sql.isEmpty then some true else none
  | .lookup ⟨_, .oneOf, .list []⟩ => some false
  | .lookup _ => none
  | .group _ => none

/-- Which of the three outcomes it is. -/
def Outcome.kind : Outcome → Option Bool
  | .everything => some true
  | .nothing => some false
  | .sql _ _ => none

/-- What is known of a filter before any row is looked at. -/
def Filter.known (g : Filter) : Option Bool :=
  (g.formula []).kleene fun leaf => leaf.2.constant?

theorem Outcome.kind_ofBool (b : Bool) : (ofBool b).kind = some b := by
  cases b <;> rfl

/-- Only a membership in no values is known to hold of nothing. -/
theorem Lookup.rhs_of_nothing {l : Lookup} (h : l.predicate = .ok .nothing) : l.kind = .oneOf ∧ l.rhs = .list [] := by
  obtain ⟨lhs, kind, rhs⟩ := l
  rw [predicate] at h
  dsimp only at h
  split at h
  · cases h
  · cases h
  · cases h
  · exact ⟨rfl, rfl⟩
  · cases h
  · cases h
  · split at h
    · cases h
    · cases h
    · split at h <;> cases h
    · cases h

theorem Lookup.constant?_of_predicate {l : Lookup} {outcome : Outcome} (h : l.predicate = .ok outcome) :
    outcome.constant? = (Condition.lookup l).constant? := by
  by_cases hnone : l.kind = .oneOf ∧ l.rhs = .list []
  · obtain ⟨lhs, kind, rhs⟩ := l
    obtain ⟨rfl, rfl⟩ := hnone
    cases h
    rfl
  · have hunknown : (Condition.lookup l).constant? = none := by
      rw [Condition.constant?]
      rintro lhs rfl
      exact hnone ⟨rfl, rfl⟩
    rw [hunknown]
    rcases predicate_cases h with rfl | ⟨tail, values, -, hpredicate⟩
    · exact absurd (rhs_of_nothing h) hnone
    · cases h.symm.trans (hpredicate l.lhs)
      exact if_neg (by simp [Sql.isEmpty])

/-! ### One branch -/

namespace FilterRules

/-- Renaming succeeds on the text of an outcome, where there is any. -/
def Renames (rules : FilterRules) (outcome : Outcome) : Prop :=
  ∀ sql, outcome = .sql sql false → sql.text ≠ "" → ∃ name, (rules.rename sql.text).result = .ok name

/-- The leaf compiles and its text is renamed, both without an error. -/
def Takes (rules : FilterRules) (c : Condition) : Prop :=
  ∃ outcome, (c.compile rules).result = .ok outcome ∧ rules.Renames outcome

end FilterRules

namespace Progress

variable {rules : FilterRules} {connective : Connective} {negated grouped : Bool} {p q : Progress}

theorem absorb_succeeds {outcome : Outcome} (h : rules.Renames outcome) :
    ∃ q, (p.absorb rules outcome).result = .ok q := by
  cases outcome with
  | everything => exact ⟨_, rfl⟩
  | nothing => exact ⟨_, rfl⟩
  | sql sql resolved =>
    rw [absorb]
    split
    · exact ⟨_, rfl⟩
    · rename_i hne
      have htext : sql.text ≠ "" := by simpa [Sql.isEmpty] using hne
      cases resolved with
      | true => exact ⟨_, rfl⟩
      | false =>
        obtain ⟨name, hname⟩ := h sql rfl htext
        exact ⟨_, Report.bind_result_eq_ok.2 ⟨name, Report.mapError_result_eq_ok.2 hname, rfl⟩⟩

/-- What is known of the branches that are done: those that are left out do not matter, and those that gave
text are not known. -/
def known (connective : Connective) (p : Progress) : Option Bool :=
  if p.parts.isEmpty then some connective.unit else none

/-- A group with some text and `left` more branches. Its countdowns count both. -/
structure Open (connective : Connective) (p : Progress) (left : Nat) : Prop where
  tally : p.tally = .start connective (p.parts.length + left)
  parts : ∀ part ∈ p.parts, part ≠ ""

/-- One more branch. It decides the group, or it leaves the group open with one branch less. -/
theorem Open.step (hrules : rules.Proper) {left : Nat} (hp : p.Open connective (left + 1)) {outcome : Outcome}
    (h : (p.absorb rules outcome).result = .ok q) :
    (outcome.constant? = some (!connective.unit) ∧
        q.settled? negated = some (.ofBool (negated ^^ !connective.unit))) ∨
      q.Open connective left ∧
        q.known connective = connective.kleene (p.known connective) outcome.constant? := by
  rcases absorb_cases h with ⟨b, hb, rfl⟩ | ⟨sql, resolved, name, rfl, hne, hname, rfl⟩
  · have hb : outcome.constant? = some b := hb
    rw [hb]
    by_cases hunit : b = connective.unit
    · subst hunit
      refine .inr ⟨⟨?_, hp.parts⟩, ?_⟩
      · rw [hp.tally]
        exact drop_unit _
      · rw [Connective.kleene_comm, Connective.unit_kleene]
        rfl
    · obtain rfl : b = !connective.unit := Bool.eq_not_of_ne hunit
      exact .inl ⟨rfl, settled?_drop (congrArg (Tally.drop !connective.unit) hp.tally)⟩
  · have hunknown : Outcome.constant? (.sql sql resolved) = none := if_neg (by simpa [Sql.isEmpty] using hne)
    refine .inr ⟨⟨?_, ?_⟩, ?_⟩
    · rw [List.length_append, List.length_singleton, Nat.add_right_comm, Nat.add_assoc]
      exact hp.tally
    · intro part hpart
      rcases List.mem_append.1 hpart with hpart | hpart
      · exact hp.parts part hpart
      · rw [List.mem_singleton.1 hpart]
        cases resolved with
        | true => exact hname ▸ hne
        | false => exact hrules _ _ hne hname
    · have hsome : (p.parts ++ [name]).isEmpty = false := by simp
      rw [hunknown, known, known, hsome]
      cases p.parts.isEmpty with
      | true => exact (Connective.unit_kleene none).symm
      | false => exact Connective.unknown_kleene.symm

end Progress

/-! ### All branches -/

mutual

theorem Condition.compile_folds {rename : String → Report NamingError String}
    (hrules : FilterRules.Proper { rename }) (here : Place) (c : Condition)
    (h : ∀ leaf ∈ (c.formula here).leaves, FilterRules.Takes { rename } leaf.2) :
    ∃ outcome, (c.compile { rename }).result = .ok outcome ∧
      outcome.constant? = ((c.formula here).kleene fun leaf => leaf.2.constant?) ∧ FilterRules.Renames { rename } outcome := by
  cases c with
  | group g =>
    obtain ⟨outcome, hcompile, hkind⟩ := Filter.compile_folds hrules here g h
    have hsettles := Filter.compile_settles hrules here g hcompile
    refine ⟨outcome, hcompile, ?_, ?_⟩
    · rw [Condition.formula, ← hkind]
      cases outcome with
      | everything => rfl
      | nothing => rfl
      | sql sql resolved =>
        obtain ⟨-, f, hf⟩ := hsettles
        exact if_neg (by simpa [Sql.isEmpty] using hf.text_ne)
    · rintro sql rfl
      -- The text of a group is named already.
      exact Bool.noConfusion hsettles.1
  | lookup l =>
    obtain ⟨outcome, hcompile, hrenames⟩ := h _ List.mem_cons_self
    exact ⟨outcome, hcompile, Lookup.constant?_of_predicate hcompile, hrenames⟩
  | raw | everything | nothing =>
    obtain ⟨outcome, hcompile, hrenames⟩ := h _ List.mem_cons_self
    cases hcompile
    exact ⟨_, rfl, rfl, hrenames⟩

theorem Filter.compile_folds {rename : String → Report NamingError String}
    (hrules : FilterRules.Proper { rename }) (here : Place) (g : Filter)
    (h : ∀ leaf ∈ (g.formula here).leaves, FilterRules.Takes { rename } leaf.2) :
    ∃ outcome, (g.compile { rename }).result = .ok outcome ∧
      outcome.kind = (g.formula here).kleene fun leaf => leaf.2.constant? := by
  obtain ⟨connective, children, negated, grouped⟩ := g
  rw [Filter.formula, Formula.leaves_group] at h
  rw [Filter.formula, Formula.kleene_group]
  cases children with
  | nil => exact ⟨_, rfl, rfl⟩
  | cons c rest =>
    have hstart : Progress.Open connective { tally := .start connective (rest.length + 1) }
        (c :: rest).length :=
      ⟨by rw [List.length_nil, Nat.zero_add, List.length_cons], List.forall_mem_nil _⟩
    obtain ⟨outcome, hcompile, hkind⟩ := compileChildren_folds hrules here 0 (c :: rest) h hstart (by simp)
    refine ⟨outcome, hcompile, ?_⟩
    rw [hkind]
    exact congrArg (Option.map _) (Connective.unit_kleene _)

theorem compileChildren_folds {rename : String → Report NamingError String}
    (hrules : FilterRules.Proper { rename }) (here : Place) (next : Nat) (children : List Condition)
    (h : ∀ leaf ∈ (formulasOfAll here next children).flatMap Formula.leaves,
      FilterRules.Takes { rename } leaf.2)
    {connective : Connective} {negated grouped : Bool} {p : Progress}
    (hp : p.Open connective children.length) (hsome : p.parts.length + children.length ≠ 0) :
    ∃ outcome, (compileChildren { rename } connective negated grouped p children).result = .ok outcome ∧
      outcome.kind = (connective.kleene (p.known connective)
        (connective.weigh ((formulasOfAll here next children).map (Formula.kleene fun leaf => leaf.2.constant?)))).map
          (negated ^^ ·) := by
  cases children with
  | nil =>
    have hparts : p.parts ≠ [] := List.ne_nil_of_length_pos (Nat.pos_of_ne_zero hsome)
    have hunknown : p.known connective = none := by
      rw [Progress.known, List.isEmpty_eq_false_iff.2 hparts]
      rfl
    refine ⟨_, congrArg Except.ok (Progress.finish_eq hparts hp.parts), ?_⟩
    rw [hunknown, formulasOfAll, List.map_nil, Connective.weigh, List.foldr_nil, Connective.kleene_comm,
      Connective.unit_kleene]
    rfl
  | cons c rest =>
    rw [formulasOfAll, List.flatMap_cons, List.forall_mem_append] at h
    obtain ⟨childOutcome, hchild, hvalue, hrenames⟩ := c.compile_folds hrules (next :: here) h.1
    obtain ⟨q, hq⟩ := Progress.absorb_succeeds (p := p) hrenames
    rw [formulasOfAll, List.map_cons, Connective.weigh, List.foldr_cons, ← hvalue]
    rcases hp.step hrules hq with ⟨hdecided, hsettled⟩ | ⟨hopen, hknown⟩
    · refine ⟨_, compileChildren_settled hchild hq hsettled, ?_⟩
      rw [hdecided, Connective.decided_kleene, Connective.kleene_comm, Connective.decided_kleene,
        Outcome.kind_ofBool, Option.map_some]
    · rw [← Connective.kleene_assoc, ← hknown]
      have hsettled : q.settled? negated = if q.parts.length + rest.length = 0 then
          some (.ofBool (negated ^^ connective.unit)) else none := Progress.settled?_start hopen.tally
      by_cases hleft : q.parts.length + rest.length = 0
      · -- All branches were constant and none of them decided, so nothing is left to decide.
        obtain ⟨hparts, hrest⟩ := Nat.add_eq_zero_iff.1 hleft
        rw [if_pos hleft] at hsettled
        refine ⟨_, compileChildren_settled hchild hq hsettled, ?_⟩
        rw [Progress.known, List.length_eq_zero_iff.1 hparts, List.length_eq_zero_iff.1 hrest, formulasOfAll,
          List.map_nil, List.foldr_nil, List.isEmpty_nil, if_pos rfl, Connective.unit_kleene,
          Outcome.kind_ofBool, Option.map_some]
      · rw [if_neg hleft] at hsettled
        rw [compileChildren_open hchild hq hsettled]
        exact compileChildren_folds hrules here (next + 1) rest h.2 hopen hleft

end

/-! ### The order of branches -/

section Places

variable {β : Type} (leaf : Condition → β) (group : Connective → Bool → Bool → List β → β)

mutual

/-- What is gathered from the leaves of a tree does not depend on where the tree stands. -/
theorem Condition.fold_formula (here there : Place) (c : Condition) :
    (c.formula here).fold (fun l => leaf l.2) group = (c.formula there).fold (fun l => leaf l.2) group := by
  cases c with
  | group g => exact Filter.fold_formula here there g
  | lookup | raw | everything | nothing => rfl

theorem Filter.fold_formula (here there : Place) (g : Filter) :
    (g.formula here).fold (fun l => leaf l.2) group = (g.formula there).fold (fun l => leaf l.2) group := by
  obtain ⟨connective, children, negated, grouped⟩ := g
  rw [Filter.formula, Filter.formula, Formula.fold, Formula.fold, foldAll_formulas here there 0 0 children]

theorem foldAll_formulas (here there : Place) (next other : Nat) (children : List Condition) :
    Formula.foldAll (fun l => leaf l.2) group (formulasOfAll here next children) =
      Formula.foldAll (fun l => leaf l.2) group (formulasOfAll there other children) := by
  cases children with
  | nil => rfl
  | cons c rest =>
    rw [formulasOfAll, formulasOfAll, Formula.foldAll, Formula.foldAll,
      c.fold_formula (next :: here) (other :: there), foldAll_formulas here there (next + 1) (other + 1) rest]

end

end Places

/-- The filter is gathered from its branches. -/
theorem Filter.fold_group {β : Type} (leaf : Condition → β) (group : Connective → Bool → Bool → List β → β)
    (connective : Connective) (children : List Condition) (negated grouped : Bool) :
    (Filter.formula [] ⟨connective, children, negated, grouped⟩).fold (fun l => leaf l.2) group =
      group connective negated grouped
        (children.map fun c => (c.formula []).fold (fun l => leaf l.2) group) := by
  have hbranches : ∀ next, Formula.foldAll (fun l => leaf l.2) group (formulasOfAll [] next children) =
      children.map fun c => (c.formula []).fold (fun l => leaf l.2) group := by
    intro next
    induction children generalizing next with
    | nil => rfl
    | cons c rest ih =>
      rw [formulasOfAll, Formula.foldAll, ih, List.map_cons, c.fold_formula leaf group [next] []]
  rw [Filter.formula, Formula.fold, hbranches]

/-- The same filter with the branches of some of its groups in another order. -/
inductive Filter.Reordered : Filter → Filter → Prop
  | branches {connective : Connective} {children others : List Condition} {negated grouped : Bool}
      (h : children.Perm others) :
      Reordered ⟨connective, children, negated, grouped⟩ ⟨connective, others, negated, grouped⟩
  | inside {connective : Connective} {before after : List Condition} {g other : Filter} {negated grouped : Bool}
      (h : Reordered g other) :
      Reordered ⟨connective, before ++ .group g :: after, negated, grouped⟩
        ⟨connective, before ++ .group other :: after, negated, grouped⟩
  | trans {g other last : Filter} (h : Reordered g other) (h' : Reordered other last) : Reordered g last

/-- The order of branches does not matter to what does not look at the order of parts. -/
theorem Filter.Reordered.fold_eq {β : Type} {leaf : Condition → β}
    {group : Connective → Bool → Bool → List β → β}
    (hgroup : ∀ connective negated grouped (parts others : List β), parts.Perm others →
      group connective negated grouped parts = group connective negated grouped others)
    {g other : Filter} (h : g.Reordered other) :
    (g.formula []).fold (fun l => leaf l.2) group = (other.formula []).fold (fun l => leaf l.2) group := by
  induction h with
  | branches h =>
    rw [fold_group, fold_group]
    exact hgroup _ _ _ _ _ (h.map _)
  | @inside connective before after g other negated grouped h ih =>
    rw [fold_group, fold_group, List.map_append, List.map_append, List.map_cons, List.map_cons,
      Condition.formula, Condition.formula, ih]
  | trans _ _ ih ih' => exact ih.trans ih'

mutual

/-- Whether something holds of all leaves can be gathered from the leaves. -/
theorem Formula.forall_leaves_iff {α : Type} (P : α → Prop) (f : Formula α) :
    (∀ a ∈ f.leaves, P a) ↔ f.fold P fun _ _ _ parts => ∀ part ∈ parts, part := by
  cases f with
  | leaf a => rw [Formula.leaves_leaf, Formula.fold, List.forall_mem_singleton]
  | group connective negated grouped parts =>
    rw [Formula.leaves_group, Formula.fold]
    exact formulas_forall_leaves_iff P parts

theorem formulas_forall_leaves_iff {α : Type} (P : α → Prop) (parts : List (Formula α)) :
    (∀ a ∈ parts.flatMap Formula.leaves, P a) ↔
      ∀ part ∈ Formula.foldAll P (fun _ _ _ parts => ∀ part ∈ parts, part) parts, part := by
  cases parts with
  | nil => exact iff_of_true (List.forall_mem_nil _) (List.forall_mem_nil _)
  | cons part rest =>
    rw [List.flatMap_cons, List.forall_mem_append, Formula.foldAll, List.forall_mem_cons,
      part.forall_leaves_iff P, formulas_forall_leaves_iff P rest]

end

namespace Filter.Reordered

variable {g other : Filter} (h : g.Reordered other)

include h

theorem known_eq : g.known = other.known := by
  refine h.fold_eq fun connective negated _ parts others hperm => ?_
  rw [hperm.isEmpty_eq, Connective.weigh_perm hperm]

theorem forall_leaves (P : Condition → Prop) :
    (∀ leaf ∈ (g.formula []).leaves, P leaf.2) ↔ ∀ leaf ∈ (other.formula []).leaves, P leaf.2 := by
  have hfold : (g.formula []).fold (fun leaf => P leaf.2) (fun _ _ _ parts => ∀ part ∈ parts, part) =
      (other.formula []).fold (fun leaf => P leaf.2) fun _ _ _ parts => ∀ part ∈ parts, part := by
    refine h.fold_eq fun connective negated grouped parts others hperm => propext ?_
    exact ⟨fun hall part hpart => hall part (hperm.mem_iff.2 hpart),
      fun hall part hpart => hall part (hperm.mem_iff.1 hpart)⟩
  exact (Formula.forall_leaves_iff _ _).trans ((iff_of_eq hfold).trans (Formula.forall_leaves_iff _ _).symm)

end Filter.Reordered

/-! ### Countdowns -/

/-- The states that a run passes through: in the group `h`, the filter itself or one inside of it, the branches in
`rest` are still to come. -/
inductive Filter.Reaches (rules : FilterRules) : Filter → Filter → Progress → List Condition → Prop
  | start (g : Filter) : Reaches rules g g { tally := .start g.connective g.children.length } g.children
  | next {g h : Filter} {p q : Progress} {c : Condition} {rest : List Condition} {outcome : Outcome}
      (hreaches : Reaches rules g h p (c :: rest)) (hchild : (c.compile rules).result = .ok outcome)
      (hq : (p.absorb rules outcome).result = .ok q) (hopen : q.settled? h.negated = none) :
      Reaches rules g h q rest
  | enter {g h inner last : Filter} {p q : Progress} {rest more : List Condition}
      (hreaches : Reaches rules g h p (.group inner :: rest)) (hinner : Reaches rules inner last q more) :
      Reaches rules g last q more

namespace Filter.Reaches

variable {rules : FilterRules} {g h : Filter} {p : Progress} {rest : List Condition}

/-- What is still to come from a state decides the group that the state is in. -/
theorem compile_eq (hreaches : Reaches rules g h p rest) :
    (h.compile rules).result = (compileChildren rules h.connective h.negated h.grouped p rest).result := by
  induction hreaches with
  | start g =>
    obtain ⟨connective, children, negated, grouped⟩ := g
    rfl
  | next _ hchild hq hopen ih => rw [ih, compileChildren_open hchild hq hopen]
  | enter _ _ _ ih => exact ih

/-- Whatever the next branch is, the countdown that it takes down is not at zero. -/
theorem tally_pos {c : Condition} (hreaches : Reaches rules g h p (c :: rest)) :
    0 < p.tally.full ∧ 0 < p.tally.empty := by
  generalize hbranches : c :: rest = branches at hreaches
  induction hreaches with
  | start g =>
    rw [← hbranches, List.length_cons]
    cases g.connective with
    | and => exact ⟨Nat.succ_pos _, Nat.one_pos⟩
    | or => exact ⟨Nat.one_pos, Nat.succ_pos _⟩
  | @next g h p q _ _ _ _ _ _ hopen =>
    -- A run goes on only where neither countdown has come to its end.
    rw [Progress.settled?] at hopen
    split at hopen
    · cases hopen
    · rename_i hempty
      split at hopen
      · cases hopen
      · rename_i hfull
        exact ⟨Nat.pos_of_ne_zero hfull, Nat.pos_of_ne_zero hempty⟩
  | enter _ _ _ ih => exact ih hbranches

end Filter.Reaches

/-- **Constants are folded exactly, in any order.** Where all leaves compile and are renamed, a filter compiles, to
the outcome that the Kleene tables tell, and so does the filter with its branches in any other order. No run takes a
countdown below zero, and text that a filter compiles to is not empty. -/
theorem Filter.compile_folds_constants (n : Naming) (g : Filter) :
    ((∀ leaf ∈ (g.formula []).leaves, FilterRules.Takes { rename := n.rename } leaf.2) →
      (∃ outcome, (g.compile { rename := n.rename }).result = .ok outcome ∧ outcome.kind = g.known) ∧
        ∀ other, g.Reordered other →
          ∃ outcome, (other.compile { rename := n.rename }).result = .ok outcome ∧ outcome.kind = g.known) ∧
      (∀ h p c rest, g.Reaches { rename := n.rename } h p (c :: rest) →
        (h.compile { rename := n.rename }).result =
            (compileChildren { rename := n.rename } h.connective h.negated h.grouped p (c :: rest)).result ∧
          0 < p.tally.full ∧ 0 < p.tally.empty) ∧
      ∀ sql resolved, (g.compile { rename := n.rename }).result = .ok (.sql sql resolved) → sql.text ≠ "" := by
  have hproper := n.rename_proper Lookup.predicate
  refine ⟨fun hleaves => ⟨compile_folds hproper [] g hleaves, fun other hother => ?_⟩, ?_, ?_⟩
  · rw [hother.known_eq]
    exact compile_folds hproper [] other ((hother.forall_leaves _).1 hleaves)
  · intro h p c rest hreaches
    exact ⟨hreaches.compile_eq, hreaches.tally_pos⟩
  · intro sql resolved hcompile
    obtain ⟨-, f, hf⟩ := compile_settles hproper [] g hcompile
    exact hf.text_ne

theorem Filter.neitherNamed_folds :
    Filter.neitherNamed.known = none ∧
      ∃ outcome, (Filter.compile { rename := Naming.ofAccount.rename }
        { Filter.neitherNamed with children := Filter.neitherNamed.children.reverse }).result = .ok outcome ∧
          outcome.kind = none := by
  have hrenames : ∀ {text name : String} {params : List Value},
      (Naming.ofAccount.rename text).result = .ok name →
      FilterRules.Renames { rename := Naming.ofAccount.rename } (.sql ⟨text, params⟩ false) := by
    rintro text name params hname sql hsql -
    cases hsql
    exact ⟨name, hname⟩
  have hnamed : (Naming.ofAccount.rename "A.Name = %s").result = .ok "Account.Name = %s" := by decide +kernel
  have hnull : (Naming.ofAccount.rename "A.Name = null").result = .ok "Account.Name = null" := by decide +kernel
  have hleaves : ∀ leaf ∈ (Filter.neitherNamed.formula []).leaves,
      FilterRules.Takes { rename := Naming.ofAccount.rename } leaf.2 := by
    refine List.forall_mem_cons.2 ⟨⟨.nothing, rfl, nofun⟩, ?_⟩
    refine List.forall_mem_cons.2 ⟨⟨.everything, rfl, nofun⟩, ?_⟩
    refine List.forall_mem_cons.2 ⟨⟨_, rfl, hrenames hnamed⟩, ?_⟩
    exact List.forall_mem_singleton.2 ⟨_, rfl, hrenames hnull⟩
  exact ⟨rfl, ((compile_folds_constants Naming.ofAccount Filter.neitherNamed).1 hleaves).2 _
    (.branches (List.reverse_perm _).symm)⟩

end PathQuery
