import Mathlib.Data.List.Forall2
import PathQuery.Filter
import PathQuery.Proofs.Condition.Formula
import PathQuery.Proofs.Renaming
/-!
# Filters mean what they compile to

Each leaf of a filter is true or false of a row, and so is the whole. A filter that compiles to
everything is true of each row, one that compiles to nothing of none, and one that compiles to text
spells a formula over some of its leaves that has the same truth value. The values bound to the text are
those of the leaves that are left, in order.

The branches of a group are taken from left to right. Those that are constant and do not decide the
group are left out, so that the formula of the others combines to the same value, and the two countdowns
are those of a group that has only the others and the branches still to come.
-/

namespace PathQuery

/-- The truth value of an outcome that does not depend on the row. -/
def Outcome.constant? : Outcome → Option Bool
  | .everything => some true
  | .nothing => some false
  | .sql query _ => if query.isEmpty then some true else none

def Outcome.ofBool (b : Bool) : Outcome :=
  if b then .everything else .nothing

namespace FilterRules

/-- Renaming leaves something of every fragment. -/
def Proper (rules : FilterRules) : Prop :=
  ∀ s t, s ≠ "" → (rules.rename s).result = .ok t → t ≠ ""

/-- What an outcome's text is called in the query. -/
def Names (rules : FilterRules) (resolved : Bool) (text name : String) : Prop :=
  if resolved then name = text else (rules.rename text).result = .ok name

/-- The values of the leaves respect those that compile to a constant. -/
def Agrees (rules : FilterRules) (v : Place → Bool) (leaves : List (Place × Condition)) : Prop :=
  ∀ leaf ∈ leaves, ∀ outcome, (leaf.2.compile rules).result = .ok outcome →
    ∀ b ∈ outcome.constant?, v leaf.1 = b

/-- The piece of text that a leaf is compiled to. -/
structure Keeps (rules : FilterRules) (piece : Place × Sql) (leaf : Place × Condition) : Prop where
  place : piece.1 = leaf.1
  compiled : ∃ text resolved, text ≠ "" ∧ rules.Names resolved text piece.2.text ∧
    (leaf.2.compile rules).result = .ok (.sql ⟨text, piece.2.params⟩ resolved)

/-- A text spells a formula that is as true as the whole, over leaves that the whole has in this
order. -/
structure Renders (rules : FilterRules) (whole : Formula (Place × Condition)) (sql : Sql)
    (f : Formula (Place × Sql)) : Prop where
  text : f.text = sql.text
  text_ne : sql.text ≠ ""
  params : f.params = sql.params
  leaves : List.SublistForall₂ rules.Keeps f.leaves whole.leaves
  eval : ∀ v : Place → Bool, rules.Agrees v whole.leaves →
    f.eval (fun piece => v piece.1) = whole.eval fun leaf => v leaf.1

/-- What the outcome of a group says about the group. -/
def Settles (rules : FilterRules) (whole : Formula (Place × Condition)) : Outcome → Prop
  | .everything =>
    ∀ v : Place → Bool, rules.Agrees v whole.leaves → (whole.eval fun leaf => v leaf.1) = true
  | .nothing =>
    ∀ v : Place → Bool, rules.Agrees v whole.leaves → (whole.eval fun leaf => v leaf.1) = false
  | .sql sql resolved => resolved = true ∧ ∃ f, rules.Renders whole sql f

/-- What the outcome of a condition says about the condition, once its text is named. -/
structure Explains (rules : FilterRules) (whole : Formula (Place × Condition)) (outcome : Outcome) :
    Prop where
  constant : ∀ b ∈ outcome.constant?, ∀ v : Place → Bool, rules.Agrees v whole.leaves →
    (whole.eval fun leaf => v leaf.1) = b
  text : ∀ sql resolved name, outcome = .sql sql resolved → sql.text ≠ "" →
    rules.Names resolved sql.text name → ∃ f, rules.Renders whole ⟨name, sql.params⟩ f

variable {rules : FilterRules}

theorem kept_append {first first' : List (Place × Sql)} {second second' : List (Place × Condition)}
    (h : List.SublistForall₂ rules.Keeps first second)
    (h' : List.SublistForall₂ rules.Keeps first' second') :
    List.SublistForall₂ rules.Keeps (first ++ first') (second ++ second') := by
  obtain ⟨some, hsome, hsub⟩ := List.sublistForall₂_iff.1 h
  obtain ⟨some', hsome', hsub'⟩ := List.sublistForall₂_iff.1 h'
  exact List.sublistForall₂_iff.2 ⟨some ++ some', List.rel_append hsome hsome', hsub.append hsub'⟩

theorem exists_leaf {pieces : List (Place × Sql)} {leaves : List (Place × Condition)}
    (h : List.SublistForall₂ rules.Keeps pieces leaves) {piece : Place × Sql} (hpiece : piece ∈ pieces) :
    ∃ leaf ∈ leaves, rules.Keeps piece leaf := by
  induction h with
  | nil => cases hpiece
  | @cons first leaf rest leaves hkeeps hrest ih =>
    rcases List.mem_cons.1 hpiece with hfirst | hpiece
    · exact ⟨leaf, List.mem_cons_self, hfirst ▸ hkeeps⟩
    · obtain ⟨later, hlater, hkeeps⟩ := ih hpiece
      exact ⟨later, List.mem_cons_of_mem _ hlater, hkeeps⟩
  | cons_right hrest ih =>
    obtain ⟨later, hlater, hkeeps⟩ := ih hpiece
    exact ⟨later, List.mem_cons_of_mem _ hlater, hkeeps⟩

theorem agrees_append {v : Place → Bool} {first second : List (Place × Condition)} :
    rules.Agrees v (first ++ second) ↔ rules.Agrees v first ∧ rules.Agrees v second :=
  List.forall_mem_append

theorem explains_leaf (hrules : rules.Proper) (here : Place) {c : Condition} {outcome : Outcome}
    (h : (c.compile rules).result = .ok outcome) : rules.Explains (.leaf (here, c)) outcome where
  constant b hb v hv := hv _ List.mem_cons_self outcome h b hb
  text := by
    rintro sql resolved name rfl hne hname
    refine ⟨.leaf (here, ⟨name, sql.params⟩), rfl, ?_, Formula.params_leaf _, ?_, fun v _ => rfl⟩
    · cases resolved with
      | true => exact hname ▸ hne
      | false => exact hrules _ _ hne hname
    · exact .cons ⟨rfl, _, _, hne, hname, h⟩ .nil

theorem Settles.explains {whole : Formula (Place × Condition)} {outcome : Outcome}
    (h : rules.Settles whole outcome) : rules.Explains whole outcome where
  constant := by
    intro b hb
    cases outcome with
    | everything =>
      cases hb
      exact h
    | nothing =>
      cases hb
      exact h
    | sql sql resolved =>
      obtain ⟨-, f, hf⟩ := h
      rw [Outcome.constant?, Sql.isEmpty, if_neg (by simpa using hf.text_ne)] at hb
      cases hb
  text := by
    rintro sql resolved name rfl - hname
    obtain ⟨rfl, f, hf⟩ := h
    cases hname
    exact ⟨f, hf⟩

end FilterRules

/-! ### One branch -/

/-- The countdowns after one more branch that is constant. -/
def Tally.drop (b : Bool) (t : Tally) : Tally :=
  if b then { t with full := t.full - 1 } else { t with empty := t.empty - 1 }

/-- The value that does not matter to a connective. The other one decides. -/
def Connective.unit : Connective → Bool
  | .and => true
  | .or => false

namespace Connective

variable {connective : Connective}

@[simp] theorem combine_nil : connective.combine [] = connective.unit := by
  cases connective <;> rfl

theorem combine_append_unit (values : List Bool) :
    connective.combine (values ++ [connective.unit]) = connective.combine values := by
  cases connective <;> simp [combine, unit]

theorem combine_of_mem {values : List Bool} (h : (!connective.unit) ∈ values) :
    connective.combine values = !connective.unit := by
  cases connective with
  | and => exact List.all_eq_false.2 ⟨_, h, by simp [unit]⟩
  | or => exact List.any_eq_true.2 ⟨_, h, rfl⟩

theorem combine_append_congr {values values' : List Bool} (more : List Bool)
    (h : connective.combine values = connective.combine values') :
    connective.combine (values ++ more) = connective.combine (values' ++ more) := by
  cases connective with
  | and => simp only [combine, List.all_append] at h ⊢; rw [h]
  | or => simp only [combine, List.any_append] at h ⊢; rw [h]

theorem spell_ne_empty {negated grouped : Bool} {parts : List String} (hparts : parts ≠ [])
    (hne : ∀ part ∈ parts, part ≠ "") : connective.spell negated grouped parts ≠ "" := by
  have hjoined := Text.joinWith_ne_empty connective.between hparts hne
  rw [spell]
  split
  · simp [String.append_eq_empty_iff]
  split
  · simp [String.append_eq_empty_iff]
  · exact hjoined

end Connective

namespace Progress

variable {rules : FilterRules} {connective : Connective} {negated grouped : Bool} {p q : Progress}

/-- A branch is constant or adds its text. -/
theorem absorb_cases {outcome : Outcome} (h : (p.absorb rules outcome).result = .ok q) :
    (∃ b ∈ outcome.constant?, q = { p with tally := p.tally.drop b }) ∨
      ∃ sql resolved name, outcome = .sql sql resolved ∧ sql.text ≠ "" ∧
        rules.Names resolved sql.text name ∧
        q = { p with parts := p.parts ++ [name], params := p.params ++ sql.params } := by
  cases outcome with
  | everything =>
    cases h
    exact .inl ⟨true, rfl, rfl⟩
  | nothing =>
    cases h
    exact .inl ⟨false, rfl, rfl⟩
  | sql sql resolved =>
    rw [absorb] at h
    split at h
    · rename_i hempty
      cases h
      exact .inl ⟨true, by rw [Outcome.constant?, if_pos hempty]; rfl, rfl⟩
    · rename_i hne
      have htext : sql.text ≠ "" := by simpa [Sql.isEmpty] using hne
      cases resolved with
      | true =>
        cases h
        exact .inr ⟨sql, true, sql.text, rfl, htext, rfl, rfl⟩
      | false =>
        obtain ⟨name, hname, hq⟩ := Report.bind_result_eq_ok.1 h
        cases hq
        exact .inr ⟨sql, false, name, rfl, htext, Report.mapError_result_eq_ok.1 hname, rfl⟩

theorem settled?_start {n : Nat} (h : p.tally = .start connective n) :
    p.settled? negated = if n = 0 then some (.ofBool (negated ^^ connective.unit)) else none := by
  rw [settled?, h]
  cases connective <;> cases negated <;> simp [Tally.start, Connective.unit, Outcome.ofBool]

/-- A branch that decides settles the group. -/
theorem settled?_drop {n : Nat} (h : p.tally = (Tally.start connective (n + 1)).drop !connective.unit) :
    p.settled? negated = some (.ofBool (negated ^^ !connective.unit)) := by
  rw [settled?, h]
  cases connective <;> cases negated <;>
    simp [Tally.start, Tally.drop, Connective.unit, Outcome.ofBool]

theorem drop_unit (n : Nat) :
    (Tally.start connective (n + 1)).drop connective.unit = .start connective n := by
  cases connective <;> rfl

/-- A group after the branches in `done`, with as many `left`. The formulas in `kept` are those of the
branches that gave text. -/
structure Covers (rules : FilterRules) (connective : Connective) (p : Progress)
    (done : List (Formula (Place × Condition))) (kept : List (Formula (Place × Sql))) (left : Nat) :
    Prop where
  size : kept.length ≤ done.length
  tally : p.tally = .start connective (kept.length + left)
  parts : p.parts = kept.map Formula.text
  parts_ne : ∀ f ∈ kept, f.text ≠ ""
  params : p.params = kept.flatMap Formula.params
  leaves : List.SublistForall₂ rules.Keeps (kept.flatMap Formula.leaves) (done.flatMap Formula.leaves)
  eval : ∀ v : Place → Bool, rules.Agrees v (done.flatMap Formula.leaves) →
    connective.combine (kept.map fun f => f.eval fun piece => v piece.1) =
      connective.combine (done.map fun f => f.eval fun leaf => v leaf.1)

/-- One more branch. It leaves the group covered, or it decides the group. -/
theorem Covers.step {done : List (Formula (Place × Condition))} {kept : List (Formula (Place × Sql))}
    {left : Nat} (hp : p.Covers rules connective done kept (left + 1))
    {branch : Formula (Place × Condition)} {outcome : Outcome} (hbranch : rules.Explains branch outcome)
    (h : (p.absorb rules outcome).result = .ok q) :
    (∃ kept', q.Covers rules connective (done ++ [branch]) kept' left) ∨
      q.tally = (Tally.start connective (kept.length + left + 1)).drop !connective.unit ∧
        ∀ v : Place → Bool, rules.Agrees v branch.leaves →
          (branch.eval fun leaf => v leaf.1) = !connective.unit := by
  rcases absorb_cases h with ⟨b, hb, rfl⟩ | ⟨sql, resolved, name, rfl, hne, hname, rfl⟩
  · have hconstant := hbranch.constant b hb
    by_cases hunit : b = connective.unit
    · left
      subst hunit
      refine ⟨kept, ⟨?_, ?_, hp.parts, hp.parts_ne, hp.params, ?_, ?_⟩⟩
      · exact hp.size.trans (List.sublist_append_left done [branch]).length_le
      · rw [hp.tally]
        exact drop_unit (kept.length + left)
      · rw [List.flatMap_append, ← List.append_nil (kept.flatMap _)]
        exact FilterRules.kept_append hp.leaves .nil
      · intro v hv
        rw [List.flatMap_append, FilterRules.agrees_append, List.flatMap_singleton] at hv
        rw [List.map_append, List.map_singleton, hconstant v hv.2, Connective.combine_append_unit]
        exact hp.eval v hv.1
    · right
      obtain rfl : b = !connective.unit := Bool.eq_not_of_ne hunit
      exact ⟨congrArg (Tally.drop !connective.unit) hp.tally, hconstant⟩
  · left
    obtain ⟨f, hf⟩ := hbranch.text sql resolved name rfl hne hname
    refine ⟨kept ++ [f], ⟨?_, ?_, ?_, ?_, ?_, ?_, ?_⟩⟩
    · rw [List.length_append, List.length_append]
      exact Nat.add_le_add_right hp.size 1
    · rw [List.length_append, List.length_singleton, Nat.add_right_comm, Nat.add_assoc]
      exact hp.tally
    · rw [List.map_append, List.map_singleton, hf.text, ← hp.parts]
    · intro g hg
      rcases List.mem_append.1 hg with hg | hg
      · exact hp.parts_ne g hg
      · rw [List.mem_singleton.1 hg, hf.text]
        exact hf.text_ne
    · rw [List.flatMap_append, List.flatMap_singleton, hf.params, ← hp.params]
    · rw [List.flatMap_append, List.flatMap_append, List.flatMap_singleton, List.flatMap_singleton]
      exact FilterRules.kept_append hp.leaves hf.leaves
    · intro v hv
      rw [List.flatMap_append, FilterRules.agrees_append, List.flatMap_singleton] at hv
      rw [List.map_append, List.map_append, List.map_singleton, List.map_singleton, hf.eval v hv.2]
      exact Connective.combine_append_congr _ (hp.eval v hv.1)

theorem finish_eq (hparts : p.parts ≠ []) (hne : ∀ part ∈ p.parts, part ≠ "") :
    p.finish connective negated grouped =
      .sql ⟨connective.spell negated grouped p.parts, p.params⟩ true := by
  rw [Connective.spell, Connective.between_eq]
  exact if_neg (Text.joinWith_ne_empty _ hparts hne)

/-- The text of a group behind its last branch. -/
theorem Covers.finish {done : List (Formula (Place × Condition))} {kept : List (Formula (Place × Sql))}
    (hp : p.Covers rules connective done kept 0) (hkept : kept ≠ []) :
    rules.Settles (.group connective negated grouped done) (p.finish connective negated grouped) := by
  have hdone : done ≠ [] :=
    List.ne_nil_of_length_pos ((List.length_pos_of_ne_nil hkept).trans_le hp.size)
  have hparts : p.parts ≠ [] := by
    rw [hp.parts]
    exact fun h => hkept (List.map_eq_nil_iff.1 h)
  have hne : ∀ part ∈ p.parts, part ≠ "" := by
    rw [hp.parts]
    exact List.forall_mem_map.2 hp.parts_ne
  rw [finish_eq hparts hne]
  refine ⟨rfl, .group connective negated grouped kept, ?_, Connective.spell_ne_empty hparts hne, ?_, ?_, ?_⟩
  · rw [Formula.text_group, hp.parts]
  · rw [Formula.params_group, hp.params]
  · rw [Formula.leaves_group, Formula.leaves_group]
    exact hp.leaves
  · intro v hv
    rw [Formula.leaves_group] at hv
    rw [Formula.eval_group, Formula.eval_group, hp.eval v hv, List.isEmpty_eq_false_iff.2 hdone,
      List.isEmpty_eq_false_iff.2 hkept]

end Progress

/-! ### All branches -/

section Branches

variable {rules : FilterRules} {connective : Connective} {negated grouped : Bool} {p q : Progress} {c : Condition}
  {outcome : Outcome} (hchild : (c.compile rules).result = .ok outcome)
  (hq : (p.absorb rules outcome).result = .ok q)

include hchild hq

theorem compileChildren_settled {rest : List Condition} {final : Outcome} (h : q.settled? negated = some final) :
    (compileChildren rules connective negated grouped p (c :: rest)).result = .ok final := by
  rw [compileChildren]
  refine Report.bind_result_eq_ok.2 ⟨outcome, hchild, Report.bind_result_eq_ok.2 ⟨q, hq, ?_⟩⟩
  rw [h]
  rfl

theorem compileChildren_open {rest : List Condition} (h : q.settled? negated = none) :
    (compileChildren rules connective negated grouped p (c :: rest)).result =
      (compileChildren rules connective negated grouped q rest).result := by
  rw [compileChildren, Report.bind_result_of_ok hchild, Report.bind_result_of_ok hq, h]

end Branches

namespace FilterRules

variable {rules : FilterRules} {connective : Connective} {negated grouped : Bool}

/-- A group whose branches combine to a constant. -/
theorem settles_ofBool {parts : List (Formula (Place × Condition))} (hparts : parts ≠ []) {b : Bool}
    (h : ∀ v : Place → Bool, rules.Agrees v (parts.flatMap Formula.leaves) →
      connective.combine (parts.map fun f => f.eval fun leaf => v leaf.1) = b) :
    rules.Settles (.group connective negated grouped parts) (.ofBool (negated ^^ b)) := by
  have heval : ∀ v : Place → Bool,
      rules.Agrees v (Formula.group connective negated grouped parts).leaves →
      ((Formula.group connective negated grouped parts).eval fun leaf => v leaf.1) = (negated ^^ b) := by
    intro v hv
    rw [Formula.leaves_group] at hv
    rw [Formula.eval_group, List.isEmpty_eq_false_iff.2 hparts, Bool.false_or, h v hv]
  cases hvalue : negated ^^ b with
  | true => exact fun v hv => (heval v hv).trans hvalue
  | false => exact fun v hv => (heval v hv).trans hvalue

end FilterRules

mutual

theorem Condition.compile_explains {rules : FilterRules} (hrules : rules.Proper) (here : Place)
    (c : Condition) {outcome : Outcome} (h : (c.compile rules).result = .ok outcome) :
    rules.Explains (c.formula here) outcome := by
  cases c with
  | group g => exact (Filter.compile_settles hrules here g h).explains
  | lookup | raw | everything | nothing => exact FilterRules.explains_leaf hrules here h

theorem Filter.compile_settles {rules : FilterRules} (hrules : rules.Proper) (here : Place) (g : Filter)
    {outcome : Outcome} (h : (g.compile rules).result = .ok outcome) :
    rules.Settles (g.formula here) outcome := by
  obtain ⟨connective, children, negated, grouped⟩ := g
  cases children with
  | nil =>
    cases h
    exact fun v hv => rfl
  | cons c rest =>
    have hstart : Progress.Covers rules connective { tally := .start connective (rest.length + 1) } [] []
        (c :: rest).length :=
      ⟨Nat.le_refl 0, by rw [List.length_nil, Nat.zero_add, List.length_cons], rfl, List.forall_mem_nil _,
        rfl, .nil, fun _ _ => rfl⟩
    exact compileChildren_settles hrules here 0 (c :: rest) hstart (by simp) h

theorem compileChildren_settles {rules : FilterRules} (hrules : rules.Proper) (here : Place) (next : Nat)
    (children : List Condition) {connective : Connective} {negated grouped : Bool} {p : Progress}
    {done : List (Formula (Place × Condition))} {kept : List (Formula (Place × Sql))}
    (hp : p.Covers rules connective done kept children.length)
    (hsome : kept.length + children.length ≠ 0)
    {outcome : Outcome}
    (h : (compileChildren rules connective negated grouped p children).result = .ok outcome) :
    rules.Settles (.group connective negated grouped (done ++ formulasOfAll here next children))
      outcome := by
  cases children with
  | nil =>
    cases h
    rw [formulasOfAll, List.append_nil]
    exact hp.finish (List.ne_nil_of_length_pos (Nat.pos_of_ne_zero hsome))
  | cons c rest =>
    rw [compileChildren] at h
    obtain ⟨childOutcome, hchild, h⟩ := Report.bind_result_eq_ok.1 h
    obtain ⟨q, hq, h⟩ := Report.bind_result_eq_ok.1 h
    have hbranch := c.compile_explains hrules (next :: here) hchild
    have hsplit : done ++ formulasOfAll here next (c :: rest) =
        (done ++ [c.formula (next :: here)]) ++ formulasOfAll here (next + 1) rest := by
      rw [formulasOfAll, List.append_assoc, List.singleton_append]
    rw [hsplit]
    rcases hp.step hbranch hq with ⟨kept', hcovers⟩ | ⟨htally, hdecides⟩
    · rw [Progress.settled?_start hcovers.tally] at h
      by_cases hleft : kept'.length + rest.length = 0
      · -- All branches were constant and none of them decided, so nothing is left to decide.
        rw [if_pos hleft] at h
        cases h
        obtain ⟨hkept, hrest⟩ := Nat.add_eq_zero_iff.1 hleft
        rw [List.length_eq_zero_iff.1 hrest, formulasOfAll, List.append_nil]
        refine FilterRules.settles_ofBool (by simp) fun v hv => ?_
        rw [← hcovers.eval v hv, List.length_eq_zero_iff.1 hkept, List.map_nil, Connective.combine_nil]
      · rw [if_neg hleft] at h
        exact compileChildren_settles hrules here (next + 1) rest hcovers hleft h
    · rw [Progress.settled?_drop htally] at h
      cases h
      refine FilterRules.settles_ofBool (by simp) fun v hv => Connective.combine_of_mem ?_
      rw [List.flatMap_append, FilterRules.agrees_append, List.flatMap_append, FilterRules.agrees_append,
        List.flatMap_singleton] at hv
      rw [List.mem_map]
      exact ⟨c.formula (next :: here), by simp, hdecides v hv.1.2⟩

end

theorem Naming.rename_proper (n : Naming) (leaf : Lookup → Except FilterError Outcome) :
    FilterRules.Proper { rename := n.rename, leaf } :=
  fun _ _ => rename_ne_empty

/-- The outcome of a filter has the filter's meaning, whatever its lookups compile to. The leaves stand
at different places, so they take their values independently. -/
theorem Filter.compile_preserves_meaning (n : Naming) (leaf : Lookup → Except FilterError Outcome)
    (g : Filter) {outcome : Outcome}
    (h : (g.compile { rename := n.rename, leaf }).result = .ok outcome) :
    ((g.formula []).leaves.map Prod.fst).Nodup ∧
      FilterRules.Settles { rename := n.rename, leaf } (g.formula []) outcome :=
  ⟨g.places_nodup [], g.compile_settles (n.rename_proper leaf) [] h⟩

def Naming.ofAccount : Naming where
  tree := { root := some "A", paths := Dict.empty.insert "A" "", tables := Dict.empty.insert "A" "Account" }

/-- A negated choice of a branch that holds of nothing, a branch that is half constant and a branch with
text. -/
def Filter.neitherNamed : Filter where
  connective := .or
  negated := true
  children :=
    [.lookup { lhs := .column "A" "Id", kind := .oneOf, rhs := .list [] },
      .group { children := [.everything, .lookup ⟨.column "A" "Name", .exact, .single (.text "x")⟩] },
      .lookup { lhs := .column "A" "Name", kind := .exact }]

theorem Filter.neitherNamed_meaning :
    (Filter.neitherNamed.compile { rename := Naming.ofAccount.rename, leaf := Lookup.predicate }).result =
        .ok (.sql ⟨"(NOT (Account.Name = %s OR Account.Name = null))", [.text "x"]⟩ true) ∧
      ((Filter.neitherNamed.formula []).leaves.map Prod.fst).Nodup ∧
      FilterRules.Settles { rename := Naming.ofAccount.rename, leaf := Lookup.predicate }
        (Filter.neitherNamed.formula [])
        (.sql ⟨"(NOT (Account.Name = %s OR Account.Name = null))", [.text "x"]⟩ true) := by
  have hcompile : (Filter.neitherNamed.compile
      { rename := Naming.ofAccount.rename, leaf := Lookup.predicate }).result =
      .ok (.sql ⟨"(NOT (Account.Name = %s OR Account.Name = null))", [.text "x"]⟩ true) := by
    with_unfolding_all rfl
  exact ⟨hcompile, Filter.compile_preserves_meaning Naming.ofAccount Lookup.predicate
    Filter.neitherNamed hcompile⟩

end PathQuery
