import PathQuery.Proofs.Condition.Meaning
import PathQuery.Proofs.Report
/-!
# Filters that are compiled side by side

A filter looks at the renamed text of its leaves in one place only: where nothing is left of a group, the
group is left out. Two ways of renaming that give related texts for each leaf therefore give related texts for
the whole filter, for any relation that survives the joining of parts into a group, and they settle it as a
constant, or fail, at the same leaf.
-/

namespace PathQuery

/-- Relations between texts that survive the joining of parts into a group. -/
structure Connective.Respects (related : String → String → Prop) : Prop where
  ne_empty : ∀ a b, related a b → a ≠ "" ∧ b ≠ ""
  spell : ∀ (connective : Connective) (negated grouped : Bool) (parts others : List String),
    List.Forall₂ related parts others → parts ≠ [] →
    related (connective.spell negated grouped parts) (connective.spell negated grouped others)

/-- Outcomes of groups with related texts. -/
inductive Outcome.Alike (related : String → String → Prop) : Outcome → Outcome → Prop
  | everything : Alike related .everything .everything
  | nothing : Alike related .nothing .nothing
  | text {a b : String} (h : related a b) (params : List Value) :
    Alike related (.sql ⟨a, params⟩ true) (.sql ⟨b, params⟩ true)

structure Progress.Alike (related : String → String → Prop) (p q : Progress) : Prop where
  tally : p.tally = q.tally
  parts : List.Forall₂ related p.parts q.parts
  params : p.params = q.params

/-- Outcomes that are alike once they are renamed. The text of a leaf is still the same. -/
inductive Outcome.Parallel (rules others : FilterRules) (related : String → String → Prop) :
    Outcome → Outcome → Prop
  | group {a b : Outcome} (h : a.Alike related b) : Parallel rules others related a b
  | leaf {sql : Sql} (h : Report.Matches related (rules.rename sql.text) (others.rename sql.text)) :
    Parallel rules others related (.sql sql false) (.sql sql false)

/-- Both ways of renaming treat the condition alike. -/
def FilterRules.Parallel (rules others : FilterRules) (related : String → String → Prop) (c : Condition) :
    Prop :=
  Report.Matches (Outcome.Parallel rules others related) (c.compile rules) (c.compile others)

variable {rules others : FilterRules} {related : String → String → Prop}

theorem parts_ne_empty (hrelated : ∀ a b, related a b → a ≠ "" ∧ b ≠ "") {parts others : List String}
    (h : List.Forall₂ related parts others) : (∀ part ∈ parts, part ≠ "") ∧ ∀ part ∈ others, part ≠ "" := by
  induction h with
  | nil => exact ⟨List.forall_mem_nil _, List.forall_mem_nil _⟩
  | cons hab _ ih =>
    obtain ⟨ha, hb⟩ := hrelated _ _ hab
    exact ⟨List.forall_mem_cons.2 ⟨ha, ih.1⟩, List.forall_mem_cons.2 ⟨hb, ih.2⟩⟩

theorem Progress.absorb_resolved (p : Progress) (rules : FilterRules) {text : String} (htext : text ≠ "")
    {params : List Value} : p.absorb rules (.sql ⟨text, params⟩ true) =
      pure { p with parts := p.parts ++ [text], params := p.params ++ params } := by
  have hempty : ¬ Sql.isEmpty ⟨text, params⟩ := by simpa [Sql.isEmpty] using htext
  rw [absorb, if_neg hempty]
  rfl

theorem Progress.settled?_alike {p : Progress} {negated : Bool} {outcome : Outcome}
    (h : p.settled? negated = some outcome) : outcome.Alike related outcome := by
  rw [Progress.settled?] at h
  split at h
  · cases h
    cases negated
    · exact .nothing
    · exact .everything
  · split at h
    · cases h
      cases negated
      · exact .everything
      · exact .nothing
    · cases h

namespace Progress.Alike

variable {p q : Progress}

theorem settled? (h : p.Alike related q) (negated : Bool) : p.settled? negated = q.settled? negated := by
  rw [Progress.settled?, Progress.settled?, h.tally]

theorem finish (hrelated : Connective.Respects related) (h : p.Alike related q) (connective : Connective)
    (negated grouped : Bool) :
    (p.finish connective negated grouped).Alike related (q.finish connective negated grouped) := by
  by_cases hnone : p.parts = []
  · have hother : q.parts = [] := List.forall₂_nil_left_iff.1 (hnone ▸ h.parts)
    rw [Progress.finish, Progress.finish, hnone, hother]
    exact .everything
  · have hother : q.parts ≠ [] := fun hnil => hnone (List.forall₂_nil_right_iff.1 (hnil ▸ h.parts))
    obtain ⟨hparts, hothers⟩ := parts_ne_empty hrelated.ne_empty h.parts
    rw [Progress.finish_eq hnone hparts, Progress.finish_eq hother hothers, h.params]
    exact .text (hrelated.spell connective negated grouped _ _ h.parts hnone) _

theorem absorb (hrelated : Connective.Respects related) (h : p.Alike related q) {a b : Outcome}
    (hab : Outcome.Parallel rules others related a b) :
    Report.Matches (Progress.Alike related) (p.absorb rules a) (q.absorb others b) := by
  have hadd : ∀ name other params, related name other → Progress.Alike related
      { p with parts := p.parts ++ [name], params := p.params ++ params }
      { q with parts := q.parts ++ [other], params := q.params ++ params } :=
    fun name other params hnames =>
      ⟨h.tally, List.rel_append h.parts (.cons hnames .nil), by rw [h.params]⟩
  cases hab with
  | group hab =>
    cases hab with
    | everything | nothing => exact .pure ⟨by rw [h.tally], h.parts, h.params⟩
    | text hnames params =>
      obtain ⟨hname, hother⟩ := hrelated.ne_empty _ _ hnames
      rw [p.absorb_resolved rules hname, q.absorb_resolved others hother]
      exact .pure (hadd _ _ params hnames)
  | @leaf sql hnames =>
    rw [Progress.absorb, Progress.absorb]
    split
    · exact .pure ⟨by rw [h.tally], h.parts, h.params⟩
    · exact .bind (hnames.mapError _) fun name other hnames => .pure (hadd name other sql.params hnames)

end Progress.Alike

mutual

theorem Condition.compile_parallel (hrelated : Connective.Respects related) (here : Place) (c : Condition)
    (h : ∀ leaf ∈ (c.formula here).leaves, rules.Parallel others related leaf.2) :
    rules.Parallel others related c := by
  cases c with
  | group g => exact (Filter.compile_alike hrelated here g h).mono fun _ _ => .group
  | lookup | raw | everything | nothing => exact h _ List.mem_cons_self

theorem Filter.compile_alike (hrelated : Connective.Respects related) (here : Place) (g : Filter)
    (h : ∀ leaf ∈ (g.formula here).leaves, rules.Parallel others related leaf.2) :
    Report.Matches (Outcome.Alike related) (g.compile rules) (g.compile others) := by
  obtain ⟨connective, children, negated, grouped⟩ := g
  rw [Filter.formula, Formula.leaves_group] at h
  exact compileChildren_alike hrelated here 0 children h ⟨rfl, .nil, rfl⟩

theorem compileChildren_alike (hrelated : Connective.Respects related) (here : Place) (next : Nat)
    (children : List Condition)
    (h : ∀ leaf ∈ (formulasOfAll here next children).flatMap Formula.leaves,
      rules.Parallel others related leaf.2)
    {connective : Connective} {negated grouped : Bool} {p q : Progress} (hpq : p.Alike related q) :
    Report.Matches (Outcome.Alike related) (compileChildren rules connective negated grouped p children)
      (compileChildren others connective negated grouped q children) := by
  cases children with
  | nil => exact .pure (hpq.finish hrelated connective negated grouped)
  | cons c rest =>
    rw [formulasOfAll, List.flatMap_cons, List.forall_mem_append] at h
    rw [compileChildren, compileChildren]
    refine .bind (c.compile_parallel hrelated (next :: here) h.1) fun a b hab => ?_
    refine .bind (hpq.absorb hrelated hab) fun p' q' hpq' => ?_
    rw [hpq'.settled?]
    cases hsettled : q'.settled? negated with
    | some outcome => exact .pure (Progress.settled?_alike hsettled)
    | none => exact compileChildren_alike hrelated here (next + 1) rest h.2 hpq'

end

end PathQuery
