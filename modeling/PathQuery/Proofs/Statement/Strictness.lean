import PathQuery.Proofs.Statement.Draft
/-!
# Strict settings

Strict settings turn warnings into errors and do nothing else. The two compilations of a plan, lenient and
strict, go through the same steps until the first fragment that is not understood. There the lenient one warns
and goes on, and the strict one fails with an error that blames the same fragment. So a strict compilation is
that of lenient settings if these give no warning, and otherwise fails at the first one, whatever comes later.

The argument is one relation between two reports, `Report.Strict`, which is kept by the steps that reports are
made of.
-/

namespace PathQuery

/-! ### Two reports -/

/-- The second report is the first one if there are no warnings, and fails with an error that blames the first
warning otherwise. -/
inductive Report.Strict {ε α : Type} (blames : Warning → ε → Prop) : Report ε α → Report ε α → Prop
  | quiet (result : Except ε α) : Strict blames ⟨[], result⟩ ⟨[], result⟩
  | warned {w : Warning} {rest : List Warning} {result : Except ε α} {e : ε} (hblames : blames w e) :
    Strict blames ⟨w :: rest, result⟩ ⟨[], .error e⟩

namespace Report.Strict

variable {ε ε' α β : Type} {blames : Warning → ε → Prop} {r s : Report ε α}

theorem bind {f g : α → Report ε β} (h : Strict blames r s) (hnext : ∀ a, Strict blames (f a) (g a)) :
    Strict blames (r >>= f) (s >>= g) := by
  cases h with
  | quiet result =>
    cases result with
    | error e => exact .quiet (.error e)
    | ok a => exact hnext a
  | @warned w rest result e hblames =>
    cases result with
    | error _ => exact .warned hblames
    | ok a => exact .warned hblames

theorem mapError {blames' : Warning → ε' → Prop} {f : ε → ε'} (h : Strict blames r s)
    (hf : ∀ w e, blames w e → blames' w (f e)) : Strict blames' (r.mapError f) (s.mapError f) := by
  cases h with
  | quiet result => exact .quiet _
  | warned hblames => exact .warned (hf _ _ hblames)

theorem result_eq_ok_iff (h : Strict blames r s) (a : α) :
    s.result = .ok a ↔ r.result = .ok a ∧ r.warnings = [] := by
  cases h <;> simp

theorem result_eq_error (h : Strict blames r s) {e : ε} (hresult : r.result = .error e)
    (hquiet : r.warnings = []) : s.result = .error e := by
  cases h with
  | quiet => exact hresult
  | warned => cases hquiet

theorem exists_blames (h : Strict blames r s) {w : Warning} {rest : List Warning}
    (hwarned : r.warnings = w :: rest) : ∃ e, s.result = .error e ∧ blames w e := by
  cases h with
  | quiet => cases hwarned
  | warned hblames =>
    cases hwarned
    exact ⟨_, rfl, hblames⟩

end Report.Strict

/-! ### Errors for warnings -/

/-- The error is about the fragment of a warning, for the same reason. -/
inductive NamingError.Blames (w : Warning) : NamingError → Prop
  | unexpected : Blames w (.unexpected w.fragment w.reason)

inductive FilterError.Blames (w : Warning) : FilterError → Prop
  | naming {e : NamingError} (h : e.Blames w) : Blames w (.naming e)

/-- The fragment stands in a filter or among the columns. -/
inductive StatementError.Blames (w : Warning) : StatementError → Prop
  | naming {e : NamingError} (h : e.Blames w) : Blames w (.naming e)
  | filter {e : FilterError} (h : e.Blames w) : Blames w (.filter e)

/-! ### Fragments and filters -/

def Naming.withStrict (n : Naming) (strict : Bool) : Naming :=
  { n with strict }

theorem Naming.unexpected_strict (n : Naming) (fragment : String) (reason : Reason) :
    Report.Strict NamingError.Blames ((n.withStrict false).unexpected fragment reason)
      ((n.withStrict true).unexpected fragment reason) :=
  .warned .unexpected

theorem Naming.rename_strict (n : Naming) (fragment : String) :
    Report.Strict NamingError.Blames ((n.withStrict false).rename fragment)
      ((n.withStrict true).rename fragment) := by
  rw [Naming.rename, Naming.rename]
  split
  · exact .quiet _
  · split
    · exact n.unexpected_strict fragment .notAColumn
    · rename_i f _
      -- How a fragment is read and what replaces its alias do not depend on strictness.
      have hsplit : (n.withStrict true).split? f.path = (n.withStrict false).split? f.path := rfl
      have hresolved : (n.withStrict true).isResolved f.path = (n.withStrict false).isResolved f.path := rfl
      rw [hsplit, hresolved]
      cases (n.withStrict false).split? f.path with
      | some found => exact .quiet _
      | none =>
        dsimp only
        split
        · exact .quiet _
        · exact n.unexpected_strict fragment .notOneField

/-- Rules that differ in strictness only. -/
structure FilterRules.Strict (rules strict : FilterRules) : Prop where
  leaf : rules.leaf = strict.leaf
  rename : ∀ fragment, Report.Strict NamingError.Blames (rules.rename fragment) (strict.rename fragment)

theorem Progress.absorb_strict {rules strict : FilterRules} (h : rules.Strict strict) (p : Progress)
    (outcome : Outcome) :
    Report.Strict FilterError.Blames (p.absorb rules outcome) (p.absorb strict outcome) := by
  cases outcome with
  | everything | nothing => exact .quiet _
  | sql sql resolved =>
    rw [Progress.absorb, Progress.absorb]
    split
    · exact .quiet _
    · cases resolved with
      | true => exact .quiet _
      | false => exact .bind ((h.rename sql.text).mapError fun _ _ => .naming) fun text => .quiet _

mutual

theorem Condition.compile_strict {rules strict : FilterRules} (h : rules.Strict strict) (c : Condition) :
    Report.Strict FilterError.Blames (c.compile rules) (c.compile strict) := by
  cases c with
  | group g => exact Filter.compile_strict h g
  | lookup l =>
    rw [Condition.compile, Condition.compile, h.leaf]
    exact .quiet _
  | raw | everything | nothing => exact .quiet _

theorem Filter.compile_strict {rules strict : FilterRules} (h : rules.Strict strict) (g : Filter) :
    Report.Strict FilterError.Blames (g.compile rules) (g.compile strict) := by
  obtain ⟨connective, children, negated, grouped⟩ := g
  exact compileChildren_strict h children

theorem compileChildren_strict {rules strict : FilterRules} (h : rules.Strict strict)
    (children : List Condition) {connective : Connective} {negated grouped : Bool} {p : Progress} :
    Report.Strict FilterError.Blames (compileChildren rules connective negated grouped p children)
      (compileChildren strict connective negated grouped p children) := by
  cases children with
  | nil => exact .quiet _
  | cons c rest =>
    rw [compileChildren, compileChildren]
    refine .bind (Condition.compile_strict h c) fun outcome => ?_
    refine .bind (p.absorb_strict h outcome) fun next => ?_
    cases next.settled? negated with
    | some outcome => exact .quiet _
    | none => exact compileChildren_strict h rest

end

theorem compileFilter_strict (n : Naming) (filter : Option Filter) :
    Report.Strict StatementError.Blames (compileFilter (n.withStrict false) filter)
      (compileFilter (n.withStrict true) filter) := by
  cases filter with
  | none => exact .quiet _
  | some g =>
    have hrules : FilterRules.Strict { rename := (n.withStrict false).rename }
        { rename := (n.withStrict true).rename } := ⟨rfl, n.rename_strict⟩
    refine .bind ((g.compile_strict hrules).mapError fun _ _ => .filter) fun outcome => ?_
    cases outcome <;> exact .quiet _

theorem renameIn_strict (n : Naming) (text : String) :
    Report.Strict StatementError.Blames (renameIn (n.withStrict false) text)
      (renameIn (n.withStrict true) text) :=
  (n.rename_strict text).mapError fun _ _ => .naming

/-! ### Queries -/

namespace Select

variable (n : Naming)

theorem renameAll_strict (pieces : List Sql) :
    Report.Strict StatementError.Blames (renameAll (n.withStrict false) pieces)
      (renameAll (n.withStrict true) pieces) := by
  induction pieces with
  | nil => exact .quiet _
  | cons piece rest ih =>
    exact .bind (renameIn_strict n piece.text) fun text => .bind ih fun texts => .quiet _

theorem columns_strict (backend : Backend) (names : Bool) (index : Nat) (cols : List SelectedColumn) :
    Report.Strict StatementError.Blames (columns backend (n.withStrict false) names index cols)
      (columns backend (n.withStrict true) names index cols) := by
  induction cols generalizing index with
  | nil => exact .quiet _
  | cons c rest ih =>
    exact .bind (renameIn_strict n c.sql.text) fun text => .bind (ih _) fun texts => .quiet _

theorem groupClause_strict (cols : Columns) :
    Report.Strict StatementError.Blames (groupClause (n.withStrict false) cols)
      (groupClause (n.withStrict true) cols) := by
  refine .bind (renameAll_strict n cols.groupBy) fun texts => ?_
  split
  · exact .quiet _
  · exact .quiet _

end Select

def Context.withStrict (ctx : Context) (strict : Bool) : Context :=
  { ctx with settings := { ctx.settings with strict } }

theorem Plan.naming_withStrict (p : Plan) (ctx : Context) (tree : Tree) (strict : Bool) :
    p.naming (ctx.withStrict strict).settings tree = (p.naming ctx.settings tree).withStrict strict := rfl

theorem Select.assemble_strict (ctx : Context) (p : Plan) (cols : Columns) (tree : Tree) (form : SelectForm) :
    Report.Strict StatementError.Blames (assemble (ctx.withStrict false) p cols tree form)
      (assemble (ctx.withStrict true) p cols tree form) := by
  rw [assemble, assemble, p.naming_withStrict, p.naming_withStrict]
  generalize p.naming ctx.settings tree = n
  refine .bind (.quiet _) fun table => ?_
  refine .bind (compileFilter_strict n p.filter) fun filter => ?_
  cases filter with
  | none => exact .quiet _
  | some filter =>
    refine .bind (compileFilter_strict n p.having) fun having => ?_
    cases having with
    | none => exact .quiet _
    | some having =>
      refine .bind (.quiet _) fun distinct => ?_
      refine .bind (.bind (columns_strict n ..) fun texts => .quiet _) fun select => ?_
      refine .bind (groupClause_strict n cols) fun group => ?_
      refine .bind (.quiet _) fun explain => ?_
      refine .bind (.bind (renameAll_strict n _) fun texts => .quiet _) fun order => ?_
      exact .bind (.quiet _) fun lock => .quiet _

theorem Compiler.compile_strict (ctx : Context) (p : Plan) (memo : Memo) (form : SelectForm) :
    Report.Strict StatementError.Blames
      (compile { context := ctx.withStrict false, plan := p, memo } form).1
      (compile { context := ctx.withStrict true, plan := p, memo } form).1 := by
  rw [compile_recalled, compile_recalled]
  split
  · exact .quiet _
  · dsimp only
    cases (memo.resolve p.joins).1 with
    | error e => exact .quiet _
    | ok tree => exact Select.assemble_strict ctx p p.columns tree form

/-! ### Statements that change rows -/

theorem Plan.target_strict (p : Plan) (ctx : Context) :
    Report.Strict StatementError.Blames (p.target (ctx.withStrict false).settings)
      (p.target (ctx.withStrict true).settings) :=
  .bind (.quiet _) fun tree => .bind (.quiet _) fun _ =>
    .bind (compileFilter_strict (p.naming ctx.settings tree) p.filter) fun _ => .quiet _

theorem Plan.update_strict (p : Plan) (ctx : Context) (values : List (String × Value)) :
    Report.Strict StatementError.Blames
      (p.update ctx.backend (ctx.withStrict false).settings values)
      (p.update ctx.backend (ctx.withStrict true).settings values) := by
  rw [update, update]
  split
  · exact .quiet _
  · refine .bind (p.target_strict ctx) fun target => ?_
    cases target <;> exact .quiet _

theorem Plan.delete_strict (p : Plan) (ctx : Context) :
    Report.Strict StatementError.Blames (p.delete ctx.backend (ctx.withStrict false).settings)
      (p.delete ctx.backend (ctx.withStrict true).settings) := by
  refine .bind (p.target_strict ctx) fun target => ?_
  cases target <;> exact .quiet _

/-! ### Drafts -/

namespace Draft

theorem report_strict (draft : Draft) (ctx : Context) (p : Plan) :
    Report.Strict StatementError.Blames (draft.report (ctx.withStrict false) p)
      (draft.report (ctx.withStrict true) p) := by
  cases draft with
  | select memo form => exact Compiler.compile_strict ctx p memo form
  | update values => exact p.update_strict ctx values
  | delete => exact p.delete_strict ctx
  | aggregate aggregates => exact Compiler.compile_strict ctx (p.aggregate aggregates) {} { limits := false }

/-- **Strict settings only turn warnings into errors.** A strict compilation succeeds exactly when the lenient
one does without a warning, and then with the same statement. An error that no warning precedes is the same.
Where there are warnings, the strict compilation fails and blames the first of them. -/
theorem strict_fails_at_first_warning (draft : Draft) (ctx : Context) (p : Plan) :
    let lenient := draft.report (ctx.withStrict false) p
    let strict := draft.report (ctx.withStrict true) p
    (∀ q, strict.result = .ok q ↔ lenient.result = .ok q ∧ lenient.warnings = []) ∧
    (∀ e, lenient.result = .error e → lenient.warnings = [] → strict.result = .error e) ∧
    ∀ w rest, lenient.warnings = w :: rest → ∃ e, strict.result = .error e ∧ e.Blames w := by
  have hstrict := draft.report_strict ctx p
  exact ⟨hstrict.result_eq_ok_iff, fun e => hstrict.result_eq_error, fun w rest => hstrict.exists_blames⟩

end Draft

end PathQuery
