import PathQuery.Proofs.Statement.Filtering
/-!
# Drafts

A draft is what a plan is to be compiled to: its query, an update or a deletion of its rows, or aggregates over
them. What holds of every compilation is stated once, about drafts.

A statement without text is one that need not be sent. No statement comes out so by chance, since each starts
with a word of its own, which stays also where a table is erased from the clauses. So the text is empty only if
there is nothing to set or no row to be had, and then there are no values either.
-/

namespace PathQuery

/-- The memo of a query is that of the compiler it is asked from. -/
inductive Draft
  | select (memo : Memo) (form : SelectForm)
  | update (values : List (String × Value))
  | delete
  | aggregate (aggregates : List Projection)

/-- The compilation of a draft. -/
def Draft.report (ctx : Context) (p : Plan) : Draft → Report StatementError Sql
  | .select memo form => (Compiler.compile { context := ctx, plan := p, memo } form).1
  | .update values => p.update ctx.backend ctx.settings values
  | .delete => p.delete ctx.backend ctx.settings
  | .aggregate aggregates =>
    (Compiler.compile { context := ctx, plan := p.aggregate aggregates } { limits := false }).1

/-! ### Queries without text -/

/-- One of the plan's two filters holds of nothing, as it is compiled for a tree. -/
def Plan.HoldsOfNothing (p : Plan) (settings : Settings) (tree : Tree) : Prop :=
  ∃ g, (p.filter = some g ∨ p.having = some g) ∧
    (g.compile { rename := (p.naming settings tree).rename }).result = .ok .nothing

theorem compileFilter_eq_none {naming : Naming} {filter : Option Filter}
    (h : (compileFilter naming filter).result = .ok none) :
    ∃ g, filter = some g ∧ (g.compile { rename := naming.rename }).result = .ok .nothing := by
  cases filter with
  | none => cases h
  | some g =>
    obtain ⟨outcome, houtcome, h, -⟩ := Report.bind_ok h
    cases outcome with
    | sql | everything => cases h
    | nothing => exact ⟨g, rfl, Report.mapError_result_eq_ok.1 houtcome⟩

/-- Every query that is assembled has the word SELECT in it. -/
theorem Select.Parts.text_ne {ctx : Context} {p : Plan} {cols : Columns} {form : SelectForm} (parts : Parts) :
    Text.joinWith " " (unqualify p (parts.clause ctx p cols form).texts) ≠ "" := by
  have hword : "SELECT" ∈ (parts.clause ctx p cols form).texts := by
    simp [Parts.clause]
  have hwire : p.onWire "SELECT" = "SELECT" := Plan.onWire_dotless (by decide)
  have hsent : "SELECT" ∈ unqualify p (parts.clause ctx p cols form).texts := by
    rw [Plan.unqualify_eq_map, ← hwire]
    exact List.mem_map_of_mem hword
  exact Text.joinWith_ne_empty_of_mem " " hsent (by decide)

theorem Select.assemble_empty {ctx : Context} {p : Plan} {cols : Columns} {tree : Tree} {form : SelectForm}
    {q : Sql} (h : (assemble ctx p cols tree form).result = .ok q) (hempty : q.text = "") :
    q = .empty ∧ p.HoldsOfNothing ctx.settings tree := by
  rcases assemble_stages h with ⟨hq, -, hnothing⟩ | ⟨parts, -, rfl, -⟩
  · refine ⟨hq, ?_⟩
    rcases hnothing with hnothing | hnothing
    · obtain ⟨g, hg, hcompile⟩ := compileFilter_eq_none hnothing
      exact ⟨g, .inl hg, hcompile⟩
    · obtain ⟨g, hg, hcompile⟩ := compileFilter_eq_none hnothing
      exact ⟨g, .inr hg, hcompile⟩
  · exact absurd hempty parts.text_ne

/-- A query is empty if no row is wanted or a filter holds of nothing. -/
theorem Compiler.compile_empty {c : Compiler} {form : SelectForm} {q : Sql}
    (h : (c.compile form).1.result = .ok q) (hempty : q.text = "") :
    q = .empty ∧ ((form.limits ∧ c.plan.window.high = some c.plan.window.low) ∨
      ∃ tree, (c.memo.resolve c.plan.joins).1 = .ok tree ∧ c.plan.HoldsOfNothing c.context.settings tree) := by
  rw [compile_recalled] at h
  split at h
  · rename_i hwindow
    rw [Bool.and_eq_true, Window.isEmpty, beq_iff_eq] at hwindow
    cases h
    exact ⟨rfl, .inl hwindow⟩
  · cases hresolve : (c.memo.resolve c.plan.joins).1 with
    | error e =>
      rw [hresolve] at h
      cases h
    | ok tree =>
      rw [hresolve] at h
      obtain ⟨hq, hnothing⟩ := Select.assemble_empty h hempty
      exact ⟨hq, .inr ⟨tree, rfl, hnothing⟩⟩

/-! ### Changes without text -/

/-- A statement that starts with a word is not empty, whatever its filter. -/
theorem filtered_text_ne {statement filter : Sql} (h : statement.text ≠ "") :
    (filtered statement filter).text ≠ "" := by
  obtain ⟨rest, htext, -⟩ := filtered_text statement filter
  intro hempty
  rw [htext] at hempty
  exact h (String.append_eq_empty_iff.1 hempty).1

theorem Plan.delete_empty {p : Plan} {backend : Backend} {settings : Settings} {q : Sql}
    (h : (p.delete backend settings).result = .ok q) (hempty : q.text = "") : q = .empty := by
  obtain ⟨target, -, h, -⟩ := Report.bind_ok h
  cases target with
  | none =>
    cases h
    rfl
  | some target =>
    cases h
    exact absurd hempty (filtered_text_ne (by simp [Sql.plain]))

theorem Plan.update_empty {p : Plan} {backend : Backend} {settings : Settings}
    {values : List (String × Value)} {q : Sql} (h : (p.update backend settings values).result = .ok q)
    (hempty : q.text = "") : q = .empty := by
  rw [update] at h
  split at h
  · cases h
    rfl
  · obtain ⟨target, -, h, -⟩ := Report.bind_ok h
    cases target with
    | none =>
      cases h
      rfl
    | some target =>
      cases h
      exact absurd hempty (filtered_text_ne (by simp))

/-- A statement without text has no values. -/
theorem Draft.report_empty {ctx : Context} {p : Plan} {draft : Draft} {q : Sql}
    (h : (draft.report ctx p).result = .ok q) (hempty : q.text = "") : q = .empty := by
  cases draft with
  | select memo form => exact (Compiler.compile_empty h hempty).1
  | update values => exact Plan.update_empty h hempty
  | delete => exact Plan.delete_empty h hempty
  | aggregate aggregates => exact (Compiler.compile_empty h hempty).1

end PathQuery
