import PathQuery.Proofs.Statement.Assembly
import PathQuery.Session.Operation
/-!
# A compiler is as good as new

Compiling counts references in the plan and fills the memo. Neither shows: after every request, whether it
succeeds or fails and wherever it fails, the plan is the one that the compiler was made for, and every answer
is the one of a compiler that was made just now. What carries this from request to request is that the memo
stays right about the joins of the plan.
-/

namespace PathQuery

namespace Memo

/-- What is kept under the key of some joins when they are resolved is their tree. -/
theorem Faithful.resolve {m : Memo} {joins : List Join} (hm : m.Faithful joins) :
    (m.resolve joins).2.Faithful joins := by
  rw [Memo.resolve]
  split
  · exact hm
  · dsimp only
    split
    · exact hm
    · rename_i tree hfound
      intro t ht
      rw [List.lookup_append, Option.or_eq_some_iff] at ht
      rcases ht with ht | ⟨-, ht⟩
      · exact hm t ht
      · rw [List.lookup_cons_self] at ht
        rw [hfound, Option.some.inj ht]

end Memo

namespace Compiler

/-- What can be asked of a compiler. If a stream is given back it is dropped after so many batches. -/
inductive Step
  | compile (form : SelectForm)
  | execute (fetch : Run.Fetch) (batches : Nat)
  | tree

inductive Answer
  | compiled (report : Report StatementError Sql)
  | executed (warnings : List Warning) (result : Except StatementError Result)
  | resolved (tree : Except StatementError Tree)

/-- The answer to a request, the compiler as it is then, and what has been said to the server. -/
def perform (server : Server) (c : Compiler) (h : History) : Step → Answer × Compiler × History
  | .compile form => (.compiled (c.compile form).1, (c.compile form).2, h)
  | .execute fetch batches =>
    let run := c.execute server fetch h
    (.executed run.1 run.2.1, run.2.2.1, (Operation.select c fetch).history server batches h)
  | .tree => (.resolved c.tree.1, c.tree.2, h)

/-- All requests go to one compiler; with each answer goes the plan that the compiler holds then. -/
def inTurn (server : Server) : Compiler → History → List Step → List (Answer × Plan)
  | _, _, [] => []
  | c, h, step :: rest =>
    let (answer, after, k) := c.perform server h step
    (answer, after.plan) :: inTurn server after k rest

/-- Each request goes to the compiler as it was at first. -/
def afresh (server : Server) (c : Compiler) : History → List Step → List Answer
  | _, [] => []
  | h, step :: rest =>
    let (answer, _, k) := c.perform server h step
    answer :: afresh server c k rest

/-- Compiling changes nothing but the memo. -/
theorem compile_state (c : Compiler) (form : SelectForm) :
    (c.compile form).2 = c ∨ (c.compile form).2 = { c with memo := (c.memo.resolve c.plan.joins).2 } := by
  obtain ⟨references, hplan⟩ := Plan.foldl_refer (c.plan.expressions.filterMap Expr.source?) c.plan
  have hcompile : (c.compile form).2 =
      let counted := (compileCounted { c with plan := c.plan.withReferences references } c.plan.columns form).2
      { counted with plan := counted.plan.withReferences c.plan.references } := by
    rw [← hplan]
    rfl
  rw [hcompile, compileCounted]
  split
  · exact .inl rfl
  · refine .inr ?_
    split
    · rename_i hfail
      obtain rfl := congrArg Prod.snd hfail
      rfl
    · rename_i hfound
      obtain rfl := congrArg Prod.snd hfound
      rfl

section Fresh

variable (context : Context) (plan : Plan) {memo : Memo} (hmemo : memo.Faithful plan.joins)

include hmemo

theorem compile_fresh (form : SelectForm) :
    ∃ later : Memo, later.Faithful plan.joins ∧
      compile { context, plan, memo } form =
        ((compile { context, plan } form).1, { context, plan, memo := later }) := by
  have hreport : (compile { context, plan, memo } form).1 = (compile { context, plan } form).1 := by
    rw [compile_eq (c := { context, plan, memo }) hmemo,
      compile_eq (c := { context, plan }) (Memo.faithful_empty plan.joins)]
  rcases compile_state { context, plan, memo } form with hstate | hstate
  · exact ⟨memo, hmemo, Prod.ext hreport hstate⟩
  · exact ⟨_, hmemo.resolve, Prod.ext hreport hstate⟩

theorem tree_fresh :
    ∃ later : Memo, later.Faithful plan.joins ∧
      tree { context, plan, memo } = ((tree { context, plan }).1, { context, plan, memo := later }) := by
  refine ⟨_, hmemo.resolve, ?_⟩
  rw [tree_eq (c := { context, plan, memo }) hmemo,
    tree_eq (c := { context, plan }) (Memo.faithful_empty plan.joins)]

theorem execute_fresh (server : Server) (fetch : Run.Fetch) (h : History) :
    ∃ later : Memo, later.Faithful plan.joins ∧
      execute { context, plan, memo } server fetch h =
        let run := execute { context, plan } server fetch h
        (run.1, run.2.1, { context, plan, memo := later }, run.2.2.2) := by
  obtain ⟨later, hlater, hcompile⟩ := compile_fresh context plan hmemo {}
  obtain ⟨first, -, hfirst⟩ := compile_fresh context plan (Memo.faithful_empty plan.joins) {}
  rw [execute, execute, hcompile, hfirst]
  split
  · exact ⟨memo, hmemo, rfl⟩
  · refine ⟨later, hlater, ?_⟩
    dsimp only
    cases (compile { context, plan } {}).1.result with
    | error e => rfl
    | ok sql => rfl

/-- A request is answered as by a new compiler, and leaves the compiler as good as new. -/
theorem perform_fresh (server : Server) (h : History) (step : Step) :
    ∃ later : Memo, later.Faithful plan.joins ∧
      perform server { context, plan, memo } h step =
        let run := perform server { context, plan } h step
        (run.1, { context, plan, memo := later }, run.2.2) := by
  cases step with
  | compile form =>
    obtain ⟨later, hlater, hcompile⟩ := compile_fresh context plan hmemo form
    refine ⟨later, hlater, ?_⟩
    rw [perform, hcompile]
    rfl
  | execute fetch batches =>
    obtain ⟨later, hlater, hexecute⟩ := execute_fresh context plan hmemo server fetch h
    refine ⟨later, hlater, ?_⟩
    have hhistory : (Operation.select { context, plan, memo } fetch).history server batches h =
        (Operation.select { context, plan } fetch).history server batches h := by
      rw [Operation.history, Operation.history, Operation.run, Operation.run]
      dsimp only
      rw [hexecute]
    rw [perform, hhistory, hexecute]
    rfl
  | tree =>
    obtain ⟨later, hlater, htree⟩ := tree_fresh context plan hmemo
    refine ⟨later, hlater, ?_⟩
    rw [perform, htree]
    rfl

theorem inTurn_of_faithful (server : Server) (steps : List Step) (h : History) :
    inTurn server { context, plan, memo } h steps =
      (afresh server { context, plan } h steps).map (·, plan) := by
  induction steps generalizing memo h with
  | nil => rfl
  | cons step rest ih =>
    obtain ⟨later, hlater, hstep⟩ := perform_fresh context plan hmemo server h step
    rw [inTurn, afresh, hstep, List.map_cons]
    exact congrArg _ (ih hlater _)

end Fresh

/-- **A compiler is as good as new**: its plan stays the same, and all its answers are those of new compilers. -/
theorem inTurn_eq_afresh (server : Server) (context : Context) (plan : Plan) (steps : List Step) (h : History) :
    inTurn server { context, plan } h steps = (afresh server { context, plan } h steps).map (·, plan) :=
  inTurn_of_faithful context plan (Memo.faithful_empty plan.joins) server steps h

end Compiler

end PathQuery
