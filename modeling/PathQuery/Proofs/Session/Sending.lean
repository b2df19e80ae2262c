import PathQuery.Proofs.Session.Dialogue
import PathQuery.Proofs.Session.Repetition
import PathQuery.Proofs.Statement.Draft
/-!
# What is sent is what was compiled

A query, an update, a deletion or an aggregate is compiled first. If that fails, or gives a statement without
text, the server hears nothing. Otherwise it is asked for a cursor, which gets the options of the plan, then the
statement as it was compiled, and no other statement after it, however long the rows are read.

Every program that runs a statement has this property, `Run.Relays`, and every operation is one such program
behind a compilation. The one operation that comes to no statement at all, whatever its compilation would give,
is a query for a number of rows where that cannot be asked for.
-/

namespace PathQuery

/-! ### What a cursor hears -/

/-- The request to execute a statement. -/
def Request.isExecute : Request → Bool
  | .execute _ => true
  | .prepare _ => false
  | .fetchOne => false
  | .fetchMany _ => false
  | .rowCount => false
  | .lastInsertId => false
  | .close => false

theorem Request.not_isExecute_of_isRead {r : Request} (hread : r.isRead) : r.isExecute = false := by
  cases r with
  | execute => cases hread
  | prepare | fetchOne | fetchMany | rowCount | lastInsertId | close => rfl

namespace Server

/-- From `k` on to `l`, a cursor was asked for other things than to execute a statement. -/
def Asks (c : Nat) (k l : History) : Prop :=
  ∃ requests : List Request, (∀ r ∈ requests, r.isExecute = false) ∧ l = k ++ requests.map (.on c)

/-- What is said from `h` on to `k` when a statement is sent: a cursor is asked for and, if it is given, gets the
options, the statement, and no other statement. -/
def Sends (server : Server) (options : Options) (sql : Sql) (h k : History) : Prop :=
  let c := h.countP Call.isCursor
  match server.cursor h with
  | .error _ => k = h ++ [.cursor]
  | .ok () => Asks c (h ++ [.cursor, .on c (.prepare options), .on c (.execute sql)]) k

namespace Asks

variable {c : Nat} {k l m : History}

theorem refl (c : Nat) (k : History) : Asks c k k :=
  ⟨[], by simp, by simp⟩

theorem trans (hkl : Asks c k l) (hlm : Asks c l m) : Asks c k m := by
  obtain ⟨first, hfirst, rfl⟩ := hkl
  obtain ⟨second, hsecond, rfl⟩ := hlm
  refine ⟨first ++ second, ?_, by simp⟩
  intro r hr
  rcases List.mem_append.1 hr with hr | hr
  · exact hfirst r hr
  · exact hsecond r hr

theorem concat (h : Asks c k l) {r : Request} (hr : r.isExecute = false) : Asks c k (l ++ [.on c r]) :=
  h.trans ⟨[r], by simpa using hr, rfl⟩

end Asks

variable {server : Server} {options : Options} {sql : Sql} {h k l : History}

theorem sends_of_error {e : String} (hcursor : server.cursor h = .error e) :
    server.Sends options sql h (h ++ [.cursor]) := by
  rw [Sends, hcursor]

theorem sends_iff (hcursor : server.cursor h = .ok ()) :
    server.Sends options sql h k ↔ Asks (h.countP Call.isCursor)
      (h ++ [.cursor, .on (h.countP Call.isCursor) (.prepare options),
        .on (h.countP Call.isCursor) (.execute sql)]) k := by
  rw [Sends, hcursor]

theorem Sends.more (hcursor : server.cursor h = .ok ()) (hsends : server.Sends options sql h k)
    (hasks : Asks (h.countP Call.isCursor) k l) : server.Sends options sql h l := by
  rw [sends_iff hcursor] at hsends ⊢
  exact hsends.trans hasks

/-- A program that executes its statement first and asks for other things after it. -/
theorem sends_visit {α : Type} {body : Nat → Session α}
    (hbody : ∀ c k, Asks c (k ++ [.on c (.execute sql)]) (body c k).2) :
    server.Sends options sql h ((do let c ← server.openCursor; prepareOn c options; body c) h).2 := by
  cases hcursor : server.cursor h with
  | error e =>
    rw [visit_error hcursor]
    exact sends_of_error hcursor
  | ok =>
    have hsaid : h ++ [.cursor, .on (h.countP Call.isCursor) (.prepare options),
          .on (h.countP Call.isCursor) (.execute sql)] =
        h ++ [.cursor] ++ [.on (h.countP Call.isCursor) (.prepare options)] ++
          [.on (h.countP Call.isCursor) (.execute sql)] := by
      simp
    rw [visit_ok hcursor, sends_iff hcursor, hsaid]
    exact hbody _ _

end Server

open Server (Asks)

/-! ### Streams only read -/

namespace Stream

variable (server : Server)

theorem finish_asks (s : Stream) (k : History) : Asks s.cursor k (s.finish k).2 := by
  rw [finish]
  split
  · exact .refl _ _
  · exact (Asks.refl _ _).concat rfl

theorem finish_cursor (s : Stream) (k : History) : (s.finish k).1.cursor = s.cursor := by
  rw [finish]
  split
  · rfl
  · rfl

theorem next_asks (s : Stream) (k : History) :
    (s.next server k).2.1.cursor = s.cursor ∧ Asks s.cursor k (s.next server k).2.2 := by
  have hread : Asks s.cursor k (k ++ [.on s.cursor (.fetchMany s.chunkSize)]) :=
    (Asks.refl _ _).concat rfl
  rw [next]
  split
  · exact ⟨rfl, .refl _ _⟩
  · dsimp only
    split
    · exact ⟨finish_cursor s _, hread.trans (finish_asks s _)⟩
    · exact ⟨finish_cursor s _, hread.trans (finish_asks s _)⟩
    · exact ⟨rfl, hread⟩

theorem take_asks (n : Nat) (s : Stream) (k : History) :
    (Stream.take server n s k).2.1.cursor = s.cursor ∧ Asks s.cursor k (Stream.take server n s k).2.2 := by
  induction n generalizing s k with
  | zero => exact ⟨rfl, .refl _ _⟩
  | succ n ih =>
    obtain ⟨hcursor, hnext⟩ := next_asks server s k
    obtain ⟨hlast, htake⟩ := ih (s.next server k).2.1 (s.next server k).2.2
    rw [hcursor] at hlast htake
    exact ⟨hlast, hnext.trans htake⟩

/-- A stream that is given up has asked for rows and for the end. -/
theorem giveUp_asks (n : Nat) (s : Stream) (k : History) :
    Asks s.cursor k ((Result.chunks s).giveUp server n k) := by
  obtain ⟨hcursor, htake⟩ := take_asks server n s k
  have hfinish := finish_asks (Stream.take server n s k).2.1 (Stream.take server n s k).2.2
  rw [hcursor] at hfinish
  exact htake.trans hfinish

theorem drain_asks (s : Stream) (k : History) : Asks s.cursor k (s.drain server k).2 := by
  obtain ⟨n, hn⟩ := exists_take_of_drain server s k
  rw [hn]
  exact giveUp_asks server n s k

end Stream

/-! ### Programs -/

theorem Result.giveUp_settled {result : Result} (hsettled : result.isSettled) (server : Server) (n : Nat)
    (k : History) : result.giveUp server n k = k := by
  cases result with
  | rows | single | rowCount | noResults => rfl
  | chunks | cursor => cases hsettled

/-- What has been said once an outcome has been given up. -/
def Run.givenUp (server : Server) (n : Nat) : Except StatementError Result × History → History
  | (.ok result, k) => result.giveUp server n k
  | (.error _, k) => k

/-- A program that runs a statement: one without text is answered at once, any other is sent, and nothing else
is sent whether the result is used or given up. -/
structure Run.Relays (server : Server) (options : Options) (nothing : Result) (run : Sql → Session Result) :
    Prop where
  silent : ∀ sql h, sql.isEmpty → run sql h = (.ok nothing, h)
  sends : ∀ sql h, sql.isEmpty = false → server.Sends options sql h (run sql h).2
  givenUp : ∀ sql h n, sql.isEmpty = false → server.Sends options sql h (givenUp server n (run sql h))

namespace Run

variable {server : Server} {options : Options} {sql : Sql} {h k : History}

theorem givenUp_map {α : Type} {f : α → Result} (hf : ∀ a, (f a).isSettled) (n : Nat)
    (outcome : Except StatementError α) (k : History) : givenUp server n (outcome.map f, k) = k := by
  cases outcome with
  | error e => rfl
  | ok a => exact Result.giveUp_settled (hf a) server n k

/-- A program whose results need nothing more is over when it has run. -/
theorem Relays.map {α : Type} {f : α → Result} (hf : ∀ a, (f a).isSettled) {a : α} {run : Sql → Session α}
    (hsilent : ∀ sql h, sql.isEmpty → run sql h = (.ok a, h))
    (hsends : ∀ sql h, sql.isEmpty = false → server.Sends options sql h (run sql h).2) :
    Relays server options (f a) fun sql => f <$> run sql where
  silent sql h hempty := by
    rw [Session.map_apply, hsilent sql h hempty]
    rfl
  sends sql h hsql := by
    rw [Session.map_apply]
    exact hsends sql h hsql
  givenUp sql h n hsql := by
    rw [Session.map_apply, givenUp_map hf]
    exact hsends sql h hsql

theorem counted_relays (server : Server) (options : Options) :
    Relays server options (.rowCount 0) fun sql => Result.rowCount <$> counted server options sql := by
  refine .map (fun _ => rfl) (fun sql h hempty => ?_) (fun sql h hsql => ?_)
  · rw [counted, if_pos hempty]
    rfl
  · rw [counted, hsql]
    refine Server.sends_visit fun c k => ?_
    rw [Server.closing_eq, Session.bind_ok (Server.outcome_executeOn server c sql k)]
    exact ((Asks.refl _ _).concat rfl).concat rfl

theorem firstRow_relays (server : Server) (options : Options) :
    Relays server options (.single none) fun sql => Result.single <$> firstRow server options sql := by
  refine .map (fun _ => rfl) (fun sql h hempty => ?_) (fun sql h hsql => ?_)
  · rw [firstRow, if_pos hempty]
    rfl
  · rw [firstRow, hsql]
    refine Server.sends_visit fun c k => ?_
    rw [Server.closing_eq]
    cases hexecute : server.execute c sql k with
    | error e =>
      rw [Session.bind_error (Server.executeOn_error hexecute)]
      exact (Asks.refl _ _).concat rfl
    | ok =>
      rw [Session.bind_ok (Server.executeOn_ok hexecute)]
      exact ((Asks.refl _ _).concat rfl).concat rfl

theorem start_sends (server : Server) (options : Options) (sql : Sql) (h : History) :
    server.Sends options sql h (start server options sql h).2 := by
  rw [start]
  refine Server.sends_visit fun c k => ?_
  rw [Session.bind_ok (Server.outcome_executeOn server c sql k)]
  cases server.execute c sql k with
  | error e => exact (Asks.refl _ _).concat rfl
  | ok => exact .refl _ _

/-- The cursor of a statement that was started is the one that was asked for. -/
theorem start_cursor {c : Nat} (hstart : start server options sql h = (.ok c, k)) :
    server.cursor h = .ok () ∧ h.countP Call.isCursor = c := by
  rw [start] at hstart
  cases hcursor : server.cursor h with
  | error e =>
    rw [Server.visit_error hcursor] at hstart
    cases hstart
  | ok =>
    refine ⟨rfl, ?_⟩
    rw [Server.visit_ok hcursor, Session.bind_ok (Server.outcome_executeOn ..)] at hstart
    cases hexecute : server.execute (h.countP Call.isCursor) sql
        (h ++ [.cursor] ++ [.on (h.countP Call.isCursor) (.prepare options)]) with
    | error e =>
      rw [hexecute] at hstart
      cases hstart
    | ok =>
      rw [hexecute] at hstart
      cases hstart
      rfl

/-- What follows a statement that was started only asks about it. -/
theorem query_started {c : Nat} (features : Features) (fetch : Fetch) (hsql : sql.isEmpty = false)
    (hstart : start server options sql h = (.ok c, k)) :
    Asks c k (query server features options fetch sql h).2 ∧
      ∀ n, Asks c k (givenUp server n (query server features options fetch sql h)) := by
  rw [query, hsql, if_neg Bool.false_ne_true, Session.bind_ok hstart]
  have hclosed : ∀ r : Request, r.isExecute = false → Asks c k (k ++ [.on c r] ++ [.on c .close]) :=
    fun r hr => ((Asks.refl c k).concat hr).concat rfl
  cases fetch.shape with
  | cursor => exact ⟨.refl c k, fun _ => .refl c k⟩
  | rowCount => exact ⟨hclosed .rowCount rfl, fun _ => hclosed .rowCount rfl⟩
  | single =>
    dsimp only
    rw [Server.closing_eq, Session.map_apply]
    refine ⟨hclosed .fetchOne rfl, fun n => ?_⟩
    rw [givenUp_map fun _ => rfl]
    exact hclosed .fetchOne rfl
  | noResults => exact ⟨(Asks.refl c k).concat rfl, fun _ => (Asks.refl c k).concat rfl⟩
  | multi =>
    dsimp only
    split
    · have hdrain := Stream.drain_asks server { cursor := c, chunkSize := fetch.chunkSize } k
      rw [Session.map_apply]
      refine ⟨hdrain, fun n => ?_⟩
      rw [givenUp_map fun _ => rfl]
      exact hdrain
    · exact ⟨.refl c k, fun n => Stream.giveUp_asks server n _ k⟩

theorem query_sends (features : Features) (fetch : Fetch) (hsql : sql.isEmpty = false) :
    server.Sends options sql h (query server features options fetch sql h).2 ∧
      ∀ n, server.Sends options sql h (givenUp server n (query server features options fetch sql h)) := by
  have hsends := start_sends server options sql h
  cases hstart : start server options sql h with
  | mk outcome k =>
    rw [hstart] at hsends
    cases outcome with
    | error e =>
      rw [query, hsql, if_neg Bool.false_ne_true, Session.bind_error hstart]
      exact ⟨hsends, fun _ => hsends⟩
    | ok c =>
      obtain ⟨hcursor, rfl⟩ := start_cursor hstart
      obtain ⟨hrun, hgivenUp⟩ := query_started features fetch hsql hstart
      exact ⟨hsends.more hcursor hrun, fun n => hsends.more hcursor (hgivenUp n)⟩

/-- What a query gives if there is nothing to send. -/
def Fetch.nothing (fetch : Fetch) : Result :=
  if fetch.shape = .multi then .rows [] else .noResults

theorem query_relays (server : Server) (features : Features) (options : Options) (fetch : Fetch) :
    Relays server options fetch.nothing (query server features options fetch) where
  silent sql h hempty := by
    rw [query, if_pos hempty]
    rfl
  sends _ _ hsql := (query_sends features fetch hsql).1
  givenUp _ _ n hsql := (query_sends features fetch hsql).2 n

variable {report : Report StatementError Sql}

theorem compiled_error {α : Type} {e : StatementError} (hreport : report.result = .error e)
    (run : Sql → Session α) (h : History) : compiled report run h = (.error e, h) := by
  rw [compiled, hreport, Session.ofExcept_bind_error]

theorem compiled_ok {α : Type} (hreport : report.result = .ok sql) (run : Sql → Session α) (h : History) :
    compiled report run h = run sql h := by
  rw [compiled, hreport, Session.ofExcept_bind_ok]

theorem map_compiled {α β : Type} (f : α → β) (report : Report StatementError Sql) (run : Sql → Session α)
    (h : History) : (f <$> compiled report run) h = compiled report (fun sql => f <$> run sql) h := by
  rw [Session.map_apply]
  cases hreport : report.result with
  | error e =>
    rw [compiled_error hreport, compiled_error hreport]
    rfl
  | ok sql => rw [compiled_ok hreport, compiled_ok hreport, Session.map_apply]

end Run

/-! ### Operations -/

/-- A query that is run compiles the plan and runs what comes out. -/
theorem Compiler.execute_compiled (c : Compiler) {fetch : Run.Fetch}
    (hallowed : ¬ (fetch.shape = .rowCount ∧ !c.context.capabilities.rowCount)) (server : Server) (h : History) :
    ((c.execute server fetch h).2.1, (c.execute server fetch h).2.2.2) =
      Run.compiled (c.compile {}).1
        (Run.query server c.context.backend.features c.plan.options fetch) h := by
  have hkept : (c.compile {}).2.context = c.context ∧ (c.compile {}).2.plan = c.plan := by
    rcases c.compile_state {} with hstate | hstate
    · rw [hstate]
      exact ⟨rfl, rfl⟩
    · rw [hstate]
      exact ⟨rfl, rfl⟩
  rw [execute, if_neg hallowed]
  dsimp only
  rw [hkept.1, hkept.2]
  cases hreport : (c.compile {}).1.result with
  | error e => rw [Run.compiled_error hreport]
  | ok sql =>
    rw [Run.compiled_ok hreport]
    rfl

namespace Operation

/-- What an operation compiles, and for whom; an insert is made of its rows alone. -/
def draft? : Operation → Option (Context × Plan × Draft)
  | .select c _ => some (c.context, c.plan, .select c.memo {})
  | .update ctx p values => some (ctx, p, .update values)
  | .delete ctx p => some (ctx, p, .delete)
  | .aggregate ctx p aggregates => some (ctx, p, .aggregate aggregates)
  | .insert .. => none

/-- A query for a number of rows where that cannot be asked for. -/
def Barred : Operation → Prop
  | .select c fetch => fetch.shape = .rowCount ∧ !c.context.capabilities.rowCount
  | .update .. => False
  | .delete .. => False
  | .aggregate .. => False
  | .insert .. => False

/-- The result if there is nothing to send. -/
def nothing : Operation → Result
  | .select _ fetch => fetch.nothing
  | .update .. => .rowCount 0
  | .delete .. => .rowCount 0
  | .aggregate .. => .single none
  | .insert .. => .rows []

variable {op : Operation} {ctx : Context} {p : Plan} {draft : Draft}

/-- Every operation that has a draft is a program behind the compilation of that draft. -/
theorem run_compiled (server : Server) (hop : op.draft? = some (ctx, p, draft)) (hallowed : ¬ op.Barred) :
    ∃ run, Run.Relays server p.options op.nothing run ∧
      ∀ h, op.run server h = Run.compiled (draft.report ctx p) run h := by
  cases op with
  | select c fetch =>
    cases hop
    exact ⟨_, Run.query_relays .., c.execute_compiled hallowed server⟩
  | update =>
    cases hop
    exact ⟨_, Run.counted_relays .., fun h => Run.map_compiled ..⟩
  | delete =>
    cases hop
    exact ⟨_, Run.counted_relays .., fun h => Run.map_compiled ..⟩
  | aggregate =>
    cases hop
    refine ⟨_, Run.firstRow_relays server p.options, fun h => ?_⟩
    rw [run, Draft.report]
    dsimp only
    rw [Run.map_compiled]
    rfl
  | insert => cases hop

theorem run_barred (server : Server) (hbarred : op.Barred) (h : History) :
    op.run server h = (.error (.capability "Row count result type"), h) := by
  cases op with
  | select c fetch =>
    have hgate : fetch.shape = .rowCount ∧ !c.context.capabilities.rowCount := hbarred
    rw [run]
    dsimp only
    rw [Compiler.execute, if_pos hgate]
  | update => cases hbarred
  | delete => cases hbarred
  | aggregate => cases hbarred
  | insert => cases hbarred

theorem history_eq (server : Server) (n : Nat) (op : Operation) (h : History) :
    op.history server n h = Run.givenUp server n (op.run server h) := rfl

end Operation

/-- **What is sent is what was compiled**: an operation whose compilation fails or gives no text says nothing,
any other sends the statement once and no other statement, and no statement but the empty one is without
text. -/
theorem Draft.sent_as_compiled (server : Server) (ctx : Context) (p : Plan) (draft : Draft) :
    (∀ q, (draft.report ctx p).result = .ok q → q.text = "" → q.params = [] ∧
      ∀ memo form, draft = .select memo form →
        (form.limits ∧ p.window.high = some p.window.low) ∨
          ∃ tree, (memo.resolve p.joins).1 = .ok tree ∧ p.HoldsOfNothing ctx.settings tree) ∧
    ∀ (op : Operation) (h : History), op.draft? = some (ctx, p, draft) →
      (op.Barred → op.run server h = (.error (.capability "Row count result type"), h)) ∧
      (¬ op.Barred →
        (∀ e, (draft.report ctx p).result = .error e → op.run server h = (.error e, h)) ∧
        ∀ q, (draft.report ctx p).result = .ok q →
          (q.text = "" → op.run server h = (.ok op.nothing, h)) ∧
          (q.text ≠ "" → server.Sends p.options q h (op.run server h).2 ∧
            ∀ n, server.Sends p.options q h (op.history server n h))) := by
  refine ⟨fun q hreport hempty => ⟨?_, ?_⟩, fun op h hop => ⟨fun hbarred => op.run_barred server hbarred h, ?_⟩⟩
  · rw [report_empty hreport hempty]
    rfl
  · rintro memo form rfl
    exact (Compiler.compile_empty hreport hempty).2
  · intro hallowed
    obtain ⟨run, hrelays, hrun⟩ := op.run_compiled server hop hallowed
    refine ⟨fun e hreport => ?_, fun q hreport => ⟨fun hempty => ?_, fun htext => ?_⟩⟩
    · rw [hrun, Run.compiled_error hreport]
    · rw [hrun, Run.compiled_ok hreport]
      exact hrelays.silent q h (String.isEmpty_iff.2 hempty)
    · have hsql : q.isEmpty = false := by
        rw [Sql.isEmpty, Bool.eq_false_iff]
        exact fun hempty => htext (String.isEmpty_iff.1 hempty)
      simp only [Operation.history_eq, hrun, Run.compiled_ok hreport]
      exact ⟨hrelays.sends q h hsql, fun n => hrelays.givenUp q h n hsql⟩

/-- The number of the rows of an empty window, asked for where it cannot be. -/
def Operation.countOfNone : Operation :=
  .select
    { context := .of .soql { version := ⟨5, 1⟩ }
      plan :=
        { model := some { table := "Contact" }, joins := [.base "Contact" "C"], window := { high := some 0 } } }
    { shape := .rowCount, chunkSize := 100 }

/-- There is nothing to send, and yet the answer is not that there is no result. -/
theorem Operation.countOfNone_refused :
    (∃ ctx p draft, countOfNone.draft? = some (ctx, p, draft) ∧
      (draft.report ctx p).result = .ok .empty) ∧
    ∀ server h, countOfNone.run server h = (.error (.capability "Row count result type"), h) ∧
      countOfNone.run server h ≠ (.ok countOfNone.nothing, h) := by
  have hbarred : countOfNone.Barred := ⟨rfl, rfl⟩
  refine ⟨⟨_, _, _, rfl, rfl⟩, fun server h => ?_⟩
  have hrun := run_barred server hbarred h
  refine ⟨hrun, ?_⟩
  rw [hrun]
  exact nofun

end PathQuery
