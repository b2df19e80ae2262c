import PathQuery.Proofs.Session.Sending
import PathQuery.Proofs.Statement.Insertion
import PathQuery.Session.Script
/-!
# Rows that are inserted arrive

The statements of an insert are sent on one cursor, in order, up to the first that is refused. Together with what each
of them carries, this says what arrives: the values of all rows, in the columns they are meant for, whether the rows go
out by one statement or one by one; and of an insert that fails, the statements up to the one that was refused.
-/

namespace PathQuery

namespace Server

/-- Statements are accepted one after the other. -/
def Accepts (server : Server) (c : Nat) : List Sql → History → Prop
  | [], _ => True
  | sql :: rest, k => server.execute c sql k = .ok () ∧ Accepts server c rest (k ++ [.on c (.execute sql)])

/-- The calls that send statements one after the other. -/
def sending (c : Nat) (statements : List Sql) : List Call :=
  statements.map fun sql => .on c (.execute sql)

/-- What comes of sending statements on a new cursor. Either all are accepted and no other statement is sent, or one
is refused: then it was the last to be sent, the cursor is closed, and its error is what comes back. -/
def Delivers {α : Type} (server : Server) (options : Options) (statements : List Sql) (h : History)
    (outcome : Except StatementError α × History) : Prop :=
  let c := h.countP Call.isCursor
  let opened := h ++ [.cursor] ++ [.on c (.prepare options)]
  (server.Accepts c statements opened ∧ Asks c (opened ++ sending c statements) outcome.2) ∨
    ∃ sent sql left e, statements = sent ++ sql :: left ∧ server.Accepts c sent opened ∧
      server.execute c sql (opened ++ sending c sent) = .error e ∧
      outcome = (.error (.database e), opened ++ sending c (sent ++ [sql]) ++ [.on c .close])

/-- Statements are all accepted, or there is a first that is refused. -/
theorem accepts_or_refused (server : Server) (c : Nat) (statements : List Sql) (k : History) :
    server.Accepts c statements k ∨ ∃ sent sql left e, statements = sent ++ sql :: left ∧ server.Accepts c sent k ∧
      server.execute c sql (k ++ sending c sent) = .error e := by
  induction statements generalizing k with
  | nil => exact .inl trivial
  | cons sql rest ih =>
    cases hexecute : server.execute c sql k with
    | error e =>
      refine .inr ⟨[], sql, rest, e, rfl, trivial, ?_⟩
      simpa [sending] using hexecute
    | ok =>
      rcases ih (k ++ [.on c (.execute sql)]) with hall | ⟨sent, refused, left, e, rfl, hsent, hrefused⟩
      · exact .inl ⟨hexecute, hall⟩
      · refine .inr ⟨sql :: sent, refused, left, e, rfl, ⟨hexecute, hsent⟩, ?_⟩
        simpa [sending] using hrefused

end Server

open Server (Accepts sending Asks Delivers)

namespace Run

variable {server : Server} {c : Nat} {k : History}

theorem executeAll_accepted {statements : List Sql} (h : server.Accepts c statements k) :
    executeAll server c statements k = (.ok (), k ++ sending c statements) := by
  induction statements generalizing k with
  | nil => exact congrArg (Prod.mk _) (List.append_nil k).symm
  | cons sql rest ih =>
    rw [executeAll, Session.bind_ok (Server.executeOn_ok h.1), ih h.2]
    simp [sending]

theorem executeAll_refused {sent left : List Sql} {sql : Sql} {e : String} (h : server.Accepts c sent k)
    (hrefused : server.execute c sql (k ++ sending c sent) = .error e) :
    executeAll server c (sent ++ sql :: left) k = (.error (.database e), k ++ sending c (sent ++ [sql])) := by
  induction sent generalizing k with
  | nil =>
    have hexecute : server.execute c sql k = .error e := by simpa [sending] using hrefused
    rw [List.nil_append, executeAll, Session.bind_error (Server.executeOn_error hexecute)]
    rfl
  | cons first sent ih =>
    have hlater : server.execute c sql (k ++ [.on c (.execute first)] ++ sending c sent) = .error e := by
      simpa [sending] using hrefused
    rw [List.cons_append, executeAll, Session.bind_ok (Server.executeOn_ok h.1), ih h.2 hlater]
    simp [sending]

theorem readBack_asks (server : Server) (ctx : Context) (i : Insert) (returning : List String) (c : Nat)
    (k : History) : Asks c k (readBack server ctx i returning c k).2 :=
  readBack_preserves ctx i returning (fun _ _ hread hasks => hasks.concat (Request.not_isExecute_of_isRead hread))
    (Asks.refl c k)

/-- An insert that may be made and is given a cursor sends its statements. -/
theorem insert_delivers {ctx : Context} {i : Insert} {returning : List String} {h : History}
    (hcheck : checkReturning ctx i returning = .ok ()) (hcursor : server.cursor h = .ok ()) :
    server.Delivers i.options (i.statements ctx.backend) h (insert server ctx i returning h) := by
  rw [insert, hcheck, Session.ofExcept_bind_ok, Server.visit_ok hcursor, Server.closing_eq, Delivers]
  dsimp only
  rcases server.accepts_or_refused (h.countP Call.isCursor) (i.statements ctx.backend)
      (h ++ [.cursor] ++ [.on (h.countP Call.isCursor) (.prepare i.options)]) with
    hall | ⟨sent, sql, left, e, hsplit, hsent, hrefused⟩
  · refine .inl ⟨hall, ?_⟩
    rw [Session.bind_ok (executeAll_accepted hall)]
    exact (readBack_asks server ctx i returning _ _).concat rfl
  · refine .inr ⟨sent, sql, left, e, hsplit, hsent, hrefused, ?_⟩
    rw [hsplit, Session.bind_error (executeAll_refused hsent hrefused)]

end Run

namespace Insert

/-- **Rows that are inserted arrive**, by one statement or by one statement to a row. In both cases the values are
those of the rows in order, each bound to the placeholder for its column, and the statements are sent in order up to
the first that is refused. -/
theorem rows_arrive (i : Insert) (ctx : Context) (hwidth : ∀ row ∈ i.rows, row.length = i.fields.length)
    (hnames : ∀ name ∈ i.table :: i.fields, Clean (ctx.backend.quoteName name)) :
    (i.rows = [] → i.statements ctx.backend = []) ∧
      (i.rows ≠ [] → ctx.backend.features.bulkInsert = true →
        ∃ sql, i.statements ctx.backend = [sql] ∧ i.Carries ctx.backend i.rows sql) ∧
      (ctx.backend.features.bulkInsert = false →
        List.Forall₂ (fun row sql => i.Carries ctx.backend [row] sql) i.rows (i.statements ctx.backend)) ∧
      (∀ sql ∈ i.statements ctx.backend, sql.Balanced) ∧
      (∀ backend : Backend, (i.statements backend).flatMap Sql.params = i.rows.flatten) ∧
      ∀ (server : Server) (returning : List String) (h : History),
        Run.checkReturning ctx i returning = .ok () → server.cursor h = .ok () →
          server.Delivers i.options (i.statements ctx.backend) h (Run.insert server ctx i returning h) := by
  refine ⟨fun hrows => ?_, fun hrows hbulk => ?_, fun hbulk => ?_, fun sql hsql => ?_, i.params_statements,
    fun server returning h => Run.insert_delivers⟩
  · rw [statements, hrows]
    rfl
  · exact ⟨_, statements_of_bulk hrows hbulk, statement_carries hnames hwidth⟩
  · rw [statements_of_single hbulk, List.forall₂_map_right_iff, List.forall₂_same]
    intro row hrow
    apply statement_carries hnames
    simpa using hwidth row hrow
  · obtain ⟨rows, rfl, hsubset⟩ := exists_rows hsql
    exact statement_balanced hnames fun row hrow => hwidth row (hsubset row hrow)

/-- Two contacts, one of them without an address. -/
def twoContacts : Insert where
  table := "Contact"
  fields := ["LastName", "Email"]
  rows := [[.text "Doe", .null], [.text "Roe", .text "roe@example"]]

/-- Where the rows have to go one by one and the second is refused, both statements have been sent. -/
theorem twoContacts_arrive :
    let ctx := Context.of (.soql { bulkInsert := false }) {}
    let server := Script.server { failures := [(.execute, 1, "locked")] }
    (∀ row ∈ twoContacts.rows, row.length = twoContacts.fields.length) ∧
      (∀ name ∈ twoContacts.table :: twoContacts.fields, Clean (ctx.backend.quoteName name)) ∧
      (Run.checkReturning ctx twoContacts [] = .ok () ∧ server.cursor [] = .ok ()) ∧
      List.Forall₂ (fun row sql => twoContacts.Carries ctx.backend [row] sql) twoContacts.rows
        (twoContacts.statements ctx.backend) ∧
      server.Delivers {} (twoContacts.statements ctx.backend) [] (Run.insert server ctx twoContacts [] []) ∧
      Run.insert server ctx twoContacts [] [] =
        (.error (.database "locked"),
          [.cursor, .on 0 (.prepare {})] ++ sending 0 (twoContacts.statements ctx.backend) ++ [.on 0 .close]) := by
  intro ctx server
  have hwidth : ∀ row ∈ twoContacts.rows, row.length = twoContacts.fields.length := by
    simp [twoContacts]
  have hnames : ∀ name ∈ twoContacts.table :: twoContacts.fields, Clean (ctx.backend.quoteName name) := by
    decide
  obtain ⟨-, -, hsingle, -, -, hdelivers⟩ := rows_arrive twoContacts ctx hwidth hnames
  exact ⟨hwidth, hnames, ⟨rfl, rfl⟩, hsingle rfl, hdelivers server [] [] rfl rfl, rfl⟩

end Insert

end PathQuery
