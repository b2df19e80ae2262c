import PathQuery.Session.Operation
/-!
# What is said to a server

An operation opens at most one cursor. `Server.Dialogue` is the protocol that it keeps with that cursor:
options first, then statements in order as long as they are accepted, questions about rows only when all of
them were. `Server.Course` adds how the dialogue ends. Every operation takes such a course, or leaves a
dialogue under way to whoever was given its cursor or its stream; what else is known about histories follows
from the protocol and not from the programs.
-/

namespace PathQuery

/-! ### Computations step by step -/

namespace Session

variable {α β : Type} {run : Session α} {next : α → Session β} {h k : History}

theorem bind_ok {a : α} (hrun : run h = (.ok a, k)) : (run >>= next) h = next a k := by
  change ExceptT.bindCont next (run h).1 (run h).2 = next a k
  rw [hrun]
  rfl

theorem bind_error {e : StatementError} (hrun : run h = (.error e, k)) :
    (run >>= next) h = (.error e, k) := by
  change ExceptT.bindCont next (run h).1 (run h).2 = (.error e, k)
  rw [hrun]
  rfl

theorem bind_congr {other : Session α} (hrun : run h = other h) : (run >>= next) h = (other >>= next) h := by
  change ExceptT.bindCont next (run h).1 (run h).2 = ExceptT.bindCont next (other h).1 (other h).2
  rw [hrun]

theorem ofExcept_bind_ok (a : α) : (ofExcept (.ok a) >>= next) h = next a h := rfl

theorem ofExcept_bind_error (e : StatementError) : (ofExcept (.error e) >>= next) h = (.error e, h) := rfl

/-- What only shapes a value says nothing. -/
theorem bind_pure_history (f : α → β) (run : Session α) (h : History) :
    ((run >>= fun a => pure (f a)) h).2 = (run h).2 := by
  cases hrun : run h with
  | mk outcome k =>
    cases outcome with
    | error e => rw [bind_error hrun]
    | ok a => rw [bind_ok hrun]; rfl

theorem map_apply (f : α → β) (run : Session α) (h : History) :
    (f <$> run) h = ((run h).1.map f, (run h).2) := by
  cases hrun : run h with
  | mk outcome k =>
    cases outcome with
    | error e => exact bind_error hrun
    | ok a => exact bind_ok hrun

end Session

/-! ### The protocol -/

/-- Requests that hand out what a statement has given. -/
def Request.isRead : Request → Bool
  | .fetchOne => true
  | .fetchMany _ => true
  | .lastInsertId => true
  | .prepare _ => false
  | .execute _ => false
  | .rowCount => false
  | .close => false

/-- Results that need nothing more from the server. -/
def Result.isSettled : Result → Bool
  | .rows _ => true
  | .single _ => true
  | .rowCount _ => true
  | .noResults => true
  | .chunks _ => false
  | .cursor _ => false

/-- How far a dialogue has come: all statements but some were sent and accepted, or one was refused. -/
inductive Phase
  | sending (left : List Sql)
  | refused

namespace Server

section Protocol

variable (server : Server) (statements : List Sql) (h : History)

/-- The dialogue with the cursor that is opened after `h`, up to some moment before it is closed. -/
inductive Dialogue (c : Nat) : Phase → History → Prop
  | opened (hcursor : server.cursor h = .ok ()) (hnumber : h.countP Call.isCursor = c) (options : Options) :
    Dialogue c (.sending statements) (h ++ [.cursor] ++ [.on c (.prepare options)])
  | accepted {k : History} {sql : Sql} {left : List Sql} (hsending : Dialogue c (.sending (sql :: left)) k)
      (hexecute : server.execute c sql k = .ok ()) :
    Dialogue c (.sending left) (k ++ [.on c (.execute sql)])
  | refused {k : History} {sql : Sql} {left : List Sql} {e : String}
      (hsending : Dialogue c (.sending (sql :: left)) k) (hexecute : server.execute c sql k = .error e) :
    Dialogue c .refused (k ++ [.on c (.execute sql)])
  | counted {phase : Phase} {k : History} (hearlier : Dialogue c phase k) :
    Dialogue c phase (k ++ [.on c .rowCount])
  | read {k : History} {r : Request} (hsent : Dialogue c (.sending []) k) (hread : r.isRead) :
    Dialogue c (.sending []) (k ++ [.on c r])

/-- What is said from `h` on when a cursor is asked for at most once, and closed if it was given. -/
inductive Course : History → Prop
  | silent : Course h
  | unopened {e : String} (hcursor : server.cursor h = .error e) : Course (h ++ [.cursor])
  | closed {c : Nat} {phase : Phase} {k : History} (hdialogue : Dialogue server statements h c phase k) :
    Course (k ++ [.on c .close])

/-- An operation has taken its course, unless it gives its cursor or its stream away while the dialogue is
under way. -/
def Leaves : Except StatementError Result × History → Prop
  | (.ok (.cursor c), k) => Dialogue server statements h c (.sending []) k
  | (.ok (.chunks s), k) => s.done = false ∧ Dialogue server statements h s.cursor (.sending []) k
  | (_, k) => Course server statements h k

end Protocol

/-! ### Calls one by one -/

variable {server : Server} {statements : List Sql} {h k : History} {c : Nat}

theorem openCursor_ok (hcursor : server.cursor k = .ok ()) :
    server.openCursor k = (.ok (k.countP Call.isCursor), k ++ [.cursor]) := by
  rw [openCursor, attempt, perform, hcursor]
  rfl

theorem openCursor_error {e : String} (hcursor : server.cursor k = .error e) :
    server.openCursor k = (.error (.database e), k ++ [.cursor]) := by
  rw [openCursor, attempt, perform, hcursor]
  rfl

theorem executeOn_ok {sql : Sql} (hexecute : server.execute c sql k = .ok ()) :
    server.executeOn c sql k = (.ok (), k ++ [.on c (.execute sql)]) := by
  rw [executeOn, attempt, perform, hexecute]
  rfl

theorem executeOn_error {sql : Sql} {e : String} (hexecute : server.execute c sql k = .error e) :
    server.executeOn c sql k = (.error (.database e), k ++ [.on c (.execute sql)]) := by
  rw [executeOn, attempt, perform, hexecute]
  rfl

theorem outcome_executeOn (server : Server) (c : Nat) (sql : Sql) (k : History) :
    Session.outcome (server.executeOn c sql) k =
      (.ok ((server.execute c sql k).mapError .database), k ++ [.on c (.execute sql)]) := rfl

theorem closing_eq {α : Type} (c : Nat) (run : Session α) (k : History) :
    closing c run k = ((run k).1, (run k).2 ++ [.on c .close]) := rfl

theorem visit_ok {α : Type} {options : Options} {body : Nat → Session α} (hcursor : server.cursor h = .ok ()) :
    (do let c ← server.openCursor; prepareOn c options; body c) h =
      body (h.countP Call.isCursor)
        (h ++ [.cursor] ++ [.on (h.countP Call.isCursor) (.prepare options)]) := by
  rw [Session.bind_ok (openCursor_ok hcursor)]
  exact Session.bind_ok rfl

theorem visit_error {α : Type} {options : Options} {body : Nat → Session α} {e : String}
    (hcursor : server.cursor h = .error e) :
    (do let c ← server.openCursor; prepareOn c options; body c) h = (.error (.database e), h ++ [.cursor]) :=
  Session.bind_error (openCursor_error hcursor)

/-- A program that keeps to the protocol between opening and closing its cursor takes its course. -/
theorem Course.of_visit {α : Type} {options : Options} {body : Nat → Session α}
    (hbody : ∀ c k, Dialogue server statements h c (.sending statements) k →
      ∃ phase, Dialogue server statements h c phase (body c k).2) :
    Course server statements h
      ((do let c ← server.openCursor; prepareOn c options; closing c (body c)) h).2 := by
  cases hcursor : server.cursor h with
  | error e =>
    rw [visit_error hcursor]
    exact .unopened hcursor
  | ok =>
    rw [visit_ok hcursor, closing_eq]
    obtain ⟨phase, hdialogue⟩ := hbody _ _ (.opened hcursor rfl options)
    exact .closed hdialogue

theorem Leaves.map {α : Type} {f : α → Result} (hf : ∀ a, (f a).isSettled)
    (hcourse : Course server statements h k) (outcome : Except StatementError α) :
    Leaves server statements h (outcome.map f, k) := by
  cases outcome with
  | error e => exact hcourse
  | ok a =>
    have hsettled := hf a
    change Leaves server statements h (.ok (f a), k)
    cases hresult : f a with
    | rows | single | rowCount | noResults => exact hcourse
    | chunks | cursor =>
      rw [hresult] at hsettled
      cases hsettled

end Server

/-! ### Programs -/

namespace Run

variable {server : Server} {statements : List Sql} {h k : History} {c : Nat}

open Server (Dialogue Course Leaves)

/-- Statements are sent up to the first that is refused. -/
theorem executeAll_dialogue {left : List Sql} (hsending : Dialogue server statements h c (.sending left) k) :
    ∃ phase, Dialogue server statements h c phase (executeAll server c left k).2 ∧
      ((executeAll server c left k).1 = .ok () → phase = .sending []) := by
  induction left generalizing k with
  | nil => exact ⟨_, hsending, fun _ => rfl⟩
  | cons sql left ih =>
    rw [executeAll]
    cases hexecute : server.execute c sql k with
    | error e =>
      rw [Session.bind_error (Server.executeOn_error hexecute)]
      exact ⟨_, .refused hsending hexecute, nofun⟩
    | ok =>
      rw [Session.bind_ok (Server.executeOn_ok hexecute)]
      exact ih (.accepted hsending hexecute)

/-- Whatever reading from the cursor preserves holds after all rows were fetched. -/
theorem fetchAll_preserves {P : History → Prop} (hread : ∀ k r, Request.isRead r → P k → P (k ++ [.on c r]))
    (hk : P k) : P (fetchAll server c k).2 := by
  fun_induction fetchAll server c k with
  | case1 k e hfetch => exact hread k _ rfl hk
  | case2 k hfetch => exact hread k _ rfl hk
  | case3 k row hfetch rest last hlast ih =>
    rw [hlast] at ih
    exact ih (hread k _ rfl hk)

theorem readBack_preserves (ctx : Context) (i : Insert) (returning : List String) {P : History → Prop}
    (hread : ∀ k r, Request.isRead r → P k → P (k ++ [.on c r])) (hk : P k) :
    P (readBack server ctx i returning c k).2 := by
  rw [readBack]
  split
  · exact hk
  · split
    · exact fetchAll_preserves hread hk
    · split
      · rw [Session.bind_pure_history]
        exact hread k _ rfl hk
      · rw [Session.bind_pure_history]
        exact hread k _ rfl hk

theorem insert_course (ctx : Context) (i : Insert) (returning : List String) :
    Course server (i.statements ctx.backend) h (insert server ctx i returning h).2 := by
  rw [insert]
  cases hcheck : checkReturning ctx i returning with
  | error e =>
    rw [Session.ofExcept_bind_error]
    exact .silent
  | ok =>
    rw [Session.ofExcept_bind_ok]
    refine Course.of_visit fun c k hsending => ?_
    obtain ⟨phase, hdialogue, hall⟩ := executeAll_dialogue hsending
    cases hsent : executeAll server c (i.statements ctx.backend) k with
    | mk outcome last =>
      rw [hsent] at hdialogue hall
      cases outcome with
      | error e =>
        rw [Session.bind_error hsent]
        exact ⟨phase, hdialogue⟩
      | ok =>
        rw [Session.bind_ok hsent]
        cases hall rfl
        exact ⟨_, readBack_preserves ctx i returning (fun _ _ hread hsent => .read hsent hread) hdialogue⟩

theorem counted_course (options : Options) (sql : Sql) : Course server [sql] h (counted server options sql h).2 := by
  rw [counted]
  split
  · exact .silent
  · refine Course.of_visit fun c k hsending => ?_
    cases hexecute : server.execute c sql k with
    | error e =>
      rw [Session.bind_ok (Server.outcome_executeOn server c sql k)]
      exact ⟨_, .counted (.refused hsending hexecute)⟩
    | ok =>
      rw [Session.bind_ok (Server.outcome_executeOn server c sql k)]
      exact ⟨_, .counted (.accepted hsending hexecute)⟩

theorem firstRow_course (options : Options) (sql : Sql) : Course server [sql] h (firstRow server options sql h).2 := by
  rw [firstRow]
  split
  · exact .silent
  · refine Course.of_visit fun c k hsending => ?_
    cases hexecute : server.execute c sql k with
    | error e =>
      rw [Session.bind_error (Server.executeOn_error hexecute)]
      exact ⟨_, .refused hsending hexecute⟩
    | ok =>
      rw [Session.bind_ok (Server.executeOn_ok hexecute)]
      exact ⟨_, .read (.accepted hsending hexecute) rfl⟩

/-- A statement that was started has been accepted; otherwise its cursor is closed again. -/
theorem start_cases (server : Server) (options : Options) (sql : Sql) (h : History) :
    (∃ c k, start server options sql h = (.ok c, k) ∧ Dialogue server [sql] h c (.sending []) k) ∨
      ∃ e k, start server options sql h = (.error e, k) ∧ Course server [sql] h k := by
  rw [start]
  cases hcursor : server.cursor h with
  | error e =>
    rw [Server.visit_error hcursor]
    exact .inr ⟨_, _, rfl, .unopened hcursor⟩
  | ok =>
    have hopened : Dialogue server [sql] h (h.countP Call.isCursor) (.sending [sql]) _ :=
      .opened hcursor rfl options
    rw [Server.visit_ok hcursor, Session.bind_ok (Server.outcome_executeOn ..)]
    cases hexecute : server.execute (h.countP Call.isCursor) sql
        (h ++ [.cursor] ++ [.on (h.countP Call.isCursor) (.prepare options)]) with
    | error e => exact .inr ⟨_, _, rfl, .closed (.refused hopened hexecute)⟩
    | ok => exact .inl ⟨_, _, rfl, .accepted hopened hexecute⟩

end Run

/-- What a stream has said, as long as it is not done and after. -/
def Stream.Follows (server : Server) (statements : List Sql) (h : History) (s : Stream) (k : History) : Prop :=
  if s.done then Server.Course server statements h k
  else Server.Dialogue server statements h s.cursor (.sending []) k

namespace Stream

variable {server : Server} {statements : List Sql} {h k : History} {s : Stream}

theorem follows_of_leaves (hleaves : Server.Leaves server statements h (.ok (.chunks s), k)) :
    s.Follows server statements h k := by
  obtain ⟨hdone, hdialogue⟩ := hleaves
  rw [Follows, hdone]
  exact hdialogue

theorem Follows.finish (hs : s.Follows server statements h k) :
    Server.Course server statements h (s.finish k).2 := by
  rw [Follows] at hs
  rw [Stream.finish]
  split
  · rename_i hdone
    rw [if_pos hdone] at hs
    exact hs
  · rename_i hdone
    rw [if_neg hdone] at hs
    exact .closed hs

theorem Follows.course (hs : s.Follows server statements h k) (hdone : s.done) :
    Server.Course server statements h k := by
  rw [Follows, if_pos hdone] at hs
  exact hs

theorem finish_done (s : Stream) (k : History) : (s.finish k).1.done := by
  rw [Stream.finish]
  split
  · assumption
  · rfl

theorem finish_follows (hs : s.Follows server statements h k) :
    (s.finish k).1.Follows server statements h (s.finish k).2 := by
  rw [Follows, if_pos (finish_done s k)]
  exact hs.finish

theorem Follows.next (hs : s.Follows server statements h k) :
    (s.next server k).2.1.Follows server statements h (s.next server k).2.2 := by
  rw [Stream.next]
  split
  · exact hs
  · rename_i hdone
    have hread : s.Follows server statements h (k ++ [.on s.cursor (.fetchMany s.chunkSize)]) := by
      rw [Follows, if_neg hdone] at hs ⊢
      exact .read hs rfl
    dsimp only
    split
    · exact finish_follows hread
    · exact finish_follows hread
    · exact hread

theorem Follows.take (n : Nat) (hs : s.Follows server statements h k) :
    (Stream.take server n s k).2.1.Follows server statements h (Stream.take server n s k).2.2 := by
  induction n generalizing s k with
  | zero => exact hs
  | succ n ih => exact ih hs.next

theorem take_of_done (hdone : s.done) (n : Nat) : Stream.take server n s k = (List.replicate n none, s, k) := by
  induction n with
  | zero => rfl
  | succ n ih =>
    have hnext : s.next server k = (none, s, k) := by
      rw [Stream.next, if_pos hdone]
    rw [Stream.take, hnext]
    dsimp only
    rw [ih]
    rfl

/-- Draining a stream is asking for enough batches. -/
theorem exists_take_of_drain (server : Server) (s : Stream) (k : History) :
    ∃ n, (s.drain server k).2 =
      ((Stream.take server n s k).2.1.finish (Stream.take server n s k).2.2).2 := by
  fun_induction Stream.drain server s k with
  | case1 s k t last hnext =>
    refine ⟨1, ?_⟩
    rw [Stream.take, hnext]
    rfl
  | case2 s k e t last hnext =>
    refine ⟨1, ?_⟩
    rw [Stream.take, hnext]
    rfl
  | case3 s k rows t k' hnext rest last hdrain ih =>
    obtain ⟨n, hn⟩ := ih
    rw [hdrain] at hn
    refine ⟨n + 1, ?_⟩
    rw [Stream.take, hnext]
    exact hn

theorem Follows.drain (hs : s.Follows server statements h k) :
    Server.Course server statements h (s.drain server k).2 := by
  obtain ⟨n, hn⟩ := exists_take_of_drain server s k
  rw [hn]
  exact (hs.take n).finish

end Stream

theorem Run.query_leaves (server : Server) (features : Features) (options : Options) (fetch : Fetch) (sql : Sql)
    (h : History) : Server.Leaves server [sql] h (query server features options fetch sql h) := by
  rw [query]
  split
  · by_cases hmulti : fetch.shape = .multi
    · rw [if_pos hmulti]
      exact .silent
    · rw [if_neg hmulti]
      exact .silent
  · rcases start_cases server options sql h with ⟨c, k, hstart, hsent⟩ | ⟨e, k, hstart, hcourse⟩
    · rw [Session.bind_ok hstart]
      cases fetch.shape with
      | cursor => exact hsent
      | rowCount => exact Server.Course.closed (.counted hsent)
      | single =>
        dsimp only
        rw [Server.closing_eq, Session.map_apply]
        exact .map (fun _ => rfl) (.closed (.read hsent rfl)) _
      | noResults => exact Server.Course.closed hsent
      | multi =>
        have hfollows : Stream.Follows server [sql] h { cursor := c, chunkSize := fetch.chunkSize } k := hsent
        dsimp only
        split
        · rw [Session.map_apply]
          exact .map (fun _ => rfl) hfollows.drain _
        · exact ⟨rfl, hsent⟩
    · rw [Session.bind_error hstart]
      exact hcourse

open Server (Course Leaves)

theorem Compiler.execute_leaves (server : Server) (c : Compiler) (fetch : Run.Fetch) (h : History) :
    ∃ sql, Leaves server [sql] h ((c.execute server fetch h).2.1, (c.execute server fetch h).2.2.2) := by
  rw [execute]
  split
  · exact ⟨.empty, .silent⟩
  · dsimp only
    split
    · exact ⟨.empty, .silent⟩
    · exact ⟨_, Run.query_leaves ..⟩

theorem Run.compiled_course {α : Type} {server : Server} {h : History} (report : Report StatementError Sql)
    {run : Sql → Session α} (hrun : ∀ sql, Course server [sql] h (run sql h).2) :
    ∃ sql, Course server [sql] h (compiled report run h).2 := by
  rw [compiled]
  cases report.result with
  | error e =>
    rw [Session.ofExcept_bind_error]
    exact ⟨.empty, .silent⟩
  | ok sql =>
    rw [Session.ofExcept_bind_ok]
    exact ⟨sql, hrun sql⟩

theorem Insert.rows_eq_nil {i : Insert} {backend : Backend} (hnone : i.statements backend = []) :
    i.rows = [] := by
  rw [statements] at hnone
  split at hnone
  · rename_i hrows
    exact List.isEmpty_iff.1 hrows
  · split at hnone
    · cases hnone
    · exact List.map_eq_nil_iff.1 hnone

/-- Every operation keeps to the protocol, with at least one statement unless it inserts nothing. -/
theorem Operation.run_leaves (server : Server) (op : Operation) (h : History) :
    ∃ statements, Leaves server statements h (op.run server h) ∧
      (statements = [] → ∃ ctx i returning, op = .insert ctx i returning ∧ i.rows = []) := by
  cases op with
  | select compiler fetch =>
    obtain ⟨sql, hleaves⟩ := compiler.execute_leaves server fetch h
    exact ⟨[sql], hleaves, nofun⟩
  | update ctx plan values =>
    obtain ⟨sql, hcourse⟩ := Run.compiled_course (plan.update ctx.backend ctx.settings values)
      (Run.counted_course plan.options)
    refine ⟨[sql], ?_, nofun⟩
    rw [run, Session.map_apply]
    exact .map (fun _ => rfl) hcourse _
  | delete ctx plan =>
    obtain ⟨sql, hcourse⟩ := Run.compiled_course (plan.delete ctx.backend ctx.settings)
      (Run.counted_course plan.options)
    refine ⟨[sql], ?_, nofun⟩
    rw [run, Session.map_apply]
    exact .map (fun _ => rfl) hcourse _
  | aggregate ctx plan aggregates =>
    obtain ⟨sql, hcourse⟩ := Run.compiled_course
      (Compiler.compile { context := ctx, plan := plan.aggregate aggregates } { limits := false }).1
      (Run.firstRow_course (plan.aggregate aggregates).options)
    refine ⟨[sql], ?_, nofun⟩
    rw [run]
    dsimp only
    rw [Session.map_apply]
    exact .map (fun _ => rfl) hcourse _
  | insert ctx i returning =>
    refine ⟨i.statements ctx.backend, ?_, fun hnone => ⟨ctx, i, returning, rfl, Insert.rows_eq_nil hnone⟩⟩
    rw [run, Session.map_apply]
    exact .map (fun _ => rfl) (Run.insert_course ctx i returning) _

end PathQuery
