import PathQuery.Proofs.Session.Dialogue
import PathQuery.Session.Script
/-!
# Rows are read only after a statement

Nothing is read from a cursor before a statement was executed on it with success. The one exception is an insert
of no rows that is asked to give something back: no statement is sent, and yet a row or an identifier is read,
whatever the cursor has to offer.
-/

namespace PathQuery

namespace Server

variable (server : Server) (h : History)

/-- Among the calls after `h` there is a statement that the cursor has executed. -/
def Executed (calls : List Call) (c : Nat) : Prop :=
  ∃ earlier sql, earlier ++ [.on c (.execute sql)] <+: calls ∧ server.execute c sql (h ++ earlier) = .ok ()

/-- Each of the calls that reads from a cursor comes after a statement that the cursor has executed. -/
def ReadsFollow (calls : List Call) : Prop :=
  ∀ earlier c r, earlier ++ [.on c r] <+: calls → r.isRead → server.Executed h earlier c

/-- From `h` on, nothing was read before a statement had been executed. -/
def ReadsExecuted (k : History) : Prop :=
  ∃ calls, k = h ++ calls ∧ server.ReadsFollow h calls

variable {server : Server} {statements : List Sql} {h k : History} {c : Nat} {phase : Phase} {calls : List Call}

theorem Executed.concat (hexecuted : server.Executed h calls c) (call : Call) :
    server.Executed h (calls ++ [call]) c := by
  obtain ⟨earlier, sql, hstart, hok⟩ := hexecuted
  exact ⟨earlier, sql, hstart.trans (List.prefix_append calls [call]), hok⟩

theorem readsFollow_nil : server.ReadsFollow h [] := by
  intro earlier c r hstart
  simp at hstart

theorem ReadsFollow.concat {call : Call} (hreads : server.ReadsFollow h calls)
    (hcall : ∀ c r, call = .on c r → r.isRead → server.Executed h calls c) :
    server.ReadsFollow h (calls ++ [call]) := by
  intro earlier c r hstart hread
  rcases List.prefix_concat_iff.1 hstart with hall | hstart
  · obtain ⟨rfl, hlast⟩ := List.append_inj' hall rfl
    exact hcall c r (List.singleton_inj.1 hlast).symm hread
  · exact hreads earlier c r hstart hread

/-- A request that reads nothing may come at any time. -/
theorem ReadsFollow.concat_unread {r : Request} (hreads : server.ReadsFollow h calls) (hr : r.isRead = false) :
    server.ReadsFollow h (calls ++ [.on c r]) := by
  refine hreads.concat fun d s hcall hread => ?_
  cases hcall
  rw [hr] at hread
  cases hread

theorem readsFollow_cursor : server.ReadsFollow h [.cursor] := by
  refine readsFollow_nil.concat fun c r hcall => ?_
  cases hcall

/-- In a dialogue with statements, what is read follows one that was executed. -/
theorem Dialogue.exists_calls (hdialogue : Dialogue server statements h c phase k)
    (hstatements : statements ≠ []) :
    ∃ calls, k = h ++ calls ∧ server.ReadsFollow h calls ∧
      ∀ left, phase = .sending left → left.length < statements.length → server.Executed h calls c := by
  induction hdialogue with
  | opened hcursor hnumber options =>
    refine ⟨[.cursor] ++ [.on c (.prepare options)], List.append_assoc ..,
      readsFollow_cursor.concat_unread rfl, fun left hleft hlength => ?_⟩
    cases hleft
    exact absurd hlength (Nat.lt_irrefl _)
  | @accepted k sql left hsending hexecute ih =>
    obtain ⟨calls, rfl, hreads, -⟩ := ih
    exact ⟨calls ++ [.on c (.execute sql)], List.append_assoc .., hreads.concat_unread rfl,
      fun _ _ _ => ⟨calls, sql, List.prefix_refl _, hexecute⟩⟩
  | @refused k sql left e hsending hexecute ih =>
    obtain ⟨calls, rfl, hreads, -⟩ := ih
    exact ⟨calls ++ [.on c (.execute sql)], List.append_assoc .., hreads.concat_unread rfl, nofun⟩
  | counted _ ih =>
    obtain ⟨calls, rfl, hreads, hexecuted⟩ := ih
    exact ⟨calls ++ [.on c .rowCount], List.append_assoc .., hreads.concat_unread rfl,
      fun left hleft hlength => (hexecuted left hleft hlength).concat _⟩
  | @read k r hsent hread ih =>
    obtain ⟨calls, rfl, hreads, hexecuted⟩ := ih
    -- All statements were accepted, and there was one.
    have hsome : server.Executed h calls c := hexecuted [] rfl (List.length_pos_iff.2 hstatements)
    refine ⟨calls ++ [.on c r], List.append_assoc .., hreads.concat fun d s hcall _ => ?_,
      fun _ _ _ => hsome.concat _⟩
    cases hcall
    exact hsome

theorem Dialogue.readsExecuted (hdialogue : Dialogue server statements h c phase k)
    (hstatements : statements ≠ []) : server.ReadsExecuted h k := by
  obtain ⟨calls, hcalls, hreads, -⟩ := hdialogue.exists_calls hstatements
  exact ⟨calls, hcalls, hreads⟩

theorem Course.readsExecuted (hcourse : Course server statements h k) (hstatements : statements ≠ []) :
    server.ReadsExecuted h k := by
  cases hcourse with
  | silent => exact ⟨[], (List.append_nil h).symm, readsFollow_nil⟩
  | unopened hcursor => exact ⟨[.cursor], rfl, readsFollow_cursor⟩
  | @closed c phase k hdialogue =>
    obtain ⟨calls, rfl, hreads⟩ := hdialogue.readsExecuted hstatements
    exact ⟨calls ++ [.on c .close], List.append_assoc .., hreads.concat_unread rfl⟩

/-- Giving up a result reads no more than it may. -/
theorem Leaves.readsExecuted {result : Result} (hleaves : Leaves server statements h (.ok result, k))
    (hstatements : statements ≠ []) (n : Nat) : server.ReadsExecuted h (result.giveUp server n k) := by
  cases result with
  | rows | single | rowCount | noResults => exact Course.readsExecuted hleaves hstatements
  | cursor d => exact Dialogue.readsExecuted hleaves hstatements
  | chunks s =>
    exact ((Stream.follows_of_leaves hleaves).take n).finish.readsExecuted hstatements

/-- A read behind nothing but the options of its cursor. -/
theorem not_readsExecuted {options : Options} {r : Request} (hread : r.isRead) (rest : List Call) :
    ¬ server.ReadsExecuted h (h ++ ([.cursor, .on c (.prepare options)] ++ [.on c r] ++ rest)) := by
  rintro ⟨calls, hcalls, hreads⟩
  obtain rfl := List.append_cancel_left hcalls
  obtain ⟨earlier, sql, hstart, -⟩ := hreads _ c r (List.prefix_append _ rest) hread
  have hmem : Call.on c (.execute sql) ∈ [Call.cursor, .on c (.prepare options)] := hstart.subset (by simp)
  simp at hmem

end Server

/-! ### Inserts of nothing -/

namespace Run

variable {server : Server} {ctx : Context} {i : Insert} {returning : List String} {h : History}

/-- An insert of no rows sends nothing. -/
theorem insert_nothing (hrows : i.rows = []) (hcheck : checkReturning ctx i returning = .ok ())
    (hcursor : server.cursor h = .ok ()) :
    insert server ctx i returning h =
      Server.closing (h.countP Call.isCursor) (readBack server ctx i returning (h.countP Call.isCursor))
        (h ++ [.cursor] ++ [.on (h.countP Call.isCursor) (.prepare i.options)]) := by
  have hnone : i.statements ctx.backend = [] := by
    rw [Insert.statements, hrows]
    rfl
  rw [insert, hcheck, Session.ofExcept_bind_ok, Server.visit_ok hcursor, hnone]
  rfl

/-- What is read back of no rows is a row or an identifier. -/
theorem readBack_nothing (server : Server) (ctx : Context) (hrows : i.rows = []) (hreturning : returning ≠ [])
    (c : Nat) (k : History) :
    ∃ r : Request, r.isRead ∧ (readBack server ctx i returning c k).2 = k ++ [.on c r] := by
  have hsome : ¬ returning.isEmpty := by
    rw [List.isEmpty_iff]
    exact hreturning
  have hfew : ¬ returnsRows ctx i := by
    rw [returnsRows, hrows]
    exact Bool.false_ne_true
  rw [readBack, if_neg hsome, if_neg hfew]
  split
  · exact ⟨.fetchOne, rfl, Session.bind_pure_history ..⟩
  · exact ⟨.lastInsertId, rfl, Session.bind_pure_history ..⟩

theorem insert_nothing_reads (hrows : i.rows = []) (hreturning : returning ≠ [])
    (hcheck : checkReturning ctx i returning = .ok ()) (hcursor : server.cursor h = .ok ()) :
    ¬ server.ReadsExecuted h (insert server ctx i returning h).2 := by
  obtain ⟨r, hread, hhistory⟩ := readBack_nothing server ctx hrows hreturning (h.countP Call.isCursor)
    (h ++ [.cursor] ++ [.on (h.countP Call.isCursor) (.prepare i.options)])
  rw [insert_nothing hrows hcheck hcursor, Server.closing_eq, hhistory]
  simpa using Server.not_readsExecuted hread [.on _ .close]

/-- Unless it reads, an insert of nothing says no more than a query that is never sent. -/
theorem insert_nothing_course (hrows : i.rows = [])
    (hquiet : ¬ (returning ≠ [] ∧ checkReturning ctx i returning = .ok () ∧ server.cursor h = .ok ()))
    (sql : Sql) : Server.Course server [sql] h (insert server ctx i returning h).2 := by
  cases hcheck : checkReturning ctx i returning with
  | error e =>
    rw [insert, hcheck, Session.ofExcept_bind_error]
    exact .silent
  | ok =>
    cases hcursor : server.cursor h with
    | error e =>
      rw [insert, hcheck, Session.ofExcept_bind_ok, Server.visit_error hcursor]
      exact .unopened hcursor
    | ok =>
      have hreturning : returning = [] :=
        Classical.byContradiction fun hsome => hquiet ⟨hsome, hcheck, hcursor⟩
      rw [insert_nothing hrows hcheck hcursor, hreturning]
      exact .closed (.opened hcursor rfl i.options)

end Run

namespace Operation

/-- An insert of no rows that is asked to give something back, may be, and is given a cursor. -/
def ReadsUnsent (server : Server) (h : History) : Operation → Prop
  | .insert ctx i returning =>
    i.rows = [] ∧ returning ≠ [] ∧ Run.checkReturning ctx i returning = .ok () ∧ server.cursor h = .ok ()
  | .select .. => False
  | .update .. => False
  | .delete .. => False
  | .aggregate .. => False

/-- An insert leaves nothing behind that could be given up. -/
theorem history_insert (server : Server) (n : Nat) (ctx : Context) (i : Insert) (returning : List String)
    (h : History) :
    (Operation.insert ctx i returning).history server n h = (Run.insert server ctx i returning h).2 := by
  rw [history, run, Session.map_apply]
  cases (Run.insert server ctx i returning h).1 with
  | error e => rfl
  | ok rows => rfl

theorem exists_leaves {server : Server} {op : Operation} {h : History} (hunsent : ¬ op.ReadsUnsent server h) :
    ∃ statements, statements ≠ [] ∧ Server.Leaves server statements h (op.run server h) := by
  obtain ⟨statements, hleaves, hnone⟩ := op.run_leaves server h
  by_cases hstatements : statements = []
  · obtain ⟨ctx, i, returning, rfl, hrows⟩ := hnone hstatements
    have hcourse := Run.insert_nothing_course hrows (fun hreads => hunsent ⟨hrows, hreads⟩) .empty
    refine ⟨[.empty], nofun, ?_⟩
    rw [run, Session.map_apply]
    exact .map (fun _ => rfl) hcourse _
  · exact ⟨statements, hstatements, hleaves⟩

/-- **Rows are read only after a statement**, but for an insert of nothing. -/
theorem reads_executed_iff (server : Server) (op : Operation) (h : History) (n : Nat) :
    server.ReadsExecuted h (op.history server n h) ↔ ¬ op.ReadsUnsent server h := by
  constructor
  · intro hreads hunsent
    cases op with
    | select | update | delete | aggregate => exact hunsent
    | insert ctx i returning =>
      obtain ⟨hrows, hreturning, hcheck, hcursor⟩ := hunsent
      rw [history_insert] at hreads
      exact Run.insert_nothing_reads hrows hreturning hcheck hcursor hreads
  · intro hunsent
    obtain ⟨statements, hstatements, hleaves⟩ := exists_leaves hunsent
    rw [history]
    cases hrun : op.run server h with
    | mk outcome k =>
      rw [hrun] at hleaves
      cases outcome with
      | error e => exact Server.Course.readsExecuted hleaves hstatements
      | ok result => exact hleaves.readsExecuted hstatements n

/-- Inserts no contact and asks for its identifier. -/
def noContacts : Operation :=
  .insert (.of .soql {}) { table := "Contact", fields := ["LastName"], rows := [] } ["Id"]

/-- No contact is inserted, and the identifier of one is read and given back. -/
theorem noContacts_read_unsent :
    let server := Script.server { rows := [[.text "003000000000001"]] }
    (noContacts.run server []).1 = .ok (.rows [[.text "003000000000001"]]) ∧
      ¬ server.ReadsExecuted [] (noContacts.history server 0 []) := by
  refine ⟨rfl, ?_⟩
  rw [noContacts, history_insert]
  exact Run.insert_nothing_reads rfl nofun rfl rfl

end Operation

end PathQuery
