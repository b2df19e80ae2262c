import PathQuery.Proofs.Session.Dialogue
/-!
# Cursors are closed once, and last

Whatever fails and whenever a stream is given up, each cursor that an operation was given is closed exactly
once, and nothing is asked of it afterwards. The one exception is a caller who asks for the cursor itself: it
is handed over open.
-/

namespace PathQuery

/-! ### The calls to one cursor -/

/-- The request of a call, if it goes to this cursor. -/
def Call.requestTo? (c : Nat) : Call → Option Request
  | .cursor => none
  | .on d r => if d = c then some r else none

/-- What is asked of a cursor by some calls, in order. -/
def requestsTo (c : Nat) (calls : List Call) : List Request :=
  calls.filterMap (Call.requestTo? c)

/-- Closed once, behind everything else. -/
def ClosedLast (requests : List Request) : Prop :=
  ∃ earlier, requests = earlier ++ [.close] ∧ .close ∉ earlier

theorem requestsTo_map (c : Nat) (requests : List Request) :
    requestsTo c (.cursor :: requests.map (.on c)) = requests := by
  have hsome : (fun r => Call.requestTo? c (.on c r)) = some := by
    funext r
    exact if_pos rfl
  rw [requestsTo, List.filterMap_cons_none rfl, List.filterMap_map]
  exact (congrArg (List.filterMap · requests) hsome).trans List.filterMap_some

namespace Server

variable (server : Server) (h : History)

/-- A cursor that the server gave in answer to one of the calls made after `h`. -/
def Gave (calls : List Call) (c : Nat) : Prop :=
  ∃ earlier, earlier ++ [.cursor] <+: calls ∧ server.cursor (h ++ earlier) = .ok () ∧
    (h ++ earlier).countP Call.isCursor = c

/-- Every cursor that was given since `h` has been closed once, and last. -/
def Closed (k : History) : Prop :=
  ∃ calls, k = h ++ calls ∧ ∀ c, server.Gave h calls c → ClosedLast (requestsTo c calls)

/-- One cursor was given since `h`, and has not been closed. -/
def HandedOver (k : History) (c : Nat) : Prop :=
  ∃ calls, k = h ++ calls ∧ (∀ d, server.Gave h calls d ↔ d = c) ∧ .close ∉ requestsTo c calls

variable {server : Server} {statements : List Sql} {h k : History} {c d : Nat} {phase : Phase}

/-- The first call is the only one that can give a cursor if all others go to one. -/
theorem gave_iff {requests : List Request} :
    server.Gave h (.cursor :: requests.map (.on c)) d ↔
      server.cursor h = .ok () ∧ h.countP Call.isCursor = d := by
  constructor
  · rintro ⟨earlier, hstart, hcursor, hnumber⟩
    cases earlier with
    | nil =>
      rw [List.append_nil] at hcursor hnumber
      exact ⟨hcursor, hnumber⟩
    | cons call earlier =>
      rw [List.cons_append, List.cons_prefix_cons] at hstart
      have hmem : Call.cursor ∈ requests.map (Call.on c) := hstart.2.subset (by simp)
      simp at hmem
  · rintro ⟨hcursor, hnumber⟩
    refine ⟨[], ?_, ?_, ?_⟩
    · simp
    · rw [List.append_nil]
      exact hcursor
    · rw [List.append_nil]
      exact hnumber

theorem Dialogue.given (hdialogue : Dialogue server statements h c phase k) :
    server.cursor h = .ok () ∧ h.countP Call.isCursor = c := by
  induction hdialogue with
  | opened hcursor hnumber => exact ⟨hcursor, hnumber⟩
  | accepted _ _ ih | refused _ _ ih | counted _ ih | read _ _ ih => exact ih

/-- Nothing in a dialogue closes its cursor, and all of it goes to that cursor. -/
theorem Dialogue.exists_requests (hdialogue : Dialogue server statements h c phase k) :
    ∃ requests : List Request, k = h ++ .cursor :: requests.map (.on c) ∧ .close ∉ requests := by
  have hmore : ∀ {k : History} {r : Request}, r ≠ .close →
      (∃ requests : List Request, k = h ++ .cursor :: requests.map (.on c) ∧ .close ∉ requests) →
      ∃ requests : List Request, k ++ [.on c r] = h ++ .cursor :: requests.map (.on c) ∧ .close ∉ requests := by
    rintro k r hr ⟨requests, rfl, hopen⟩
    refine ⟨requests ++ [r], by simp, ?_⟩
    rw [List.mem_append, List.mem_singleton]
    rintro (hmem | rfl)
    · exact hopen hmem
    · exact hr rfl
  induction hdialogue with
  | opened hcursor hnumber options => exact ⟨[.prepare options], by simp, by simp⟩
  | accepted _ _ ih => exact hmore nofun ih
  | refused _ _ ih => exact hmore nofun ih
  | counted _ ih => exact hmore nofun ih
  | read _ hread ih =>
    refine hmore ?_ ih
    rintro rfl
    cases hread

theorem Dialogue.handedOver (hdialogue : Dialogue server statements h c phase k) :
    server.HandedOver h k c := by
  obtain ⟨hcursor, hnumber⟩ := hdialogue.given
  obtain ⟨requests, rfl, hopen⟩ := hdialogue.exists_requests
  refine ⟨_, rfl, fun d => ?_, ?_⟩
  · rw [gave_iff, hnumber]
    exact ⟨fun hgiven => hgiven.2.symm, fun hsame => ⟨hcursor, hsame.symm⟩⟩
  · rw [requestsTo_map]
    exact hopen

theorem Course.toClosed (hcourse : Course server statements h k) : server.Closed h k := by
  cases hcourse with
  | silent =>
    refine ⟨[], (List.append_nil h).symm, ?_⟩
    rintro c ⟨earlier, hstart, -⟩
    simp at hstart
  | unopened hcursor =>
    refine ⟨[.cursor], rfl, fun c hgave => ?_⟩
    have hgiven : server.Gave h (.cursor :: ([] : List Request).map (.on c)) c := hgave
    rw [gave_iff, hcursor] at hgiven
    cases hgiven.1
  | closed hdialogue =>
    obtain ⟨-, hnumber⟩ := hdialogue.given
    obtain ⟨requests, rfl, hopen⟩ := hdialogue.exists_requests
    have hcalls (c : Nat) : Call.cursor :: requests.map (Call.on c) ++ [.on c .close] =
        .cursor :: (requests ++ [Request.close]).map (Call.on c) := by
      simp
    rw [List.append_assoc, hcalls]
    refine ⟨_, rfl, fun d hgave => ?_⟩
    rw [gave_iff, hnumber] at hgave
    rw [← hgave.2, requestsTo_map]
    exact ⟨requests, rfl, hopen⟩

end Server

/-! ### Streams that have ended -/

namespace Stream

variable {server : Server} {s : Stream} {k : History}

/-- The end of a stream, or a failure, which ends it too. -/
def isLast : Batch → Bool
  | none => true
  | some (.error _) => true
  | some (.ok _) => false

theorem next_last (hlast : isLast (s.next server k).1) : (s.next server k).2.1.done := by
  rw [next] at hlast ⊢
  split
  · assumption
  · rename_i hdone
    rw [if_neg hdone] at hlast
    dsimp only at hlast ⊢
    split
    · exact finish_done ..
    · exact finish_done ..
    · rename_i hfetch
      rw [hfetch] at hlast
      cases hlast

theorem take_done (n : Nat) (hdone : s.done) : (Stream.take server n s k).2.1.done := by
  rw [take_of_done hdone]
  exact hdone

theorem take_last (server : Server) (n : Nat) (s : Stream) (k : History)
    (hlast : ∃ batch ∈ (Stream.take server n s k).1, isLast batch) :
    (Stream.take server n s k).2.1.done := by
  induction n generalizing s k with
  | zero =>
    obtain ⟨batch, hbatch, -⟩ := hlast
    cases hbatch
  | succ n ih =>
    obtain ⟨batch, hbatch, hlast⟩ := hlast
    rcases List.mem_cons.1 hbatch with rfl | hbatch
    · exact take_done n (next_last hlast)
    · exact ih _ _ ⟨batch, hbatch, hlast⟩

end Stream

/-! ### Operations -/

namespace Operation

/-- The caller wants the cursor itself. -/
def asksForCursor : Operation → Prop
  | .select _ fetch => fetch.shape = .cursor
  | .update .. => False
  | .delete .. => False
  | .aggregate .. => False
  | .insert .. => False

theorem map_ne_cursor {α : Type} {f : α → Result} (hf : ∀ a, (f a).isSettled)
    (outcome : Except StatementError α) (c : Nat) : outcome.map f ≠ .ok (.cursor c) := by
  cases outcome with
  | error e => exact nofun
  | ok a =>
    intro hcursor
    have hsettled := hf a
    rw [Except.ok.inj hcursor] at hsettled
    cases hsettled

theorem shape_of_query {server : Server} {features : Features} {options : Options} {fetch : Run.Fetch}
    {sql : Sql} {h : History} {c : Nat}
    (houtcome : (Run.query server features options fetch sql h).1 = .ok (.cursor c)) :
    fetch.shape = .cursor := by
  rw [Run.query] at houtcome
  split at houtcome
  · by_cases hmulti : fetch.shape = .multi
    · rw [if_pos hmulti] at houtcome
      cases houtcome
    · rw [if_neg hmulti] at houtcome
      cases houtcome
  · rcases Run.start_cases server options sql h with ⟨d, m, hstart, -⟩ | ⟨e, m, hstart, -⟩
    · rw [Session.bind_ok hstart] at houtcome
      cases hshape : fetch.shape with
      | cursor => rfl
      | rowCount =>
        rw [hshape] at houtcome
        cases houtcome
      | single =>
        rw [hshape] at houtcome
        dsimp only at houtcome
        rw [Server.closing_eq, Session.map_apply] at houtcome
        exact absurd houtcome (map_ne_cursor (fun _ => rfl) _ c)
      | noResults =>
        rw [hshape] at houtcome
        cases houtcome
      | multi =>
        rw [hshape] at houtcome
        dsimp only at houtcome
        split at houtcome
        · rw [Session.map_apply] at houtcome
          exact absurd houtcome (map_ne_cursor (fun _ => rfl) _ c)
        · cases houtcome
    · rw [Session.bind_error hstart] at houtcome
      cases houtcome

theorem asksForCursor_of_run {server : Server} {op : Operation} {h k : History} {c : Nat}
    (hrun : op.run server h = (.ok (.cursor c), k)) : op.asksForCursor := by
  have houtcome := congrArg Prod.fst hrun
  cases op with
  | select compiler fetch =>
    change (compiler.execute server fetch h).2.1 = .ok (.cursor c) at houtcome
    rw [Compiler.execute] at houtcome
    split at houtcome
    · cases houtcome
    · dsimp only at houtcome
      split at houtcome
      · cases houtcome
      · exact shape_of_query houtcome
  | update | delete | aggregate | insert =>
    rw [run] at houtcome
    dsimp only at houtcome
    rw [Session.map_apply] at houtcome
    exact absurd houtcome (map_ne_cursor (fun _ => rfl) _ c)

/-- **Cursors are closed once, and last.** -/
theorem cursors_closed_once (server : Server) (op : Operation) (h : History) :
    (∀ e k, op.run server h = (.error e, k) → server.Closed h k) ∧
    (∀ result k, op.run server h = (.ok result, k) → result.isSettled → server.Closed h k) ∧
    (∀ s k, op.run server h = (.ok (.chunks s), k) →
      server.Closed h (s.drain server k).2 ∧
      ∀ n batches t last, Stream.take server n s k = (batches, t, last) →
        server.Closed h (t.finish last).2 ∧
        ((∃ batch ∈ batches, Stream.isLast batch) → server.Closed h last)) ∧
    ∀ c k, op.run server h = (.ok (.cursor c), k) → op.asksForCursor ∧ server.HandedOver h k c := by
  obtain ⟨statements, hleaves, -⟩ := op.run_leaves server h
  refine ⟨fun e k hrun => ?_, fun result k hrun hsettled => ?_, fun s k hrun => ?_, fun c k hrun => ?_⟩
  · rw [hrun] at hleaves
    exact Server.Course.toClosed hleaves
  · rw [hrun] at hleaves
    cases result with
    | rows | single | rowCount | noResults => exact Server.Course.toClosed hleaves
    | chunks | cursor => cases hsettled
  · rw [hrun] at hleaves
    have hfollows := Stream.follows_of_leaves hleaves
    refine ⟨hfollows.drain.toClosed, fun n batches t last htake => ?_⟩
    have hafter := hfollows.take n
    rw [htake] at hafter
    refine ⟨hafter.finish.toClosed, fun hlast => ?_⟩
    have hended := Stream.take_last server n s k
    rw [htake] at hended
    exact (hafter.course (hended hlast)).toClosed
  · rw [hrun] at hleaves
    exact ⟨asksForCursor_of_run hrun, Server.Dialogue.handedOver hleaves⟩

end Operation

end PathQuery
