import PathQuery.Proofs.Session.Sending
import PathQuery.Session.Script
/-!
# Streams lose nothing and repeat nothing

What a cursor hands out is given as batches that follow one another: `Server.Serves` says which batch each fetch
gives, and that the fetch behind the last batch gives no row or fails. Every cursor of every server serves some
batches, because it does not hand out rows without end.

A stream yields these batches and then, once, the failure if there is one. After that it yields nothing and says
nothing any more. Draining it gives the rows of all batches, or the failure alone. A query whose rows are wanted at
once is the same query with its stream drained.
-/

namespace PathQuery

/-- So many fetches of `n` rows each. -/
def fetches (c n count : Nat) : List Call :=
  List.replicate count (.on c (.fetchMany n))

theorem append_fetches_succ (h : History) (c n count : Nat) :
    h ++ fetches c n (count + 1) = h ++ [.on c (.fetchMany n)] ++ fetches c n count := by
  rw [fetches, List.replicate_succ, List.append_cons, fetches]

/-- All rows of some batches, or the failure that came behind them. -/
def delivered (batches : List (List Row)) : Option String → Except StatementError (List Row)
  | none => .ok batches.flatten
  | some e => .error (.database e)

theorem delivered_cons (batch : List Row) (batches : List (List Row)) (failure : Option String) :
    delivered (batch :: batches) failure = (delivered batches failure).map (batch ++ ·) := by
  cases failure with
  | none => rfl
  | some e => rfl

/-! ### What a cursor serves -/

namespace Server

/-- From `h` on, fetches of `n` rows give these batches. The fetch behind the last of them gives no row, or fails. -/
structure Serves (server : Server) (c n : Nat) (h : History) (batches : List (List Row))
    (failure : Option String) : Prop where
  nonempty : ∀ batch ∈ batches, batch ≠ []
  answer : ∀ i batch, batches[i]? = some batch → server.fetchMany c n (h ++ fetches c n i) = .ok batch
  last : server.fetchMany c n (h ++ fetches c n batches.length) = failure.elim (.ok []) .error

/-- From `h` on, each fetch before `stop` gives the next `n` of the rows, or as many as there are. -/
def Pages (server : Server) (c n : Nat) (h : History) (rows : List Row) (stop : Nat) : Prop :=
  ∀ i < stop, server.fetchMany c n (h ++ fetches c n i) = .ok ((rows.drop (i * n)).take n)

variable {server : Server} {c n : Nat} {h : History} {failure : Option String}

theorem serves_nil : server.Serves c n h [] failure ↔ server.fetchMany c n h = failure.elim (.ok []) .error := by
  constructor
  · intro hserves
    have hlast := hserves.last
    rwa [List.length_nil, fetches, List.replicate_zero, List.append_nil] at hlast
  · intro hlast
    refine ⟨nofun, nofun, ?_⟩
    rwa [List.length_nil, fetches, List.replicate_zero, List.append_nil]

theorem serves_cons {batch : List Row} {batches : List (List Row)} :
    server.Serves c n h (batch :: batches) failure ↔
      batch ≠ [] ∧ server.fetchMany c n h = .ok batch ∧
        server.Serves c n (h ++ [.on c (.fetchMany n)]) batches failure := by
  constructor
  · intro hserves
    refine ⟨hserves.nonempty batch List.mem_cons_self, ?_, ?_, fun i next hnext => ?_, ?_⟩
    · have hfirst := hserves.answer 0 batch rfl
      rwa [fetches, List.replicate_zero, List.append_nil] at hfirst
    · exact fun next hnext => hserves.nonempty next (List.mem_cons_of_mem batch hnext)
    · rw [← append_fetches_succ]
      exact hserves.answer (i + 1) next hnext
    · rw [← append_fetches_succ]
      exact hserves.last
  · rintro ⟨hbatch, hfirst, hserves⟩
    refine ⟨?_, fun i next hnext => ?_, ?_⟩
    · intro next hnext
      rcases List.mem_cons.1 hnext with rfl | hnext
      · exact hbatch
      · exact hserves.nonempty next hnext
    · cases i with
      | zero =>
        cases hnext
        rwa [fetches, List.replicate_zero, List.append_nil]
      | succ i =>
        rw [append_fetches_succ]
        exact hserves.answer i next hnext
    · rw [List.length_cons, append_fetches_succ]
      exact hserves.last

/-- Every cursor serves some batches: with each of them there are fewer rows left. -/
theorem exists_serves (server : Server) (c n : Nat) (h : History) :
    ∃ batches failure, server.Serves c n h batches failure := by
  induction hleft : server.rowsLeft c h using Nat.strongRecOn generalizing h with
  | ind left ih =>
    cases hfetch : server.fetchMany c n h with
    | error e => exact ⟨[], some e, serves_nil.2 hfetch⟩
    | ok batch =>
      cases batch with
      | nil => exact ⟨[], none, serves_nil.2 hfetch⟩
      | cons row rows =>
        have hfewer := server.fetchMany_lt c n h row rows hfetch
        obtain ⟨batches, failure, hserves⟩ := ih _ (hleft ▸ hfewer) _ rfl
        exact ⟨(row :: rows) :: batches, failure, serves_cons.2 ⟨nofun, hfetch, hserves⟩⟩

end Server

/-! ### Streams -/

namespace Stream

variable {server : Server} {c n : Nat} {h : History} {batches : List (List Row)} {failure : Option String}

/-- A fetch that gives rows leaves the stream open. -/
theorem next_batch {batch : List Row} (hbatch : batch ≠ []) (hfetch : server.fetchMany c n h = .ok batch) :
    next server { cursor := c, chunkSize := n } h =
      (some (.ok batch), { cursor := c, chunkSize := n }, h ++ [.on c (.fetchMany n)]) := by
  cases batch with
  | nil => exact absurd rfl hbatch
  | cons row rows => simp [next, hfetch]

/-- A fetch that gives none, or fails, closes it. -/
theorem next_end (hfetch : server.fetchMany c n h = failure.elim (.ok []) .error) :
    next server { cursor := c, chunkSize := n } h =
      (failure.map fun e => .error (.database e), { cursor := c, chunkSize := n, done := true },
        h ++ [.on c (.fetchMany n)] ++ [.on c .close]) := by
  cases failure with
  | none => simp [next, finish, hfetch]
  | some e => simp [next, finish, hfetch]

/-- As long as there are batches, a stream yields them in order. -/
theorem take_front (hserves : server.Serves c n h batches failure) {m : Nat} (hm : m ≤ batches.length) :
    Stream.take server m { cursor := c, chunkSize := n } h =
      ((batches.take m).map fun batch => some (.ok batch), { cursor := c, chunkSize := n },
        h ++ fetches c n m) := by
  induction batches generalizing m h with
  | nil =>
    rw [Nat.le_zero.1 hm]
    simp [Stream.take, fetches]
  | cons batch batches ih =>
    cases m with
    | zero => simp [Stream.take, fetches]
    | succ m =>
      obtain ⟨hbatch, hfetch, hrest⟩ := Server.serves_cons.1 hserves
      rw [Stream.take, next_batch hbatch hfetch]
      dsimp only
      rw [ih hrest (Nat.le_of_succ_le_succ hm), append_fetches_succ]
      rfl

/-- Behind the batches a stream yields the failure, if there is one, and then nothing any more. -/
theorem take_all (hserves : server.Serves c n h batches failure) (m : Nat) :
    Stream.take server (batches.length + 1 + m) { cursor := c, chunkSize := n } h =
      (batches.map (fun batch => some (.ok batch)) ++
          failure.map (fun e => .error (.database e)) :: List.replicate m none,
        { cursor := c, chunkSize := n, done := true },
        h ++ fetches c n (batches.length + 1) ++ [.on c .close]) := by
  induction batches generalizing h with
  | nil =>
    rw [List.length_nil, Nat.zero_add, Nat.add_comm, Stream.take, next_end (Server.serves_nil.1 hserves)]
    dsimp only
    rw [take_of_done rfl]
    rfl
  | cons batch batches ih =>
    obtain ⟨hbatch, hfetch, hrest⟩ := Server.serves_cons.1 hserves
    rw [List.length_cons, Nat.add_right_comm _ 1 m, Stream.take, next_batch hbatch hfetch]
    dsimp only
    rw [ih hrest, append_fetches_succ _ _ _ (batches.length + 1)]
    rfl

theorem drain_of_batch {s t : Stream} {k : History} {batch : List Row}
    (hnext : s.next server h = (some (.ok batch), t, k)) :
    s.drain server h = ((t.drain server k).1.map (batch ++ ·), (t.drain server k).2) := by
  rw [drain]
  split
  · rename_i hother
    rw [hnext] at hother
    cases hother
  · rename_i hother
    rw [hnext] at hother
    cases hother
  · rename_i hother
    rw [hnext] at hother
    cases hother
    rfl

theorem drain_of_last {s t : Stream} {k : History} (hnext : s.next server h =
      (failure.map fun e => .error (.database e), t, k)) (hdone : t.done) :
    s.drain server h = (delivered [] failure, k) := by
  have hfinish : (t.finish k).2 = k := by
    rw [finish, if_pos hdone]
  rw [drain]
  split
  · rename_i hother
    rw [hnext] at hother
    cases failure with
    | none =>
      cases hother
      rw [hfinish]
      rfl
    | some e => cases hother
  · rename_i hother
    rw [hnext] at hother
    cases failure with
    | none => cases hother
    | some e =>
      cases hother
      rw [hfinish]
      rfl
  · rename_i hother
    rw [hnext] at hother
    cases failure with
    | none => cases hother
    | some e => cases hother

theorem drain_serves (hserves : server.Serves c n h batches failure) :
    drain server { cursor := c, chunkSize := n } h =
      (delivered batches failure, h ++ fetches c n (batches.length + 1) ++ [.on c .close]) := by
  induction batches generalizing h with
  | nil => exact drain_of_last (next_end (Server.serves_nil.1 hserves)) rfl
  | cons batch batches ih =>
    obtain ⟨hbatch, hfetch, hrest⟩ := Server.serves_cons.1 hserves
    rw [drain_of_batch (next_batch hbatch hfetch), ih hrest, delivered_cons, List.length_cons,
      append_fetches_succ _ _ _ (batches.length + 1)]

end Stream

/-! ### Pages -/

/-- The rows, `n` to a page. -/
def pages (n : Nat) (rows : List Row) : List (List Row) :=
  (List.range ((rows.length + n - 1) / n)).map fun i => (rows.drop (i * n)).take n

theorem flatten_pages_take (n : Nat) (rows : List Row) (count : Nat) :
    ((List.range count).map fun i => (rows.drop (i * n)).take n).flatten = rows.take (count * n) := by
  induction count with
  | zero => simp
  | succ count ih =>
    rw [List.range_succ, List.map_append, List.flatten_append, ih, Nat.succ_mul, List.take_add]
    simp

theorem length_pages (n : Nat) (rows : List Row) : (pages n rows).length = (rows.length + n - 1) / n := by
  rw [pages, List.length_map, List.length_range]

section Paging

variable {n : Nat} (hn : 0 < n) (rows : List Row)

include hn

theorem lt_length_pages_iff {i : Nat} : i < (pages n rows).length ↔ i * n < rows.length := by
  rw [length_pages, Nat.lt_div_iff_mul_lt hn]
  omega

theorem flatten_pages : (pages n rows).flatten = rows := by
  have hall : ¬ (pages n rows).length * n < rows.length := by
    rw [← lt_length_pages_iff hn]
    exact Nat.lt_irrefl _
  rw [pages, flatten_pages_take, ← length_pages]
  exact List.take_of_length_le (Nat.not_lt.1 hall)

/-- A cursor that hands out pages serves as many of them as there are, unless a fetch fails before. -/
theorem Server.Pages.serves_take {server : Server} {c stop count : Nat} {h : History} {failure : Option String}
    (hpages : server.Pages c n h rows stop) (hcount : count ≤ (pages n rows).length) (hstop : count ≤ stop)
    (hlast : server.fetchMany c n (h ++ fetches c n count) = failure.elim (.ok []) .error) :
    server.Serves c n h ((pages n rows).take count) failure := by
  have hpage : ∀ i batch, ((pages n rows).take count)[i]? = some batch →
      i < count ∧ batch = (rows.drop (i * n)).take n := by
    intro i batch hbatch
    rw [List.getElem?_take] at hbatch
    split at hbatch
    · rename_i hi
      have hrange := Nat.lt_of_lt_of_le hi hcount
      rw [length_pages] at hrange
      rw [pages, List.getElem?_map, List.getElem?_range hrange] at hbatch
      exact ⟨hi, (Option.some.inj hbatch).symm⟩
    · cases hbatch
  refine ⟨fun batch hbatch hempty => ?_, fun i batch hbatch => ?_, ?_⟩
  · obtain ⟨i, hi⟩ := List.mem_iff_getElem?.1 hbatch
    obtain ⟨hlt, rfl⟩ := hpage i batch hi
    have hleft := (lt_length_pages_iff hn rows).1 (Nat.lt_of_lt_of_le hlt hcount)
    rw [List.take_eq_nil_iff, List.drop_eq_nil_iff] at hempty
    omega
  · obtain ⟨hlt, rfl⟩ := hpage i batch hbatch
    exact hpages i (Nat.lt_of_lt_of_le hlt hstop)
  · rw [List.length_take_of_le hcount]
    exact hlast

theorem Server.Pages.serves {server : Server} {c stop : Nat} {h : History} (hpages : server.Pages c n h rows stop) :
    ((pages n rows).length < stop → server.Serves c n h (pages n rows) none) ∧
      ∀ e, stop ≤ (pages n rows).length → server.fetchMany c n (h ++ fetches c n stop) = .error e →
        server.Serves c n h ((pages n rows).take stop) (some e) := by
  refine ⟨fun hstop => ?_, fun e hstop herror => hpages.serves_take hn rows hstop (Nat.le_refl stop) herror⟩
  have hend : rows.length ≤ (pages n rows).length * n := by
    rw [← Nat.not_lt, ← lt_length_pages_iff hn]
    exact Nat.lt_irrefl _
  have hserves : server.Serves c n h ((pages n rows).take (pages n rows).length) none := by
    refine hpages.serves_take hn rows (Nat.le_refl _) (Nat.le_of_lt hstop) ?_
    rw [hpages _ hstop, List.drop_eq_nil_of_le hend, List.take_nil]
    rfl
  rwa [List.take_length] at hserves

end Paging

namespace Script

variable {s : Script} {c n : Nat} {h : History}

theorem position_concat (hworks : s.failure? .fetchMany h = none) :
    s.position c (h ++ [.on c (.fetchMany n)]) = min (s.position c h + n) s.rows.length := by
  simp [position, positionAfter, hworks]

theorem position_fetches {count : Nat} (hstart : s.position c h = 0)
    (hworks : ∀ i < count, s.failure? .fetchMany (h ++ fetches c n i) = none) :
    s.position c (h ++ fetches c n count) = min (count * n) s.rows.length := by
  induction count with
  | zero => simp [fetches, hstart]
  | succ count ih =>
    have hlast : h ++ fetches c n (count + 1) = h ++ fetches c n count ++ [.on c (.fetchMany n)] := by
      rw [fetches, List.replicate_succ', ← List.append_assoc, fetches]
    have hworking := hworks count (Nat.lt_succ_self count)
    rw [hlast, position_concat hworking, ih fun i hi => hworks i (Nat.lt_succ_of_lt hi), Nat.succ_mul]
    omega

/-- A server that follows a script hands out pages to every cursor that has given out nothing yet. -/
theorem server_pages {stop : Nat} (hstart : s.position c h = 0)
    (hworks : ∀ i < stop, s.failure? .fetchMany (h ++ fetches c n i) = none) : s.server.Pages c n h s.rows stop := by
  intro i hi
  have hposition := position_fetches hstart fun k hk => hworks k (Nat.lt_trans hk hi)
  change s.fetchMany c n (h ++ fetches c n i) = _
  rw [fetchMany, unlessFailing, hworks i hi, hposition]
  dsimp only
  rcases Nat.le_total (i * n) s.rows.length with hwithin | hbeyond
  · rw [Nat.min_eq_left hwithin]
  · rw [Nat.min_eq_right hbeyond, List.drop_length, List.drop_eq_nil_of_le hbeyond]

end Script

/-! ### Queries -/

/-- The compiler for a backend that can or cannot read rows in batches, and is the same otherwise. -/
def Compiler.readingChunks (c : Compiler) (reads : Bool) : Compiler :=
  { c with context.backend.features.chunkedReads := reads }

theorem Select.columns_congr {backend other : Backend} (hquote : backend.quoteName = other.quoteName)
    (naming : Naming) (names : Bool) (index : Nat) (cols : List SelectedColumn) :
    columns backend naming names index cols = columns other naming names index cols := by
  have hcolumn : ∀ index label text,
      column backend names index label text = column other names index label text := by
    intro index label text
    cases label with
    | none => rfl
    | some label => rw [column, column, hquote]
  induction cols generalizing index with
  | nil => rfl
  | cons col rest ih => simp only [columns, hcolumn, ih]

/-- Whether rows are read in batches has no part in a query's text. -/
theorem Compiler.compile_readingChunks (c : Compiler) (reads : Bool) (form : SelectForm) :
    ((c.readingChunks reads).compile form).1 = (c.compile form).1 := by
  have hassemble : ∀ tree, Select.assemble (c.readingChunks reads).context c.plan c.plan.columns tree form =
      Select.assemble c.context c.plan c.plan.columns tree form := by
    intro tree
    have hselect : ∀ naming,
        Select.selectClause (c.readingChunks reads).context naming form.columnNames c.plan.columns =
          Select.selectClause c.context naming form.columnNames c.plan.columns := by
      intro naming
      rw [Select.selectClause, Select.selectClause, Select.columns_congr]
      rfl
    rw [Select.assemble, Select.assemble]
    simp only [hselect]
    rfl
  have hkept : (c.readingChunks reads).plan = c.plan ∧ (c.readingChunks reads).memo = c.memo := ⟨rfl, rfl⟩
  rw [compile_recalled, compile_recalled, hkept.1, hkept.2]
  simp only [hassemble]

/-- A query whose rows are wanted at once drains the stream of the same query. -/
theorem Run.query_drained (server : Server) (options : Options) (n : Nat) (sql : Sql) {whole inBatches : Features}
    {chunked : Bool} (hwhole : whole.chunkedReads = false) (hchunks : inBatches.chunkedReads || chunked) :
    query server whole options { chunkSize := n } sql =
      query server inBatches options { chunked, chunkSize := n } sql >>= fun result =>
        Result.rows <$> result.intoRows server := by
  funext h
  by_cases hempty : sql.isEmpty
  · rw [query, query, if_pos hempty, if_pos hempty]
    rfl
  · cases hstart : start server options sql h with
    | mk outcome k =>
      cases outcome with
      | error e =>
        have hfailed : query server inBatches options { chunked, chunkSize := n } sql h = (.error e, k) := by
          rw [query, if_neg hempty, Session.bind_error hstart]
        rw [Session.bind_error hfailed, query, if_neg hempty, Session.bind_error hstart]
      | ok c =>
        have hstreamed : query server inBatches options { chunked, chunkSize := n } sql h =
            (.ok (.chunks { cursor := c, chunkSize := n }), k) := by
          rw [query, if_neg hempty, Session.bind_ok hstart]
          dsimp only
          rw [← Bool.not_or, Bool.or_comm, hchunks]
          rfl
        rw [Session.bind_ok hstreamed, query, if_neg hempty, Session.bind_ok hstart]
        dsimp only
        rw [hwhole]
        rfl

/-- The same of a query that is compiled first. -/
theorem Operation.select_drained (server : Server) (c : Compiler) (n : Nat) {reads chunked : Bool}
    (hchunks : reads || chunked) :
    (select (c.readingChunks false) { chunkSize := n }).run server =
      (select (c.readingChunks reads) { chunked, chunkSize := n }).run server >>= fun result =>
        Result.rows <$> result.intoRows server := by
  funext h
  have hrun : ∀ reads chunked, (select (c.readingChunks reads) { chunked, chunkSize := n }).run server h =
      Run.compiled (c.compile {}).1 (Run.query server (c.readingChunks reads).context.backend.features
        c.plan.options { chunked, chunkSize := n }) h := by
    intro reads chunked
    have hallowed : ¬ (({ chunked, chunkSize := n } : Run.Fetch).shape = .rowCount ∧
        !(c.readingChunks reads).context.capabilities.rowCount) := by
      rintro ⟨hshape, -⟩
      cases hshape
    rw [← c.compile_readingChunks reads]
    exact (c.readingChunks reads).execute_compiled hallowed server h
  rw [hrun, Session.bind_congr (hrun reads chunked)]
  cases hreport : (c.compile {}).1.result with
  | error e => rw [Run.compiled_error hreport, Session.bind_error (Run.compiled_error hreport _ h)]
  | ok sql =>
    rw [Run.compiled_ok hreport, Session.bind_congr (Run.compiled_ok hreport _ h)]
    exact congrFun (Run.query_drained server c.plan.options n sql rfl hchunks) h

/-- Settings that were validated fetch some rows at a time. -/
theorem Settings.chunkSize_pos {settings valid : Settings} (h : settings.validate = .ok valid) :
    0 < valid.chunkSize := by
  rw [validate] at h
  split at h
  · rename_i hproblems
    cases h
    by_contra hzero
    rw [problems, if_neg fun hsize => hzero hsize.1] at hproblems
    cases hproblems
  · cases h

/-- **Streams lose nothing and repeat nothing.** Every cursor serves some batches. A stream that is asked again and
again yields them in order, then the failure if there is one, then nothing; once it has closed the cursor it says
nothing any more. Drained, it gives all rows, or the failure. A cursor that hands out the next `n` rows at each fetch
serves its rows in pages, up to a fetch that fails. A query whose rows are wanted at once is the same query with its
stream drained. -/
theorem Stream.nothing_lost (server : Server) (c n : Nat) (h : History) :
    (∃ batches failure, server.Serves c n h batches failure) ∧
    (∀ batches failure, server.Serves c n h batches failure →
      let stream : Stream := { cursor := c, chunkSize := n }
      let closed : History := h ++ fetches c n (batches.length + 1) ++ [.on c .close]
      (∀ m ≤ batches.length, Stream.take server m stream h =
        ((batches.take m).map fun batch => some (.ok batch), stream, h ++ fetches c n m)) ∧
      (∀ m, Stream.take server (batches.length + 1 + m) stream h =
        (batches.map (fun batch => some (.ok batch)) ++
            failure.map (fun e => .error (.database e)) :: List.replicate m none,
          { stream with done := true }, closed)) ∧
      (Result.chunks stream).intoRows server h = (delivered batches failure, closed)) ∧
    (0 < n → ∀ rows stop, server.Pages c n h rows stop →
      (pages n rows).flatten = rows ∧
      ((pages n rows).length < stop → server.Serves c n h (pages n rows) none) ∧
      ∀ e, stop ≤ (pages n rows).length → server.fetchMany c n (h ++ fetches c n stop) = .error e →
        server.Serves c n h ((pages n rows).take stop) (some e)) ∧
    (∀ settings valid : Settings, settings.validate = .ok valid → 0 < valid.chunkSize) ∧
    ∀ (compiler : Compiler) (reads chunked : Bool), reads || chunked →
      (Operation.select (compiler.readingChunks false) { chunkSize := n }).run server =
        (Operation.select (compiler.readingChunks reads) { chunked, chunkSize := n }).run server >>= fun result =>
          Result.rows <$> result.intoRows server := by
  refine ⟨server.exists_serves c n h, fun batches failure hserves => ?_, fun hn rows stop hpages => ?_,
    fun settings valid hvalid => Settings.chunkSize_pos hvalid,
    fun compiler reads chunked hchunks => Operation.select_drained server compiler n hchunks⟩
  · exact ⟨fun m hm => take_front hserves hm, take_all hserves, drain_serves hserves⟩
  · exact ⟨flatten_pages hn rows, hpages.serves hn rows⟩

/-- Five contacts, on a server whose second fetch fails. -/
def fiveContacts : Script where
  rows := ["Ada", "Ben", "Cy", "Dee", "Eve"].map fun name => [.text name]
  failures := [(.fetchMany, 1, "timeout")]

/-- Two of the contacts are given out, then the failure, then nothing any more. -/
theorem fiveContacts_streamed :
    fiveContacts.server.Pages 0 2 [] fiveContacts.rows 1 ∧
      (Stream.take fiveContacts.server 4 { cursor := 0, chunkSize := 2 } []).1 =
        [some (.ok [[.text "Ada"], [.text "Ben"]]), some (.error (.database "timeout")), none, none] := by
  have hpages : fiveContacts.server.Pages 0 2 [] fiveContacts.rows 1 := by
    refine Script.server_pages rfl fun i hi => ?_
    rw [Nat.lt_one_iff.1 hi]
    rfl
  obtain ⟨-, hstreams, hpaged, -⟩ := Stream.nothing_lost fiveContacts.server 0 2 []
  have hserves := (hpaged (by decide) fiveContacts.rows 1 hpages).2.2 "timeout" (by decide) rfl
  exact ⟨hpages, congrArg Prod.fst ((hstreams _ _ hserves).2.1 2)⟩

end PathQuery
