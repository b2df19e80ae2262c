import Mathlib.Data.List.Dedup
import Mathlib.Data.List.Induction
import PathQuery.Proofs.Relation.Recall
/-!
# The books of a memo

A memo counts its calls and keeps what they have found. A call does one of three things, and `resolve_cases` is
all that is used of it: it is answered with what is kept and counts as a hit, or it fails and counts as a miss, or
it finds a tree, counts as a miss, and has the tree kept under its key.

From this follows what the books say after any number of calls. They are compared with the `transcript`, the list
of all calls with their answers: what is kept under a key is the answer of the first call with that key that was
not a failure, and the counts add up. The counters are words, so each is the number of its calls modulo the size
of a word, and that number itself as long as there are not too many calls.
-/

namespace PathQuery

namespace Memo

/-! ### One call -/

theorem resolve_kept {m : Memo} {joins : List Join} {t : Tree} (h : m.entries.lookup (key joins) = some t) :
    m.resolve joins = (.ok t, { m with hits := m.hits + 1 }) := by
  rcases m.resolve_cases joins with ⟨kept, hkept, hcall⟩ | ⟨hnone, -⟩ | ⟨hnone, -⟩
  · cases h.symm.trans hkept
    exact hcall
  · cases h.symm.trans hnone
  · cases h.symm.trans hnone

theorem hits_resolve_iff (m : Memo) (joins : List Join) :
    (m.resolve joins).2.hits = m.hits + 1 ↔ ∃ t, m.entries.lookup (key joins) = some t := by
  have hmore : m.hits ≠ m.hits + 1 := by simp
  rcases m.resolve_cases joins with ⟨t, hkept, hcall⟩ | ⟨hnone, e, -, hcall⟩ | ⟨hnone, t, -, hcall⟩
  · rw [hcall, hkept]
    exact iff_of_true rfl ⟨t, rfl⟩
  · rw [hcall, hnone]
    exact iff_of_false hmore (by simp)
  · rw [hcall, hnone]
    exact iff_of_false hmore (by simp)

theorem resolve_error {m : Memo} {joins : List Join} {e : RelationError} (h : (m.resolve joins).1 = .error e) :
    Tree.resolve joins = .error e ∧ (m.resolve joins).2 = { m with misses := m.misses + 1 } := by
  rcases m.resolve_cases joins with ⟨t, -, hcall⟩ | ⟨-, failure, hfail, hcall⟩ | ⟨-, t, -, hcall⟩
  · rw [hcall] at h
    cases h
  · rw [hcall] at h ⊢
    cases h
    exact ⟨hfail, rfl⟩
  · rw [hcall] at h
    cases h

/-! ### Whole runs -/

/-- A new memo after some calls. -/
def after (calls : List (List Join)) : Memo :=
  calls.foldl (fun m joins => (m.resolve joins).2) {}

/-- Calls on a new memo, each with its answer. -/
def transcript (calls : List (List Join)) : List (List Join × Except RelationError Tree) :=
  calls.zip (answers {} calls)

/-- A call with this key that was answered with a tree. -/
def succeeds (k : String) (call : List Join × Except RelationError Tree) : Bool :=
  key call.1 == k && call.2.isOk

theorem after_concat (calls : List (List Join)) (joins : List Join) :
    after (calls ++ [joins]) = ((after calls).resolve joins).2 :=
  List.foldl_concat ..

theorem length_answers (m : Memo) (calls : List (List Join)) : (answers m calls).length = calls.length := by
  induction calls generalizing m with
  | nil => rfl
  | cons joins rest ih => rw [answers, List.length_cons, List.length_cons, ih]

theorem answers_concat (m : Memo) (calls : List (List Join)) (joins : List Join) :
    answers m (calls ++ [joins]) =
      answers m calls ++ [((calls.foldl (fun m joins => (m.resolve joins).2) m).resolve joins).1] := by
  induction calls generalizing m with
  | nil => rfl
  | cons first rest ih =>
    rw [List.cons_append, answers, answers, ih]
    rfl

theorem transcript_concat (calls : List (List Join)) (joins : List Join) :
    transcript (calls ++ [joins]) = transcript calls ++ [(joins, ((after calls).resolve joins).1)] := by
  rw [transcript, answers_concat, List.zip_append (length_answers {} calls).symm]
  rfl

theorem length_transcript (calls : List (List Join)) : (transcript calls).length = calls.length := by
  rw [transcript, List.length_zip, length_answers, Nat.min_self]

/-! ### Counters -/

/-- The counters after some calls: each call was a hit or a miss, the counters are the words of the two numbers,
and no more trees are kept than there were misses. -/
def Counted (m : Memo) (calls : Nat) : Prop :=
  ∃ hits misses : Nat, hits + misses = calls ∧ m.size ≤ misses ∧ m.hits = .ofNat hits ∧ m.misses = .ofNat misses

namespace Counted

variable {m : Memo} {calls : Nat} (h : m.Counted calls)

include h

theorem hit : Counted { m with hits := m.hits + 1 } (calls + 1) := by
  obtain ⟨hits, misses, hsum, hsize, hhits, hmisses⟩ := h
  refine ⟨hits + 1, misses, ?_, hsize, ?_, hmisses⟩
  · rw [Nat.add_right_comm, hsum]
  · rw [hhits]
    exact (UInt64.ofNat_add hits 1).symm

/-- With a miss, at most one more tree is kept. -/
theorem miss {entries : List (String × Tree)} (hentries : entries.length ≤ m.size + 1) :
    Counted { m with misses := m.misses + 1, entries } (calls + 1) := by
  obtain ⟨hits, misses, hsum, hsize, hhits, hmisses⟩ := h
  refine ⟨hits, misses + 1, ?_, Nat.le_trans hentries (Nat.succ_le_succ hsize), hhits, ?_⟩
  · rw [← Nat.add_assoc, hsum]
  · rw [hmisses]
    exact (UInt64.ofNat_add misses 1).symm

theorem of_lt_size (hcalls : calls < UInt64.size) :
    m.hits.toNat + m.misses.toNat = calls ∧ m.size ≤ m.misses.toNat := by
  obtain ⟨hits, misses, hsum, hsize, hhits, hmisses⟩ := h
  have hword : ∀ n ≤ calls, (UInt64.ofNat n).toNat = n :=
    fun n hn => UInt64.toNat_ofNat_of_lt' (Nat.lt_of_le_of_lt hn hcalls)
  rw [hhits, hmisses, hword hits (by omega), hword misses (by omega)]
  exact ⟨hsum, hsize⟩

end Counted

/-! ### What is kept -/

/-- What the books say about the calls so far. -/
structure Keeps (m : Memo) (seen : List (List Join × Except RelationError Tree)) : Prop where
  counted : m.Counted seen.length
  nodup : (m.entries.map Prod.fst).Nodup
  /-- What is kept under a key is the answer of the first call with that key that succeeded. -/
  kept : ∀ k, m.entries.lookup k = (seen.find? (succeeds k)).bind fun call => call.2.toOption
  /-- That call was not answered from the memo. -/
  resolved : ∀ k call, seen.find? (succeeds k) = some call → Tree.resolve call.1 = call.2

theorem keeps_nil : Keeps {} [] :=
  ⟨⟨0, 0, rfl, Nat.le_refl 0, rfl, rfl⟩, .nil, fun _ => rfl, nofun⟩

theorem exists_ok_of_succeeds {k : String} {call : List Join × Except RelationError Tree}
    (h : succeeds k call) : key call.1 = k ∧ ∃ t, call.2 = .ok t := by
  obtain ⟨joins, answer⟩ := call
  obtain ⟨hkey, hok⟩ := Bool.and_eq_true_iff.1 h
  refine ⟨beq_iff_eq.1 hkey, ?_⟩
  cases answer with
  | error e => cases hok
  | ok t => exact ⟨t, rfl⟩

namespace Keeps

variable {m : Memo} {seen : List (List Join × Except RelationError Tree)} (h : m.Keeps seen)

include h

/-- Nothing is kept under a key exactly as long as no call with that key has succeeded. -/
theorem lookup_eq_none_iff {k : String} :
    m.entries.lookup k = none ↔ seen.find? (succeeds k) = none := by
  rw [h.kept]
  cases hfirst : seen.find? (succeeds k) with
  | none => exact iff_of_true rfl rfl
  | some call =>
    obtain ⟨-, t, hok⟩ := exists_ok_of_succeeds (List.find?_some hfirst)
    rw [Option.bind_some, hok]
    exact iff_of_false nofun nofun

theorem lookup_eq_some_iff {k : String} {t : Tree} :
    m.entries.lookup k = some t ↔
      ∃ joins, seen.find? (succeeds k) = some (joins, .ok t) ∧ Tree.resolve joins = .ok t := by
  rw [h.kept]
  constructor
  · intro hkept
    obtain ⟨⟨joins, answer⟩, hfirst, hanswer⟩ := Option.bind_eq_some_iff.1 hkept
    cases answer with
    | error e => cases hanswer
    | ok found =>
      cases hanswer
      exact ⟨joins, hfirst, h.resolved k _ hfirst⟩
  · rintro ⟨joins, hfirst, -⟩
    rw [hfirst]
    rfl

theorem exists_succeeds_iff {k : String} :
    (∃ call ∈ seen, succeeds k call) ↔ ∃ t, m.entries.lookup k = some t := by
  rw [← Option.ne_none_iff_exists', ne_eq, h.lookup_eq_none_iff, List.find?_eq_none]
  simp only [not_forall, not_not, exists_prop]

/-- A call that adds nothing to what is kept, because it failed or because its key has succeeded before. -/
theorem idle {other : Memo} {call : List Join × Except RelationError Tree}
    (hentries : other.entries = m.entries) (hcounted : other.Counted (seen.length + 1))
    (hcall : ∀ k, succeeds k call → ∃ first, seen.find? (succeeds k) = some first) :
    other.Keeps (seen ++ [call]) := by
  have hsame : ∀ k, (seen ++ [call]).find? (succeeds k) = seen.find? (succeeds k) := by
    intro k
    rw [List.find?_append]
    cases hfirst : seen.find? (succeeds k) with
    | some first => rfl
    | none =>
      rw [Option.none_or, List.find?_eq_none]
      intro other hother hsucceeds
      rw [List.mem_singleton.1 hother] at hsucceeds
      obtain ⟨first, hsome⟩ := hcall k hsucceeds
      rw [hfirst] at hsome
      cases hsome
  refine ⟨?_, ?_, fun k => ?_, fun k => ?_⟩
  · rw [List.length_append]
    exact hcounted
  · rw [hentries]
    exact h.nodup
  · rw [hentries, hsame]
    exact h.kept k
  · rw [hsame]
    exact h.resolved k

/-- A call that finds a tree for a key under which nothing is kept. -/
theorem found {joins : List Join} {t : Tree} (hnone : m.entries.lookup (key joins) = none)
    (hfound : Tree.resolve joins = .ok t) :
    Keeps { m with misses := m.misses + 1, entries := m.entries ++ [(key joins, t)] }
      (seen ++ [(joins, .ok t)]) := by
  have hself : succeeds (key joins) (joins, .ok t) := by
    rw [succeeds, beq_self_eq_true]
    rfl
  have hother : ∀ k, k ≠ key joins → [(joins, (.ok t : Except RelationError Tree))].find? (succeeds k) = none := by
    intro k hk
    rw [List.find?_singleton, if_neg]
    intro hsucceeds
    exact hk (exists_ok_of_succeeds hsucceeds).1.symm
  refine ⟨?_, ?_, fun k => ?_, fun k call hcall => ?_⟩
  · rw [List.length_append]
    exact h.counted.miss (Nat.le_of_eq List.length_append)
  · rw [List.map_append, List.nodup_append]
    refine ⟨h.nodup, List.nodup_singleton _, ?_⟩
    intro k hk other hsame heq
    rw [List.map_singleton, List.mem_singleton] at hsame
    rw [heq, hsame, List.mem_map] at hk
    obtain ⟨entry, hentry, hkey⟩ := hk
    rw [List.lookup_eq_none_iff] at hnone
    simpa [hkey] using hnone entry hentry
  · rw [List.lookup_append, List.find?_append, h.kept k]
    by_cases hk : k = key joins
    · rw [hk, h.lookup_eq_none_iff.1 hnone, List.find?_singleton, if_pos hself, List.lookup_cons_self]
      rfl
    · rw [hother k hk, List.lookup_cons, beq_eq_false_iff_ne.2 hk]
      simp
  · rw [List.find?_append, Option.or_eq_some_iff] at hcall
    rcases hcall with hcall | ⟨-, hcall⟩
    · exact h.resolved k call hcall
    · rw [List.mem_singleton.1 (List.mem_of_find?_eq_some hcall)]
      exact hfound

theorem step (joins : List Join) : (m.resolve joins).2.Keeps (seen ++ [(joins, (m.resolve joins).1)]) := by
  rcases m.resolve_cases joins with ⟨t, hkept, hcall⟩ | ⟨hnone, e, hfail, hcall⟩ | ⟨hnone, t, hfound, hcall⟩
  · rw [hcall]
    refine h.idle rfl h.counted.hit fun k hsucceeds => ?_
    obtain ⟨rfl, -⟩ := exists_ok_of_succeeds hsucceeds
    obtain ⟨first, hfirst, -⟩ := h.lookup_eq_some_iff.1 hkept
    exact ⟨_, hfirst⟩
  · rw [hcall]
    refine h.idle rfl (h.counted.miss (Nat.le_succ _)) fun k hsucceeds => ?_
    obtain ⟨-, t, hok⟩ := exists_ok_of_succeeds hsucceeds
    cases hok
  · rw [hcall]
    exact h.found hnone hfound

/-- As many trees are kept as there are different keys of calls that succeeded. -/
theorem size_eq :
    m.size = ((seen.filter fun call => call.2.isOk).map fun call => key call.1).dedup.length := by
  have hperm : (m.entries.map Prod.fst).Perm
      ((seen.filter fun call => call.2.isOk).map fun call => key call.1).dedup := by
    rw [List.perm_ext_iff_of_nodup h.nodup (List.nodup_dedup _)]
    intro k
    rw [List.mem_dedup]
    have hlookup : k ∈ m.entries.map Prod.fst ↔ m.entries.lookup k ≠ none := by
      rw [Option.ne_none_iff_isSome, List.lookup_isSome_iff, List.mem_map]
      refine exists_congr fun entry => and_congr_right fun _ => ?_
      rw [beq_iff_eq, eq_comm]
    rw [hlookup, ne_eq, h.lookup_eq_none_iff, List.find?_eq_none, List.mem_map]
    simp only [List.mem_filter, succeeds, Bool.and_eq_true, beq_iff_eq, not_forall, not_not]
    constructor
    · rintro ⟨call, hcall, hkey, hok⟩
      exact ⟨call, ⟨hcall, hok⟩, hkey⟩
    · rintro ⟨call, ⟨hcall, hok⟩, hkey⟩
      exact ⟨call, hcall, hkey, hok⟩
  rw [size, ← hperm.length_eq, List.length_map]

end Keeps

theorem keeps_after (calls : List (List Join)) : (after calls).Keeps (transcript calls) := by
  induction calls using List.reverseRecOn with
  | nil => exact keeps_nil
  | append_singleton calls joins ih =>
    rw [after_concat, transcript_concat]
    exact ih.step joins

/-- What is kept stays kept. -/
theorem entries_after (calls more : List (List Join)) :
    (after calls).entries <+: (after (calls ++ more)).entries := by
  induction more using List.reverseRecOn with
  | nil => simp
  | append_singleton more joins ih =>
    rw [← List.append_assoc, after_concat]
    rcases (after (calls ++ more)).resolve_cases joins with
      ⟨t, -, hcall⟩ | ⟨-, e, -, hcall⟩ | ⟨-, t, -, hcall⟩
    · rw [hcall]
      exact ih
    · rw [hcall]
      exact ih
    · rw [hcall]
      exact ih.trans (List.prefix_append ..)

theorem lookup_after {calls : List (List Join)} {k : String} {t : Tree}
    (hkept : (after calls).entries.lookup k = some t) (more : List (List Join)) :
    (after (calls ++ more)).entries.lookup k = some t := by
  obtain ⟨rest, hrest⟩ := entries_after calls more
  rw [← hrest, List.lookup_append, hkept]
  rfl

/-- **The books of a memo are right.** After any calls, hits and misses add up to the calls, as words for calls
of any number and as numbers for fewer calls than there are words. What was kept at any time is still kept, and
under each key it is what the first call that succeeded with that key has found. There are as many trees as
different keys of such calls, and no more than misses. The next call is a hit exactly if one with its key has
succeeded, and then it is answered with what is kept and changes the hits only; if it fails, it changes the misses
only. -/
theorem books_right (calls : List (List Join)) :
    let m := after calls
    m.Counted calls.length ∧
    (calls.length < UInt64.size → m.hits.toNat + m.misses.toNat = calls.length ∧ m.size ≤ m.misses.toNat) ∧
    (∀ earlier, earlier <+: calls → ∀ k t,
      (after earlier).entries.lookup k = some t → m.entries.lookup k = some t) ∧
    (∀ k t, m.entries.lookup k = some t ↔
      ∃ joins, (transcript calls).find? (succeeds k) = some (joins, .ok t) ∧ Tree.resolve joins = .ok t) ∧
    m.size = (((transcript calls).filter fun call => call.2.isOk).map fun call => key call.1).dedup.length ∧
    ∀ joins,
      ((m.resolve joins).2.hits = m.hits + 1 ↔ ∃ call ∈ transcript calls, succeeds (key joins) call) ∧
      ((m.resolve joins).2.hits = m.hits + 1 → ∃ t, m.entries.lookup (key joins) = some t ∧
        m.resolve joins = (.ok t, { m with hits := m.hits + 1 })) ∧
      ∀ e, (m.resolve joins).1 = .error e →
        Tree.resolve joins = .error e ∧ (m.resolve joins).2 = { m with misses := m.misses + 1 } := by
  have hkeeps := keeps_after calls
  have hcounted : (after calls).Counted calls.length := length_transcript calls ▸ hkeeps.counted
  refine ⟨hcounted, hcounted.of_lt_size, ?_, fun k t => hkeeps.lookup_eq_some_iff, hkeeps.size_eq, fun joins => ?_⟩
  · rintro earlier ⟨more, rfl⟩ k t hkept
    exact lookup_after hkept more
  · have hhit := (after calls).hits_resolve_iff joins
    refine ⟨hhit.trans hkeeps.exists_succeeds_iff.symm, fun hmore => ?_, fun e => resolve_error⟩
    obtain ⟨t, hkept⟩ := hhit.1 hmore
    exact ⟨t, hkept, resolve_kept hkept⟩

end Memo

end PathQuery
