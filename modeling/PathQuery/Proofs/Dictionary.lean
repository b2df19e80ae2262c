import Mathlib.Data.List.Nodup
import Mathlib.Data.List.Perm.Subperm
import PathQuery.Dict
/-!
# What a dictionary holds

The names in a dictionary, seen in three ways: as look-ups that succeed, as the list of keys, and as a
number. Equal look-ups give equal numbers, and a dictionary that holds no more than another and is as
large holds the same names. The distinct names of a list are the names of a dictionary too.
-/

namespace PathQuery

namespace Dict

variable {α β : Type}

@[simp] theorem contains_empty (name : String) : (empty : Dict α).contains name = false := rfl

@[simp] theorem get?_empty (name : String) : (empty : Dict α).get? name = none := rfl

theorem contains_iff_exists {d : Dict α} {name : String} :
    d.contains name ↔ ∃ value, d.get? name = some value := by
  rw [contains, Option.isSome_iff_exists]

theorem mem_keys {d : Dict α} {name : String} : name ∈ d.keys ↔ d.contains name := by
  rw [contains, get?, List.lookup_isSome_iff, keys, List.mem_map]
  refine exists_congr fun entry => and_congr_right fun _ => ?_
  rw [beq_iff_eq, eq_comm]

theorem keys_sorted (d : Dict α) : d.keys.Pairwise (· < ·) :=
  List.pairwise_map.2 d.sorted

theorem keys_nodup (d : Dict α) : d.keys.Nodup := by
  refine (keys_sorted d).imp fun hlt heq => ?_
  rw [heq] at hlt
  exact String.lt_irrefl _ hlt

theorem size_eq_length_keys (d : Dict α) : d.size = d.keys.length :=
  (List.length_map ..).symm

theorem size_eq_of_contains {d : Dict α} {e : Dict β}
    (h : ∀ name, d.contains name ↔ e.contains name) : d.size = e.size := by
  have hperm : d.keys.Perm e.keys := by
    rw [List.perm_ext_iff_of_nodup d.keys_nodup e.keys_nodup]
    intro name
    rw [mem_keys, mem_keys, h]
  rw [size_eq_length_keys, size_eq_length_keys, hperm.length_eq]

/-- A dictionary inside of another one of the same size holds all of its names. -/
theorem contains_of_size_eq {d : Dict α} {e : Dict β}
    (hsub : ∀ name, d.contains name → e.contains name) (hsize : d.size = e.size) {name : String}
    (hname : e.contains name) : d.contains name := by
  have hsubset : d.keys ⊆ e.keys := fun n hn => mem_keys.2 (hsub n (mem_keys.1 hn))
  rw [size_eq_length_keys, size_eq_length_keys] at hsize
  have hperm : d.keys.Perm e.keys :=
    (d.keys_nodup.subperm hsubset).perm_of_length_le (Nat.le_of_eq hsize.symm)
  exact mem_keys.1 (hperm.mem_iff.2 (mem_keys.2 hname))

theorem get?_eq_some_iff {d : Dict α} {name : String} {value : α} :
    d.get? name = some value ↔ (name, value) ∈ d.entries := by
  rw [get?, List.lookup_eq_some_iff]
  constructor
  · rintro ⟨front, back, hsplit, -⟩
    rw [hsplit]
    exact List.mem_append_right front List.mem_cons_self
  · intro hmem
    obtain ⟨front, back, hsplit⟩ := List.append_of_mem hmem
    refine ⟨front, back, hsplit, fun entry hentry => ?_⟩
    -- What stands in front has a smaller key.
    have hsorted := d.sorted
    rw [hsplit, List.pairwise_append] at hsorted
    have hlt : entry.1 < name := hsorted.2.2 entry hentry _ List.mem_cons_self
    rw [bne_iff_ne]
    intro heq
    rw [heq] at hlt
    exact String.lt_irrefl _ hlt

/-- Equal look-ups make equal dictionaries. -/
theorem eq_of_get? {d e : Dict α} (h : ∀ name, d.get? name = e.get? name) : d = e := by
  have hnodup : ∀ d : Dict α, d.entries.Nodup := fun d => List.Nodup.of_map _ d.keys_nodup
  apply Dict.ext
  refine List.Perm.eq_of_pairwise (fun a b _ _ hab hba => ?_) d.sorted e.sorted ?_
  · exact absurd (String.lt_trans hab hba) (String.lt_irrefl _)
  · rw [List.perm_ext_iff_of_nodup (hnodup d) (hnodup e)]
    intro entry
    rw [← get?_eq_some_iff, ← get?_eq_some_iff, h]

theorem contains_foldl_insert {γ : Type} (key : γ → String) (value : γ → α) (l : List γ) (d : Dict α)
    (name : String) :
    (l.foldl (fun d c => d.insert (key c) (value c)) d).contains name ↔
      name ∈ l.map key ∨ d.contains name := by
  induction l generalizing d with
  | nil => simp
  | cons c rest ih =>
    rw [List.foldl_cons, ih, contains_insert, List.map_cons, List.mem_cons, Bool.or_eq_true,
      beq_iff_eq, or_left_comm, or_assoc]

/-- A key beyond all others is placed at the end. -/
theorem place_of_lt {key : String} {value : α} {l : List (String × α)} (h : ∀ entry ∈ l, entry.1 < key) :
    place key value l = l ++ [(key, value)] := by
  induction l with
  | nil => rfl
  | cons head rest ih =>
    obtain ⟨k, v⟩ := head
    have hlt : k < key := h (k, v) List.mem_cons_self
    have hnot : ¬ key < k := fun hgt => String.lt_irrefl _ (String.lt_trans hlt hgt)
    have hne : key ≠ k := by
      intro heq
      subst heq
      exact hnot hlt
    rw [place, if_neg hnot, if_neg hne, ih fun entry hentry => h entry (List.mem_cons_of_mem _ hentry)]
    rfl

theorem entries_foldl_insert {l : List (String × α)} {d : Dict α}
    (h : (d.entries ++ l).Pairwise fun a b => a.1 < b.1) :
    (l.foldl (fun d entry => d.insert entry.1 entry.2) d).entries = d.entries ++ l := by
  induction l generalizing d with
  | nil => simp
  | cons entry rest ih =>
    have hlast : ∀ e ∈ d.entries, e.1 < entry.1 := fun e he =>
      (List.pairwise_append.1 h).2.2 e he entry List.mem_cons_self
    have hentries : (d.insert entry.1 entry.2).entries = d.entries ++ [entry] := place_of_lt hlast
    rw [List.foldl_cons, ih, hentries, List.append_assoc, List.singleton_append]
    rwa [hentries, List.append_assoc, List.singleton_append]

/-- A dictionary is built anew from its entries. -/
theorem ofList_entries (d : Dict α) : ofList d.entries = d :=
  Dict.ext (entries_foldl_insert (d := empty) d.sorted)

end Dict

theorem mem_distinctNames {names : List String} {name : String} :
    name ∈ distinctNames names ↔ name ∈ names := by
  rw [distinctNames, Dict.mem_keys, Dict.ofList, Dict.contains_foldl_insert]
  simp

theorem distinctNames_sorted (names : List String) : (distinctNames names).Pairwise (· < ·) :=
  Dict.keys_sorted _

/-- In a list that is sorted, the first name with a property is the least. -/
theorem le_of_find?_sorted {names : List String} {p : String → Bool} {name other : String}
    (hsorted : names.Pairwise (· < ·)) (h : names.find? p = some name) (hother : other ∈ names)
    (hp : p other = true) : name ≤ other := by
  obtain ⟨-, front, back, rfl, hfront⟩ := List.find?_eq_some_iff_append.1 h
  rcases List.mem_append.1 hother with hmem | hmem
  · have hnot := hfront other hmem
    rw [hp] at hnot
    cases hnot
  · rcases List.mem_cons.1 hmem with rfl | hmem
    · exact String.le_refl other
    · have hlt := List.rel_of_pairwise_cons (List.pairwise_append.1 hsorted).2.1 hmem
      exact String.lt_asymm hlt

theorem distinctNames_nodup (names : List String) : (distinctNames names).Nodup :=
  Dict.keys_nodup _

end PathQuery
