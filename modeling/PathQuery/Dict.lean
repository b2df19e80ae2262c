/-!
# Dictionaries

Finite maps with text keys, kept as the list of their entries in increasing order of keys. The order
is by code point, which is the order of the UTF-8 bytes. Since the order is part of the type, two
dictionaries with the same entries are equal, whatever the order in which the entries came in.
-/

namespace PathQuery

structure Dict (α : Type) where
  entries : List (String × α)
  sorted : entries.Pairwise fun a b => a.1 < b.1

namespace Dict

variable {α β : Type}

/-- Puts an entry in its place, in front of the first greater key, or over the entry with its key. -/
def place (key : String) (value : α) : List (String × α) → List (String × α)
  | [] => [(key, value)]
  | (k, v) :: rest =>
    if key < k then (key, value) :: (k, v) :: rest
    else if key = k then (key, value) :: rest
    else (k, v) :: place key value rest

theorem mem_place {key : String} {value : α} {l : List (String × α)} {e : String × α}
    (h : e ∈ place key value l) : e = (key, value) ∨ e ∈ l := by
  induction l with
  | nil => simpa [place] using h
  | cons head rest ih =>
    obtain ⟨k, v⟩ := head
    simp only [place] at h
    split at h
    · simpa using h
    · split at h
      · rcases List.mem_cons.1 h with h | h
        · exact .inl h
        · exact .inr (List.mem_cons_of_mem _ h)
      · rcases List.mem_cons.1 h with h | h
        · exact .inr (h ▸ List.mem_cons_self)
        · exact (ih h).imp_right (List.mem_cons_of_mem _)

theorem place_sorted (key : String) (value : α) {l : List (String × α)}
    (h : l.Pairwise fun a b => a.1 < b.1) :
    (place key value l).Pairwise fun a b => a.1 < b.1 := by
  induction l with
  | nil => simp [place]
  | cons head rest ih =>
    obtain ⟨k, v⟩ := head
    obtain ⟨hhead, hrest⟩ := List.pairwise_cons.1 h
    simp only [place]
    split
    case isTrue hlt =>
      refine List.pairwise_cons.2 ⟨fun e he => ?_, h⟩
      rcases List.mem_cons.1 he with rfl | he
      · exact hlt
      · exact String.lt_trans hlt (hhead e he)
    case isFalse hnlt =>
      split
      case isTrue heq => exact List.pairwise_cons.2 ⟨fun e he => heq ▸ hhead e he, hrest⟩
      case isFalse hne =>
        have hgt : k < key := by
          refine Decidable.byContradiction fun hnot => hne ?_
          exact String.le_antisymm (String.not_lt.1 hnot) (String.not_lt.1 hnlt)
        refine List.pairwise_cons.2 ⟨fun e he => ?_, ih hrest⟩
        rcases mem_place he with rfl | he
        · exact hgt
        · exact hhead e he

def empty : Dict α :=
  ⟨[], .nil⟩

/-- The dictionary with `value` under `key`, and all other entries as they were. -/
def insert (d : Dict α) (key : String) (value : α) : Dict α :=
  ⟨place key value d.entries, place_sorted key value d.sorted⟩

def get? (d : Dict α) (key : String) : Option α :=
  d.entries.lookup key

def contains (d : Dict α) (key : String) : Bool :=
  (d.get? key).isSome

def keys (d : Dict α) : List String :=
  d.entries.map Prod.fst

def size (d : Dict α) : Nat :=
  d.entries.length

def isEmpty (d : Dict α) : Bool :=
  d.entries.isEmpty

/-- Of entries with one key the last counts. -/
def ofList (l : List (String × α)) : Dict α :=
  l.foldl (fun d e => d.insert e.1 e.2) empty

instance : Inhabited (Dict α) :=
  ⟨empty⟩

theorem lookup_place (key : String) (value : α) (l : List (String × α)) (k : String) :
    (place key value l).lookup k = if k = key then some value else l.lookup k := by
  induction l with
  | nil => by_cases h : k = key <;> simp [place, List.lookup_cons, beq_eq_false_iff_ne.2, h]
  | cons head rest ih =>
    obtain ⟨k', v'⟩ := head
    simp only [place]
    split
    · by_cases h : k = key <;> simp [List.lookup_cons, beq_eq_false_iff_ne.2, h]
    · split
      · rename_i heq
        by_cases h : k = key <;> simp [List.lookup_cons, beq_eq_false_iff_ne.2, h, ← heq]
      · rename_i hne
        by_cases h : k = key
        · subst h
          simp [List.lookup_cons, ih, beq_eq_false_iff_ne.2 hne]
        · simp [List.lookup_cons, ih, h]

theorem get?_insert (d : Dict α) (key : String) (value : α) (k : String) :
    (d.insert key value).get? k = if k = key then some value else d.get? k :=
  lookup_place key value d.entries k

theorem contains_insert (d : Dict α) (key : String) (value : α) (k : String) :
    (d.insert key value).contains k = (k == key || d.contains k) := by
  by_cases h : k = key <;> simp [contains, get?_insert, h]

@[ext] theorem ext {d e : Dict α} (h : d.entries = e.entries) : d = e := by
  cases d; cases e; cases h; rfl

end Dict

/-- The distinct names of a list, in increasing order. -/
def distinctNames (names : List String) : List String :=
  (Dict.ofList (names.map fun name => (name, ()))).keys

end PathQuery
