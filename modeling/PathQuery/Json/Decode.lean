import PathQuery.Json.Basic
/-!
# Reading JSON values into types

Objects are read member by member: each member that is asked for may occur once at most, and members
that nobody asks for are not looked at. In place of an object there may be a list of its members' values,
in their order, from which the last ones may be missing. Everything here is partial in the sense of
`Option`: a value either has the shape that is asked for or it does not.
-/

namespace PathQuery.Json

abbrev Members := List (String × Json)

def members? : Json → Option Members
  | .object members => some members
  | _ => none

def text? : Json → Option String
  | .text s => some s
  | _ => none

def bool? : Json → Option Bool
  | .bool b => some b
  | _ => none

/-- An integer without fraction or power of ten, in the range of 64 bits without a sign. -/
def word? : Json → Option UInt64
  | .number (.int n) => if 0 ≤ n ∧ n < UInt64.size then some (.ofNat n.toNat) else none
  | _ => none

/-- The members of a record with these fields, given as an object or as a list. -/
def fields? (names : List String) : Json → Option Members
  | .object members => some members
  | .list items => if items.length ≤ names.length then some (names.zip items) else none
  | _ => none

/-- A name out of a fixed choice. It may also be given as the only key of an object, with null, and
inside of a tagged value also with an empty object. -/
def choice? (nested : Bool) : Json → Option String
  | .text s => some s
  | .object [(s, .null)] => some s
  | .object [(s, .object [])] => if nested then some s else none
  | _ => none

def listOf? {α : Type} (read : Json → Option α) : Json → Option (List α)
  | .list items => items.mapM read
  | _ => none

/-- A member and its value. Absent is `some none`; a member that occurs twice is an error. -/
def member? (members : Members) (key : String) : Option (Option Json) :=
  match members.filter (·.1 == key) with
  | [] => some none
  | [(_, value)] => some (some value)
  | _ => none

/-- A member that has to be there. -/
def required? {α : Type} (members : Members) (key : String) (read : Json → Option α) : Option α :=
  match member? members key with
  | some (some value) => read value
  | _ => none

/-- A member with a value to take when it is absent. -/
def defaulted? {α : Type} (members : Members) (key : String) (fallback : α)
    (read : Json → Option α) : Option α :=
  match member? members key with
  | some (some value) => read value
  | some none => some fallback
  | none => none

/-- A null is no value. -/
def nullable? {α : Type} (read : Json → Option α) : Json → Option (Option α)
  | .null => some none
  | value => (read value).map some

/-- A member that may be absent or null. -/
def optional? {α : Type} (members : Members) (key : String) (read : Json → Option α) :
    Option (Option α) :=
  defaulted? members key none (nullable? read)

/-- The variants of a tagged value, with the names of their fields. -/
abbrev Variants := List (String × List String)

/-- A tag. Inside of a tagged value it may be the number of its variant. -/
def tag? (nested : Bool) (variants : Variants) : Json → Option String
  | .text s => some s
  | .number (.int n) => if nested ∧ 0 ≤ n then variants[n.toNat]?.map (·.1) else none
  | _ => none

/-- The tag and the members of a tagged value. The tag is the member `type`, or the first one of a list. A
tagged value is read whole, so every part of it has to be readable. -/
def tagged? (nested : Bool) (variants : Variants) (j : Json) : Option (String × Members) :=
  if j.readable then
    match j with
    | .object members => do
      let tag ← required? members "type" (tag? nested variants)
      return (tag, members)
    | .list (first :: items) => do
      let tag ← tag? nested variants first
      let members ← fields? (← variants.lookup tag) (.list items)
      return (tag, members)
    | _ => none
  else none

/-! ### Sizes -/

theorem exists_mem_of_member? {members : Members} {key : String} {value : Json}
    (h : member? members key = some (some value)) : ∃ name, (name, value) ∈ members := by
  unfold member? at h
  split at h
  · simp at h
  · rename_i name found hfilter
    have hmem : (name, found) ∈ members.filter (·.1 == key) := by simp [hfilter]
    simp at h
    subst h
    exact ⟨name, (List.mem_filter.1 hmem).1⟩
  · simp at h

theorem sizeOf_lt_of_fields? {names : List String} {j : Json} {members : Members} {name : String}
    {value : Json} (h : fields? names j = some members) (hmem : (name, value) ∈ members) :
    sizeOf value < sizeOf j := by
  unfold fields? at h
  split at h
  · simp at h
    subst h
    have := List.sizeOf_lt_of_mem hmem
    simp at this ⊢
    omega
  · rename_i items
    split at h
    · simp at h
      subst h
      have := List.sizeOf_lt_of_mem (List.of_mem_zip hmem).2
      simp
      omega
    · simp at h
  · simp at h

theorem sizeOf_lt_of_tagged? {nested : Bool} {variants : Variants} {j : Json} {tag : String}
    {members : Members} {name : String} {value : Json}
    (h : tagged? nested variants j = some (tag, members)) (hmem : (name, value) ∈ members) :
    sizeOf value < sizeOf j := by
  unfold tagged? at h
  split at h
  · split at h
    · rename_i found _
      simp only [Option.bind_eq_bind, Option.bind_eq_some_iff] at h
      obtain ⟨_, _, heq⟩ := h
      obtain ⟨_, rfl⟩ := Prod.mk.inj (Option.some.inj heq)
      exact @sizeOf_lt_of_fields? [] (.object found) found name value rfl hmem
    · rename_i first items _
      simp only [Option.bind_eq_bind, Option.bind_eq_some_iff] at h
      obtain ⟨_, _, _, _, _, hfields, heq⟩ := h
      obtain ⟨_, rfl⟩ := Prod.mk.inj (Option.some.inj heq)
      have := sizeOf_lt_of_fields? hfields hmem
      simp at this ⊢
      omega
    · simp at h
  · simp at h

theorem sizeOf_lt_of_member? {nested : Bool} {variants : Variants} {j : Json} {tag key : String}
    {members : Members} {value : Json} (h : tagged? nested variants j = some (tag, members))
    (hmember : member? members key = some (some value)) : sizeOf value < sizeOf j :=
  have ⟨_, hmem⟩ := exists_mem_of_member? hmember
  sizeOf_lt_of_tagged? h hmem

end PathQuery.Json
