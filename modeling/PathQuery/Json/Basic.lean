/-!
# JSON values

Members of an object keep their order, and a key may occur more than once: what a repeated key means
is up to those who read the object.

A well-formed text may hold parts that have no value: a number beyond the range of doubles, an
unpaired surrogate, or a list or object nested too deeply. Such a part is `unreadable`. It does no harm
where nobody looks at it.
-/

namespace PathQuery

inductive Json.Number
  | int (n : Int)
  | float (x : Float)

inductive Json
  | null
  | bool (b : Bool)
  | number (n : Json.Number)
  | text (s : String)
  | list (items : List Json)
  | object (members : List (String × Json))
  | unreadable

namespace Json

instance : Inhabited Json :=
  ⟨.null⟩

/-- A value is readable if every part of it is. -/
def readable : Json → Bool
  | .list items => items.attach.all fun ⟨item, _⟩ => item.readable
  | .object members => members.attach.all fun ⟨(_, value), _⟩ => value.readable
  | .unreadable => false
  | _ => true
termination_by j => sizeOf j
decreasing_by
  · have := List.sizeOf_lt_of_mem ‹_›
    simp; omega
  · rename_i hmem
    have := List.sizeOf_lt_of_mem hmem
    simp at this ⊢; omega

/-- An integral number. -/
def ofNat (n : Nat) : Json :=
  .number (.int n)

end Json

end PathQuery
