import PathQuery.Expr
/-!
# Conditions

The boolean trees that filter rows and groups. A leaf is a lookup (a column expression compared with a
value), text taken as it is, or one of the two constants. A group joins any number of conditions by one
connective and may be negated.
-/

namespace PathQuery

inductive Connective
  | and
  | or
  deriving DecidableEq, Inhabited, Repr

def Connective.text : Connective → String
  | .and => "AND"
  | .or => "OR"

inductive LookupKind
  | exact
  | gt
  | gte
  | lt
  | lte
  | contains
  | startsWith
  | endsWith
  | oneOf
  | isNull
  deriving DecidableEq, Inhabited, Repr

/-- What a column is compared with. -/
inductive Operand
  | list (values : List Value)
  | single (value : Value)

instance : Inhabited Operand :=
  ⟨.single .null⟩

structure Lookup where
  lhs : Expr
  kind : LookupKind
  rhs : Operand := .single .null
  deriving Inhabited

/-- Conditions joined by a connective. `grouped` asks for parentheses even around a single one. -/
structure Group (α : Type) where
  connective : Connective := .and
  children : List α := []
  negated : Bool := false
  grouped : Bool := false
  deriving Inhabited

inductive Condition
  | group (g : Group Condition)
  | lookup (l : Lookup)
  | raw (sql : Sql)
  | everything
  | nothing
  deriving Inhabited

/-- The root of a boolean tree is always a group. -/
abbrev Filter := Group Condition

namespace Group

variable {α : Type}

def all (children : List α) : Group α := { children }

def any (children : List α) : Group α := { connective := .or, children }

def negate (g : Group α) : Group α :=
  { g with negated := !g.negated }

end Group

mutual

/-- The left-hand sides of all lookups of a condition, from left to right. -/
def Condition.columns : Condition → List Expr
  | .group g => Filter.columns g
  | .lookup l => [l.lhs]
  | .raw _ => []
  | .everything => []
  | .nothing => []

/-- The left-hand sides of all lookups of a tree, from left to right. -/
def Filter.columns : Filter → List Expr
  | ⟨_, children, _, _⟩ => columnsOfAll children

/-- The left-hand sides of all lookups of several conditions, in order. -/
def columnsOfAll : List Condition → List Expr
  | [] => []
  | c :: rest => c.columns ++ columnsOfAll rest

end

end PathQuery
