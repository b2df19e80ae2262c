import PathQuery.Condition
import PathQuery.Dict
import PathQuery.Join
import PathQuery.Sorting
/-!
# Query plans

A plan says what a query is about, in terms of aliased tables: which tables are joined how, what is
selected, filtered, grouped and sorted, and which rows of the result are wanted. Everything in it is
qualified by aliases; nothing in it speaks of relationships yet.
-/

namespace PathQuery

/-- The table a query was issued against. -/
structure Model where
  table : String
  /-- Objects of the tooling interface take no table qualification. -/
  tooling : Bool := false
  /-- Every query on this table leaves out the root qualifier. -/
  minimal : Bool := false
  deriving DecidableEq, Inhabited, Repr

/-- A selected expression, with a label for the result column. -/
structure Projection where
  expr : Expr
  label : Option String := none
  deriving Inhabited

structure SortKey where
  expr : Expr
  descending : Bool := false
  nulls : Option NullsPlace := none
  deriving Inhabited

namespace SortKey

def ascending (expr : Expr) : SortKey := { expr }

def descendingBy (expr : Expr) : SortKey := { expr, descending := true }

def render (key : SortKey) : Sql :=
  let inner := key.expr.render
  ⟨inner.text ++ " " ++ sortText key.descending key.nulls, inner.params⟩

end SortKey

/-- A request to explain a query instead of running it. -/
structure Explanation where
  format : Option String := none
  options : Dict String := .empty
  deriving Inhabited

/-- Switches that go with a query to the cursor. -/
structure Options where
  /-- Deleted and archived rows count too. -/
  queryAll : Bool := false
  allOrNone : Option Bool := none
  edgeUpdates : Bool := false
  minimal : Bool := false
  deriving DecidableEq, Inhabited, Repr

/-- The rows from position `low` up to `high`, or to the end. -/
structure Window where
  low : UInt64 := 0
  high : Option UInt64 := none
  deriving DecidableEq, Inhabited, Repr

structure Plan where
  model : Option Model := none
  joins : List Join := []
  /-- How often each alias is referred to. -/
  references : Dict UInt64 := .empty
  select : List Projection := []
  extraSelect : List Projection := []
  filter : Option Filter := none
  groupBy : List Expr := []
  having : Option Filter := none
  orderBy : List SortKey := []
  distinct : Bool := false
  distinctOn : List Expr := []
  window : Window := {}
  forUpdate : Bool := false
  nowait : Bool := false
  explain : Option Explanation := none
  options : Options := {}
  deriving Inhabited

/-- The plan that says nothing but its model. -/
def Plan.ofModel (model : Model) : Plan := { model := some model }

end PathQuery
