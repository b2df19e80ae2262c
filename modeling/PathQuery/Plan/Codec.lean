import PathQuery.Plan.Basic
/-!
# Plans in JSON

The interchange form of plans. Writing gives every field, in a fixed order. Reading takes the members
it knows, whatever their order, and leaves the others alone; most of them may be absent. Expressions and
the nodes of conditions are tagged by a member `type`. Inside of such a value, which is read whole, names
may be given in more ways than outside; `nested` tells that a value stands there.
-/

namespace PathQuery

open Json (required? defaulted? optional? listOf? member? text? bool? word? choice?)

/-! ### Expressions -/

def paramsToJson (params : List Value) : Json :=
  .list (params.map Value.toJson)

def paramsOfJson? : Json → Option (List Value) :=
  listOf? Value.ofJson?

/-- Text taken as it is, out of the members of a tagged value. -/
def Sql.ofMembers? (members : Json.Members) : Option Sql := do
  let text ← required? members "sql" text?
  let params ← defaulted? members "params" [] paramsOfJson?
  return { text, params }

def Expr.toJson : Expr → Json
  | .column source field =>
    .object [("type", .text "column"), ("alias", .text source), ("column", .text field)]
  | .call function argument =>
    .object [("type", .text "function"), ("name", .text function), ("arg", argument.toJson)]
  | .countAll => .object [("type", .text "count_all")]
  | .raw sql =>
    .object [("type", .text "raw"), ("sql", .text sql.text), ("params", paramsToJson sql.params)]

def Expr.variants : Json.Variants :=
  [("column", ["alias", "column"]), ("function", ["name", "arg"]), ("count_all", []),
    ("raw", ["sql", "params"])]

def Expr.read? (nested : Bool) (j : Json) : Option Expr :=
  match _ : j.tagged? nested Expr.variants with
  | some ("column", members) => do
    let source ← required? members "alias" text?
    let field ← required? members "column" text?
    return .column source field
  | some ("function", members) => do
    let function ← required? members "name" text?
    match _ : member? members "arg" with
    | some (some argument) => return .call function (← Expr.read? true argument)
    | _ => none
  | some ("count_all", _) => some .countAll
  | some ("raw", members) => (Sql.ofMembers? members).map .raw
  | _ => none
termination_by sizeOf j
decreasing_by
  exact Json.sizeOf_lt_of_member? ‹_› ‹_›

def Expr.ofJson? : Json → Option Expr :=
  Expr.read? false

/-! ### Conditions -/

def Connective.read? (nested : Bool) (j : Json) : Option Connective := do
  match ← choice? nested j with
  | "AND" => some .and
  | "OR" => some .or
  | _ => none

def LookupKind.word : LookupKind → String
  | .exact => "exact"
  | .gt => "gt"
  | .gte => "gte"
  | .lt => "lt"
  | .lte => "lte"
  | .contains => "contains"
  | .startsWith => "starts_with"
  | .endsWith => "ends_with"
  | .oneOf => "in"
  | .isNull => "is_null"

def LookupKind.all : List LookupKind :=
  [.exact, .gt, .gte, .lt, .lte, .contains, .startsWith, .endsWith, .oneOf, .isNull]

def LookupKind.read? (nested : Bool) (j : Json) : Option LookupKind := do
  let word ← choice? nested j
  LookupKind.all.find? fun kind => kind.word == word

def LookupKind.ofJson? : Json → Option LookupKind :=
  LookupKind.read? false

def Operand.toJson : Operand → Json
  | .list values => paramsToJson values
  | .single value => value.toJson

def Operand.ofJson? (j : Json) : Option Operand :=
  match j with
  | .list items => (items.mapM Value.ofJson?).map .list
  | other => (Value.ofJson? other).map .single

/-- The members of a lookup that follow its tag. -/
def Lookup.toMembers (l : Lookup) : Json.Members :=
  [("lhs", l.lhs.toJson), ("kind", .text l.kind.word), ("rhs", l.rhs.toJson)]

def Lookup.fields : List String :=
  ["lhs", "kind", "rhs"]

def Lookup.ofMembers? (nested : Bool) (members : Json.Members) : Option Lookup := do
  let lhs ← required? members "lhs" (Expr.read? nested)
  let kind ← required? members "kind" (LookupKind.read? nested)
  let rhs ← defaulted? members "rhs" (.single .null) Operand.ofJson?
  return { lhs, kind, rhs }

def Lookup.ofJson? (j : Json) : Option Lookup := do
  Lookup.ofMembers? false (← j.fields? Lookup.fields)

/-- The members of a group whose children are written already. -/
def groupMembers (connective : Connective) (negated grouped : Bool) (children : List Json) :
    Json.Members :=
  [("connector", .text connective.text), ("children", .list children), ("negated", .bool negated),
    ("grouped", .bool grouped)]

mutual

def Condition.toJson : Condition → Json
  | .group g => .object (("type", .text "node") :: Filter.toMembers g)
  | .lookup l => .object (("type", .text "lookup") :: l.toMembers)
  | .raw sql =>
    .object [("type", .text "raw"), ("sql", .text sql.text), ("params", paramsToJson sql.params)]
  | .everything => .object [("type", .text "everything")]
  | .nothing => .object [("type", .text "nothing")]

def Filter.toMembers : Filter → Json.Members
  | ⟨connective, children, negated, grouped⟩ =>
    groupMembers connective negated grouped (conditionsToJson children)

def conditionsToJson : List Condition → List Json
  | [] => []
  | c :: rest => c.toJson :: conditionsToJson rest

end

def Filter.toJson (f : Filter) : Json :=
  .object (Filter.toMembers f)

def Group.fields : List String :=
  ["connector", "children", "negated", "grouped"]

/-- The members of a group besides its children. -/
def Group.ofMembers? {α : Type} (nested : Bool) (members : Json.Members) (children : List α) :
    Option (Group α) := do
  let connective ← defaulted? members "connector" .and (Connective.read? nested)
  let negated ← defaulted? members "negated" false bool?
  let grouped ← defaulted? members "grouped" false bool?
  return { connective, children, negated, grouped }

/-- The values of the member `children`, none if it is absent. -/
def childValues? (members : Json.Members) : Option (List Json) :=
  match member? members "children" with
  | some (some (.list items)) => some items
  | some none => some []
  | _ => none

theorem sizeOf_lt_of_childValues? {nested : Bool} {variants : Json.Variants} {j : Json} {tag : String}
    {members : Json.Members} {items : List Json} {item : Json}
    (h : j.tagged? nested variants = some (tag, members)) (hitems : childValues? members = some items)
    (hmem : item ∈ items) : sizeOf item < sizeOf j := by
  unfold childValues? at hitems
  split at hitems
  · rename_i found hmember
    have hsame : found = items := by simpa using hitems
    subst hsame
    have hlist := Json.sizeOf_lt_of_member? h hmember
    have hitem := List.sizeOf_lt_of_mem hmem
    simp at hlist
    omega
  · have hnil : items = [] := by simpa using hitems.symm
    simp [hnil] at hmem
  · simp at hitems

def Condition.variants : Json.Variants :=
  [("node", Group.fields), ("lookup", Lookup.fields), ("raw", ["sql", "params"]), ("everything", []),
    ("nothing", [])]

def Condition.read? (nested : Bool) (j : Json) : Option Condition :=
  match _ : j.tagged? nested Condition.variants with
  | some ("node", members) =>
    match _ : childValues? members with
    | some items => do
      let children ← items.attach.mapM fun ⟨item, _⟩ => Condition.read? true item
      (Group.ofMembers? true members children).map .group
    | none => none
  | some ("lookup", members) => (Lookup.ofMembers? true members).map .lookup
  | some ("raw", members) => (Sql.ofMembers? members).map .raw
  | some ("everything", _) => some .everything
  | some ("nothing", _) => some .nothing
  | _ => none
termination_by sizeOf j
decreasing_by
  exact sizeOf_lt_of_childValues? ‹_› ‹_› ‹_›

def Condition.ofJson? : Json → Option Condition :=
  Condition.read? false

def Filter.ofJson? (j : Json) : Option Filter := do
  let members ← j.fields? Group.fields
  let children ← (← childValues? members).mapM Condition.ofJson?
  Group.ofMembers? false members children

/-! ### The parts of a plan -/

def optionToJson {α : Type} (write : α → Json) : Option α → Json
  | none => .null
  | some a => write a

def Join.toJson (j : Join) : Json :=
  .object [("parent_alias", optionToJson .text j.parent), ("table_name", .text j.table),
    ("join_cols", .list (j.columns.map fun (a, b) => .list [.text a, .text b])),
    ("table_alias", .text j.name)]

def columnPairOfJson? : Json → Option (String × String)
  | .list [.text a, .text b] => some (a, b)
  | _ => none

def Join.ofJson? (j : Json) : Option Join := do
  let members ← j.fields? ["parent_alias", "table_name", "join_cols", "table_alias"]
  let parent ← optional? members "parent_alias" text?
  let table ← required? members "table_name" text?
  let columns ← defaulted? members "join_cols" [] (listOf? columnPairOfJson?)
  let name ← required? members "table_alias" text?
  return { parent, table, columns, name }

def Model.toJson (m : Model) : Json :=
  .object [("db_table", .text m.table), ("tooling_api", .bool m.tooling),
    ("minimal_aliases", .bool m.minimal)]

def Model.ofJson? (j : Json) : Option Model := do
  let members ← j.fields? ["db_table", "tooling_api", "minimal_aliases"]
  let table ← required? members "db_table" text?
  let tooling ← defaulted? members "tooling_api" false bool?
  let minimal ← defaulted? members "minimal_aliases" false bool?
  return { table, tooling, minimal }

def Projection.toJson (p : Projection) : Json :=
  .object [("expr", p.expr.toJson), ("alias", optionToJson .text p.label)]

def Projection.ofJson? (j : Json) : Option Projection := do
  let members ← j.fields? ["expr", "alias"]
  let expr ← required? members "expr" Expr.ofJson?
  let label ← optional? members "alias" text?
  return { expr, label }

def NullsPlace.word : NullsPlace → String
  | .first => "first"
  | .last => "last"

def NullsPlace.ofJson? (j : Json) : Option NullsPlace := do
  match ← choice? false j with
  | "first" => some .first
  | "last" => some .last
  | _ => none

def SortKey.toJson (k : SortKey) : Json :=
  .object [("expr", k.expr.toJson), ("descending", .bool k.descending),
    ("nulls", optionToJson (fun place => .text place.word) k.nulls)]

def SortKey.ofJson? (j : Json) : Option SortKey := do
  let members ← j.fields? ["expr", "descending", "nulls"]
  let expr ← required? members "expr" Expr.ofJson?
  let descending ← defaulted? members "descending" false bool?
  let nulls ← optional? members "nulls" NullsPlace.ofJson?
  return { expr, descending, nulls }

/-- An object read as a dictionary: of members with one key the last counts. -/
def dictOfJson? {α : Type} (read : Json → Option α) (j : Json) : Option (Dict α) := do
  let members ← j.members?
  return .ofList (← members.mapM fun (key, value) => (read value).map (key, ·))

def dictToJson {α : Type} (write : α → Json) (d : Dict α) : Json :=
  .object (d.entries.map fun (key, value) => (key, write value))

def Explanation.toJson (e : Explanation) : Json :=
  .object [("format", optionToJson .text e.format), ("options", dictToJson .text e.options)]

def Explanation.ofJson? (j : Json) : Option Explanation := do
  let members ← j.fields? ["format", "options"]
  let format ← optional? members "format" text?
  let options ← defaulted? members "options" .empty (dictOfJson? text?)
  return { format, options }

def Options.toJson (o : Options) : Json :=
  .object [("query_all", .bool o.queryAll), ("all_or_none", optionToJson .bool o.allOrNone),
    ("edge_updates", .bool o.edgeUpdates), ("minimal_aliases", .bool o.minimal)]

def Options.ofJson? (j : Json) : Option Options := do
  let members ← j.fields? ["query_all", "all_or_none", "edge_updates", "minimal_aliases"]
  let queryAll ← defaulted? members "query_all" false bool?
  let allOrNone ← optional? members "all_or_none" bool?
  let edgeUpdates ← defaulted? members "edge_updates" false bool?
  let minimal ← defaulted? members "minimal_aliases" false bool?
  return { queryAll, allOrNone, edgeUpdates, minimal }

def wordToJson (n : UInt64) : Json :=
  .ofNat n.toNat

/-! ### Plans -/

def Plan.toMembers (p : Plan) : Json.Members :=
  [("model", optionToJson Model.toJson p.model),
    ("alias_map", .list (p.joins.map Join.toJson)),
    ("alias_refcount", dictToJson wordToJson p.references),
    ("select", .list (p.select.map Projection.toJson)),
    ("extra_select", .list (p.extraSelect.map Projection.toJson)),
    ("where", optionToJson Filter.toJson p.filter),
    ("group_by", .list (p.groupBy.map Expr.toJson)),
    ("having", optionToJson Filter.toJson p.having),
    ("order_by", .list (p.orderBy.map SortKey.toJson)),
    ("distinct", .bool p.distinct),
    ("distinct_fields", .list (p.distinctOn.map Expr.toJson)),
    ("low_mark", wordToJson p.window.low),
    ("high_mark", optionToJson wordToJson p.window.high),
    ("select_for_update", .bool p.forUpdate),
    ("select_for_update_nowait", .bool p.nowait),
    ("explain", optionToJson Explanation.toJson p.explain),
    ("options", p.options.toJson)]

def Plan.toJson (p : Plan) : Json :=
  .object p.toMembers

def Plan.ofJson? (j : Json) : Option Plan := do
  let members ← j.fields?
    ["model", "alias_map", "alias_refcount", "select", "extra_select", "where", "group_by", "having",
      "order_by", "distinct", "distinct_fields", "low_mark", "high_mark", "select_for_update",
      "select_for_update_nowait", "explain", "options"]
  let model ← optional? members "model" Model.ofJson?
  let joins ← defaulted? members "alias_map" [] (listOf? Join.ofJson?)
  let references ← defaulted? members "alias_refcount" .empty (dictOfJson? word?)
  let select ← defaulted? members "select" [] (listOf? Projection.ofJson?)
  let extraSelect ← defaulted? members "extra_select" [] (listOf? Projection.ofJson?)
  let filter ← optional? members "where" Filter.ofJson?
  let groupBy ← defaulted? members "group_by" [] (listOf? Expr.ofJson?)
  let having ← optional? members "having" Filter.ofJson?
  let orderBy ← defaulted? members "order_by" [] (listOf? SortKey.ofJson?)
  let distinct ← defaulted? members "distinct" false bool?
  let distinctOn ← defaulted? members "distinct_fields" [] (listOf? Expr.ofJson?)
  let low ← defaulted? members "low_mark" 0 word?
  let high ← optional? members "high_mark" word?
  let forUpdate ← defaulted? members "select_for_update" false bool?
  let nowait ← defaulted? members "select_for_update_nowait" false bool?
  let explain ← optional? members "explain" Explanation.ofJson?
  let options ← defaulted? members "options" {} Options.ofJson?
  return {
    model, joins, references, select, extraSelect, filter, groupBy, having, orderBy, distinct,
    distinctOn, window := { low, high }, forUpdate, nowait, explain, options }

end PathQuery
