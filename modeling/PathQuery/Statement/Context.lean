import PathQuery.Backend
import PathQuery.Filter
import PathQuery.Plan.Basic
import PathQuery.Settings.Basic
/-!
# What statements have in common

Every statement about existing rows names one table and may have a filter. The table is the root of the
relationship tree, or the plan's model where nothing is joined. Columns in the filter are renamed by the
naming that the plan and the settings ask for.
-/

namespace PathQuery

/-- What a plan is compiled for. -/
structure Context where
  backend : Backend
  settings : Settings
  capabilities : Capabilities

/-- The capabilities are those of the settings' version. -/
def Context.of (backend : Backend) (settings : Settings) : Context :=
  ⟨backend, settings, settings.capabilities⟩

/-- The root's table is left out if the query's options, the settings or the model say so. -/
def Plan.naming (p : Plan) (settings : Settings) (tree : Tree) : Naming where
  tree := tree
  minimal := p.options.minimal || settings.minimal || p.model.any Model.minimal
  minimalTables := settings.minimalTables
  strict := settings.strict

/-- The one table that a statement names. -/
def Plan.table (p : Plan) (tree : Tree) : Except StatementError String :=
  match tree.rootTable?, p.model with
  | some table, _ => .ok table
  | none, some model => .ok model.table
  | none, none => .error .noTable

/-- The text of a filter: empty if it holds of everything, and none at all if it holds of nothing. -/
def compileFilter (naming : Naming) (filter : Option Filter) : Report StatementError (Option Sql) := do
  match filter with
  | none => return some .empty
  | some filter =>
    match ← (Filter.compile { rename := naming.rename } filter).mapError .filter with
    | .sql sql _ => return some sql
    | .everything => return some .empty
    | .nothing => return none

/-- A fragment of a statement, renamed. -/
def renameIn (naming : Naming) (text : String) : Report StatementError String :=
  (naming.rename text).mapError .naming

end PathQuery
