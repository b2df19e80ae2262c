import PathQuery.Settings.Basic
import PathQuery.Text.Word
import PathQuery.Yaml.Node
/-!
# Settings in a file

A settings file is a mapping in YAML. A key that is known may occur once, and the others are left alone;
settings without a key take their defaults. Truth values and counts have to be plain scalars, while any
scalar is a text.
-/

namespace PathQuery

namespace Yaml

/-- The text of a scalar that stands for a value of a type: it is plain, or a block with the type's tag. -/
def Node.bare? (tag : String) : Node → Option String
  | .scalar s .plain _ => some s
  | .scalar s .literal (some t) => if t = tag then some s else none
  | _ => none

/-- Digits of a base, at least one, for a number of 64 bits. -/
def countInBase? (base : Nat) (digits : List Char) : Option Nat := do
  let values ← digits.mapM hexValue?
  let n := values.foldl (fun n d => base * n + d) 0
  if values ≠ [] ∧ values.all (· < base) ∧ n ≤ Decimal.maxWord then some n else none

namespace Document

def text? (d : Document) (node : Node) : Option String :=
  match d.follow node with
  | .scalar s _ _ => some s
  | _ => none

def bool? (d : Document) (node : Node) : Option Bool := do
  let s ← (d.follow node).bare? "tag:yaml.org,2002:bool"
  if s = "true" ∨ s = "True" ∨ s = "TRUE" then some true
  else if s = "false" ∨ s = "False" ∨ s = "FALSE" then some false
  else none

/-- A count in decimal, or with a mark for another base. A plus sign may precede it; a decimal one has no
leading zero. -/
def count? (d : Document) (node : Node) : Option Nat := do
  let s ← (d.follow node).bare? "tag:yaml.org,2002:int"
  let digits := match s.toList with
    | '+' :: rest => rest
    | digits => digits
  match digits with
  | '0' :: 'x' :: rest => countInBase? 16 rest
  | '0' :: 'o' :: rest => countInBase? 8 rest
  | '0' :: 'b' :: rest => countInBase? 2 rest
  | '0' :: _ :: _ => none
  | digits => countInBase? 10 digits

/-- A list of texts; a node that is left out is an empty list. -/
def texts? (d : Document) (node : Node) : Option (List String) :=
  match d.follow node with
  | .list items => items.mapM d.text?
  | .scalar "" .plain _ => some []
  | _ => none

/-- The entries of the document by the text of their keys; a document that is left out has none. -/
def entries? (d : Document) : Option (List (String × Node)) :=
  match d.root with
  | .mapping entries => entries.mapM fun (key, value) => (d.text? key).map (·, value)
  | .scalar "" .plain _ => some []
  | _ => none

end Document

/-- The value of a key that may occur once. -/
def single? {α : Type} (entries : List (String × Node)) (key : String) (fallback : α)
    (read : Node → Option α) : Option α :=
  match entries.filter (·.1 == key) with
  | [] => some fallback
  | [(_, value)] => read value
  | _ => none

end Yaml

namespace Settings

open Yaml (single?) in
/-- Reads settings without checking the rules. -/
def ofYaml? (text : String) : Option Settings := do
  let doc ← Yaml.parse? text
  let entries ← doc.entries?
  let d : Settings := {}
  let minimal ← single? entries "minimal_aliases" d.minimal doc.bool?
  let minimalTables ← single? entries "minimal_alias_tables" d.minimalTables doc.texts?
  let strict ← single? entries "strict_fragments" d.strict doc.bool?
  let chunkSize ← single? entries "chunk_size" d.chunkSize doc.count?
  let version ← single? entries "target_version" d.version fun node =>
    (doc.text? node).bind fun text => (Version.parse text).toOption
  return { minimal, minimalTables, strict, chunkSize, version }

/-- The settings of a file, given by its text if there is such a file. -/
def ofFile (text : Option String) : Except SettingsError Settings :=
  match text with
  | none => .error .noFile
  | some text =>
    match ofYaml? text with
    | none => .error .malformed
    | some s => s.validate

end Settings

end PathQuery
