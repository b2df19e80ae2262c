import PathQuery.Predicate
/-!
# Compiling conditions

A condition compiles to text, or is found to hold of everything or of nothing, which lets whole clauses
and whole queries be left out. A group goes through its children from left to right and stops as soon as
its outcome is settled: two countdowns say how many more children that hold of everything, or of
nothing, would settle it. Text of leaves is renamed at once; text of groups is named already.
-/

namespace PathQuery

/-- What the compilation of conditions depends on: how fragments are renamed and how lookups become
predicates. -/
structure FilterRules where
  rename : String → Report NamingError String
  leaf : Lookup → Except FilterError Outcome := Lookup.predicate

/-- How many more children that hold of everything make the whole group hold of everything, and how many
more that hold of nothing make it hold of nothing. -/
structure Tally where
  full : Nat
  empty : Nat
  deriving DecidableEq, Repr

def Tally.start (connective : Connective) (count : Nat) : Tally :=
  match connective with
  | .and => ⟨count, 1⟩
  | .or => ⟨1, count⟩

/-- A group on the way through its children: the countdowns, and the texts and values of the children
that count. -/
structure Progress where
  tally : Tally
  parts : List String := []
  params : List Value := []

namespace Progress

/-- Takes the outcome of the next child into account. A child with empty text holds of everything. -/
def absorb (rules : FilterRules) (p : Progress) : Outcome → Report FilterError Progress
  | .nothing => pure { p with tally.empty := p.tally.empty - 1 }
  | .everything => pure { p with tally.full := p.tally.full - 1 }
  | .sql sql resolved =>
    if sql.isEmpty then pure { p with tally.full := p.tally.full - 1 }
    else do
      let text ← if resolved then pure sql.text else (rules.rename sql.text).mapError .naming
      return { p with parts := p.parts ++ [text], params := p.params ++ sql.params }

/-- The outcome of a group when it is settled before its end. -/
def settled? (negated : Bool) (p : Progress) : Option Outcome :=
  if p.tally.empty = 0 then some (if negated then .everything else .nothing)
  else if p.tally.full = 0 then some (if negated then .nothing else .everything)
  else none

/-- The outcome of a group after all of its children. A negation is always enclosed in parentheses. -/
def finish (connective : Connective) (negated grouped : Bool) (p : Progress) : Outcome :=
  let joined := Text.joinWith (" " ++ connective.text ++ " ") p.parts
  if joined = "" then .everything
  else
    let text :=
      if negated then "(NOT (" ++ joined ++ "))"
      else if 1 < p.parts.length ∨ grouped then "(" ++ joined ++ ")"
      else joined
    .sql ⟨text, p.params⟩ true

end Progress

mutual

def Condition.compile (rules : FilterRules) : Condition → Report FilterError Outcome
  | .group g => Filter.compile rules g
  | .lookup l => .ofExcept (rules.leaf l)
  | .raw sql => pure (.sql sql false)
  | .everything => pure .everything
  | .nothing => pure .nothing

def Filter.compile (rules : FilterRules) : Filter → Report FilterError Outcome
  | ⟨connective, children, negated, grouped⟩ =>
    compileChildren rules connective negated grouped
      { tally := .start connective children.length } children

/-- The rest of a group's children, from left to right. -/
def compileChildren (rules : FilterRules) (connective : Connective) (negated grouped : Bool)
    (p : Progress) : List Condition → Report FilterError Outcome
  | [] => pure (p.finish connective negated grouped)
  | c :: rest => do
    let p ← p.absorb rules (← c.compile rules)
    match p.settled? negated with
    | some outcome => pure outcome
    | none => compileChildren rules connective negated grouped p rest

end

end PathQuery
