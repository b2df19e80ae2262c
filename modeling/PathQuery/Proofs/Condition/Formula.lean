import Mathlib.Data.List.Nodup
import PathQuery.Condition
import PathQuery.Proofs.Text
/-!
# Formulas

A formula is a boolean tree over any kind of leaves. Filters are formulas over conditions, and the text
that they compile to spells a formula over pieces of text, so that one definition says what both mean. A
group without parts holds of everything, negated or not.
-/

namespace PathQuery

/-- Where a leaf stands in a tree: the number of its branch at each level, the innermost first. -/
abbrev Place := List Nat

inductive Formula (α : Type)
  | leaf (a : α)
  | group (connective : Connective) (negated grouped : Bool) (parts : List (Formula α))

def Connective.combine : Connective → List Bool → Bool
  | .and, values => values.all id
  | .or, values => values.any id

/-- What stands between two parts of a group. -/
def Connective.between : Connective → String
  | .and => " AND "
  | .or => " OR "

theorem Connective.between_eq (connective : Connective) : connective.between = " " ++ connective.text ++ " " := by
  cases connective with
  | and => rfl
  | or => rfl

/-- The text of a group with these parts. -/
def Connective.spell (connective : Connective) (negated grouped : Bool) (parts : List String) : String :=
  let joined := Text.joinWith connective.between parts
  if negated then "(NOT (" ++ joined ++ "))"
  else if 1 < parts.length ∨ grouped then "(" ++ joined ++ ")"
  else joined

namespace Formula

variable {α β : Type}

mutual

/-- The value of a tree from the values of its leaves. -/
def fold (leaf : α → β) (group : Connective → Bool → Bool → List β → β) : Formula α → β
  | .leaf a => leaf a
  | .group connective negated grouped parts =>
    group connective negated grouped (foldAll leaf group parts)

def foldAll (leaf : α → β) (group : Connective → Bool → Bool → List β → β) :
    List (Formula α) → List β
  | [] => []
  | part :: rest => part.fold leaf group :: foldAll leaf group rest

end

theorem foldAll_eq_map (leaf : α → β) (group : Connective → Bool → Bool → List β → β)
    (parts : List (Formula α)) : foldAll leaf group parts = parts.map (fold leaf group) := by
  induction parts with
  | nil => rfl
  | cons part rest ih => rw [foldAll, ih, List.map_cons]

def eval (v : α → Bool) : Formula α → Bool :=
  fold v fun connective negated _ values => values.isEmpty || (negated ^^ connective.combine values)

/-- The leaves from left to right. -/
def leaves : Formula α → List α :=
  fold (fun a => [a]) fun _ _ _ => List.flatten

def text : Formula (Place × Sql) → String :=
  fold (fun piece => piece.2.text) Connective.spell

def params (f : Formula (Place × Sql)) : List Value :=
  f.leaves.flatMap fun piece => piece.2.params

theorem eval_group (v : α → Bool) (connective : Connective) (negated grouped : Bool)
    (parts : List (Formula α)) :
    (group connective negated grouped parts).eval v =
      (parts.isEmpty || (negated ^^ connective.combine (parts.map (eval v)))) := by
  rw [eval, fold, foldAll_eq_map, List.isEmpty_map]

@[simp] theorem leaves_leaf (a : α) : (leaf a).leaves = [a] := rfl

@[simp] theorem leaves_group (connective : Connective) (negated grouped : Bool)
    (parts : List (Formula α)) : (group connective negated grouped parts).leaves = parts.flatMap leaves := by
  rw [leaves, fold, foldAll_eq_map, List.flatMap_def]

@[simp] theorem text_group (connective : Connective) (negated grouped : Bool)
    (parts : List (Formula (Place × Sql))) :
    (group connective negated grouped parts).text = connective.spell negated grouped (parts.map text) := by
  rw [text, fold, foldAll_eq_map]

@[simp] theorem params_leaf (piece : Place × Sql) : (leaf piece).params = piece.2.params := by
  rw [params, leaves_leaf, List.flatMap_singleton]

@[simp] theorem params_group (connective : Connective) (negated grouped : Bool)
    (parts : List (Formula (Place × Sql))) :
    (group connective negated grouped parts).params = parts.flatMap params := by
  rw [params, leaves_group, List.flatMap_assoc]
  rfl

end Formula

/-! ### Filters as formulas -/

mutual

def Condition.formula (here : Place) : Condition → Formula (Place × Condition)
  | .group g => Filter.formula here g
  | .lookup l => .leaf (here, .lookup l)
  | .raw sql => .leaf (here, .raw sql)
  | .everything => .leaf (here, .everything)
  | .nothing => .leaf (here, .nothing)

def Filter.formula (here : Place) : Filter → Formula (Place × Condition)
  | ⟨connective, children, negated, grouped⟩ =>
    .group connective negated grouped (formulasOfAll here 0 children)

/-- The branches of a group from a number on. -/
def formulasOfAll (here : Place) (next : Nat) : List Condition → List (Formula (Place × Condition))
  | [] => []
  | c :: rest => c.formula (next :: here) :: formulasOfAll here (next + 1) rest

end

mutual

theorem Condition.place_of_mem_leaves (here : Place) (c : Condition) :
    ∀ leaf ∈ (c.formula here).leaves, here <:+ leaf.1 := by
  cases c with
  | group g => exact Filter.place_of_mem_leaves here g
  | lookup | raw | everything | nothing =>
    intro leaf hleaf
    rw [Condition.formula, Formula.leaves_leaf, List.mem_singleton] at hleaf
    exact hleaf ▸ List.suffix_refl here

theorem Filter.place_of_mem_leaves (here : Place) (g : Filter) :
    ∀ leaf ∈ (g.formula here).leaves, here <:+ leaf.1 := by
  obtain ⟨connective, children, negated, grouped⟩ := g
  intro leaf hleaf
  rw [Filter.formula, Formula.leaves_group] at hleaf
  obtain ⟨i, -, hplace⟩ := place_of_mem_branches here 0 children leaf hleaf
  exact (List.suffix_cons i here).trans hplace

theorem place_of_mem_branches (here : Place) (next : Nat) (children : List Condition) :
    ∀ leaf ∈ (formulasOfAll here next children).flatMap Formula.leaves,
      ∃ i ≥ next, i :: here <:+ leaf.1 := by
  cases children with
  | nil =>
    intro leaf hleaf
    cases hleaf
  | cons c rest =>
    intro leaf hleaf
    rw [formulasOfAll, List.flatMap_cons, List.mem_append] at hleaf
    rcases hleaf with hleaf | hleaf
    · exact ⟨next, Nat.le_refl next, c.place_of_mem_leaves _ leaf hleaf⟩
    · obtain ⟨i, hi, hplace⟩ := place_of_mem_branches here (next + 1) rest leaf hleaf
      exact ⟨i, Nat.le_of_succ_le hi, hplace⟩

end

mutual

/-- No two leaves stand at the same place. -/
theorem Condition.places_nodup (here : Place) (c : Condition) :
    ((c.formula here).leaves.map Prod.fst).Nodup := by
  cases c with
  | group g => exact Filter.places_nodup here g
  | lookup | raw | everything | nothing => exact List.nodup_singleton _

theorem Filter.places_nodup (here : Place) (g : Filter) :
    ((g.formula here).leaves.map Prod.fst).Nodup := by
  obtain ⟨connective, children, negated, grouped⟩ := g
  rw [Filter.formula, Formula.leaves_group]
  exact branches_places_nodup here 0 children

theorem branches_places_nodup (here : Place) (next : Nat) (children : List Condition) :
    (((formulasOfAll here next children).flatMap Formula.leaves).map Prod.fst).Nodup := by
  cases children with
  | nil => exact List.nodup_nil
  | cons c rest =>
    rw [formulasOfAll, List.flatMap_cons, List.map_append, List.nodup_append']
    refine ⟨c.places_nodup _, branches_places_nodup here (next + 1) rest, ?_⟩
    -- A place in the first branch ends in that branch's number, one in a later branch in a larger one.
    intro place hfirst hlater
    obtain ⟨leaf, hleaf, rfl⟩ := List.mem_map.1 hfirst
    obtain ⟨other, hother, hsame⟩ := List.mem_map.1 hlater
    have hhere := c.place_of_mem_leaves _ leaf hleaf
    obtain ⟨i, hi, hthere⟩ := place_of_mem_branches here (next + 1) rest other hother
    rw [hsame] at hthere
    have hbranch := (List.suffix_of_suffix_length_le hhere hthere (Nat.le_refl _)).eq_of_length rfl
    cases hbranch
    omega

end

/-- A leaf is a lookup on one of the columns, text or a constant. -/
def Condition.IsLeaf (columns : List Expr) : Condition → Prop
  | .group _ => False
  | .lookup l => l.lhs ∈ columns
  | .raw _ | .everything | .nothing => True

theorem Condition.IsLeaf.mono {columns more : List Expr} (hsub : columns ⊆ more) {c : Condition}
    (h : c.IsLeaf columns) : c.IsLeaf more := by
  cases c with
  | group g => exact h
  | lookup l => exact hsub h
  | raw | everything | nothing => trivial

mutual

theorem Condition.isLeaf_of_mem_leaves (here : Place) (c : Condition) :
    ∀ leaf ∈ (c.formula here).leaves, leaf.2.IsLeaf c.columns := by
  cases c with
  | group g => exact Filter.isLeaf_of_mem_leaves here g
  | lookup l =>
    intro leaf hleaf
    cases List.mem_singleton.1 hleaf
    exact List.mem_cons_self
  | raw | everything | nothing =>
    intro leaf hleaf
    cases List.mem_singleton.1 hleaf
    trivial

theorem Filter.isLeaf_of_mem_leaves (here : Place) (g : Filter) :
    ∀ leaf ∈ (g.formula here).leaves, leaf.2.IsLeaf g.columns := by
  obtain ⟨connective, children, negated, grouped⟩ := g
  rw [Filter.formula, Formula.leaves_group]
  exact isLeaf_of_mem_branches here 0 children

theorem isLeaf_of_mem_branches (here : Place) (next : Nat) (children : List Condition) :
    ∀ leaf ∈ (formulasOfAll here next children).flatMap Formula.leaves,
      leaf.2.IsLeaf (columnsOfAll children) := by
  cases children with
  | nil =>
    intro leaf hleaf
    cases hleaf
  | cons c rest =>
    intro leaf hleaf
    rw [formulasOfAll, List.flatMap_cons, List.mem_append] at hleaf
    rcases hleaf with hleaf | hleaf
    · exact (c.isLeaf_of_mem_leaves _ leaf hleaf).mono (List.subset_append_left _ _)
    · exact (isLeaf_of_mem_branches here (next + 1) rest leaf hleaf).mono (List.subset_append_right _ _)

end

end PathQuery
