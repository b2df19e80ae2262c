import PathQuery.Plan.Basic
import PathQuery.Predicate
import PathQuery.Proofs.Relation.Paths
import PathQuery.Proofs.Renaming
/-!
# Renaming is substitution

An expression is rendered as text first, and the text is then read again to rename its column. The same
text comes from replacing the column in the expression by its qualified name and rendering the result:
what is rendered always stays inside the grammar of fragments, whatever the nesting of functions and
whatever comparison or sort direction follows.
-/

namespace PathQuery

open Text (IsWord joinWith)

/-- What an alias stands for: its path, behind the root's table unless that is left out. -/
def Naming.standsFor (n : Naming) (name : String) : String :=
  ((if n.isMinimal name then n.tree.path? name else n.tree.qualifiedPath? name)).getD ""

/-- The alias of a resolved tree is always replaced by what it stands for. -/
theorem Naming.qualifier_eq {n : Naming} {joins : List Join} (h : Tree.resolve joins = .ok n.tree)
    {name : String} (hname : name ∈ joins.map Join.name) : n.qualifier name = .ok (n.standsFor name) := by
  obtain ⟨path, hpath⟩ := Tree.exists_path? h hname
  obtain ⟨table, htable⟩ := Tree.exists_rootTable? h hpath
  have hfull := Tree.qualifiedPath?_of_path? hpath htable
  have hroot := Tree.path?_eq_empty_iff h hpath
  rw [qualifier, standsFor, hfull, hpath]
  cases hminimal : n.isMinimal name with
  | false => rfl
  | true =>
    by_cases hempty : path = ""
    · have hisRoot : n.tree.isRoot name := by
        rw [Tree.isRoot, hroot.1 hempty, beq_self_eq_true]
      simp [hisRoot, hempty]
    · have hisRoot : n.tree.isRoot name = false := by
        rw [Tree.isRoot, beq_eq_false_iff_ne]
        exact fun heq => hempty (hroot.2 heq)
      have hqualify : Tree.qualify table path = table ++ ("." ++ path) := by
        rw [Tree.qualify, if_neg hempty, String.append_assoc]
      have hrest : Text.afterHead? table (table ++ ("." ++ path)) = some ("." ++ path) :=
        Text.afterHead?_eq_some_iff.2 rfl
      have hdot : Text.afterHead? "." ("." ++ path) = some path :=
        Text.afterHead?_eq_some_iff.2 rfl
      simp [hisRoot, Tree.root_qualifiedPath? h hpath htable, hqualify, hrest, hdot]

namespace Fragment

/-- The fragment as the argument of one more call. -/
def inCall (function : String) (f : Fragment) : Fragment :=
  { f with functions := function :: f.functions, closings := f.closings + 1 }

def followedBy (tail : Option Tail) (f : Fragment) : Fragment :=
  { f with tail }

/-- What a tail adds to a text. -/
def tailText (tail : Option Tail) : String :=
  tail.elim "" (" " ++ ·.text)

/-- A call encloses a text that ends in the parentheses of the calls inside it. -/
theorem inCall_spell {f : Fragment} (function : String) (htail : f.tail = none) (core : String) :
    function ++ "(" ++ (f.head ++ core ++ f.ending) ++ ")" =
      (f.inCall function).head ++ core ++ (f.inCall function).ending := by
  have hhead : (f.inCall function).head = function ++ "(" ++ f.head := by
    rw [head, inCall, List.map_cons, Text.joinWith_empty_cons, head]
  have hending : (f.inCall function).ending = f.ending ++ ")" := by
    simp only [ending, inCall, htail, Option.elim_none, String.append_empty]
    rw [List.replicate_succ', String.ofList_append]
  rw [hhead, hending]
  simp only [String.append_assoc]

theorem followedBy_ending {f : Fragment} (tail : Option Tail) (htail : f.tail = none) :
    (f.followedBy tail).ending = f.ending ++ tailText tail := by
  simp only [ending, followedBy, htail, Option.elim_none, String.append_empty, tailText]

end Fragment

namespace Expr

/-- The expression with its column replaced by the column's qualified name. -/
def substitute (n : Naming) : Expr → Expr
  | .column source field => .raw (.plain (Naming.qualified (n.standsFor source) field))
  | .call function argument => .call function (argument.substitute n)
  | .countAll => .countAll
  | .raw sql => .raw sql

/-- Expressions without raw text whose names are words and whose aliases are `known`. -/
def Plain (known : List String) : Expr → Prop
  | .column source field => IsWord source ∧ IsWord field ∧ source ∈ known
  | .call function argument => IsWord function ∧ argument.Plain known
  | .countAll => True
  | .raw _ => False

instance decidablePlain (known : List String) : (e : Expr) → Decidable (e.Plain known)
  | .column source field => inferInstanceAs (Decidable (IsWord source ∧ IsWord field ∧ source ∈ known))
  | .call function argument =>
    have := decidablePlain known argument
    inferInstanceAs (Decidable (IsWord function ∧ argument.Plain known))
  | .countAll => .isTrue trivial
  | .raw _ => .isFalse id

/-- The fragment that a plain expression is rendered as. -/
def fragment : Expr → Fragment
  | .column source field => ⟨[], [source, field], 0, none⟩
  | .call function argument => argument.fragment.inCall function
  | .countAll => ⟨["COUNT"], [primaryKey], 1, none⟩
  | .raw _ => ⟨[], [], 0, none⟩

variable {known : List String} {n : Naming} {e : Expr}

theorem fragment_tail (e : Expr) : e.fragment.tail = none := by
  induction e with
  | call function argument ih => exact ih
  | column | countAll | raw => rfl

theorem fragment_valid (he : e.Plain known) : e.fragment.Valid := by
  induction e with
  | column source field =>
    exact ⟨List.forall_mem_nil _, List.cons_ne_nil _ _,
      List.forall_mem_cons.2 ⟨he.1, List.forall_mem_singleton.2 he.2.1⟩, by simp [fragment]⟩
  | call function argument ih =>
    have hinner := ih he.2
    exact ⟨List.forall_mem_cons.2 ⟨he.1, hinner.functions⟩, hinner.path_ne, hinner.path, hinner.tail⟩
  | countAll =>
    exact ⟨List.forall_mem_singleton.2 (by decide), List.cons_ne_nil _ _,
      List.forall_mem_singleton.2 (by decide), by simp [fragment]⟩
  | raw sql => exact he.elim

theorem render_text (he : e.Plain known) : e.render.text = e.fragment.text := by
  induction e with
  | column source field => exact (String.append_empty (s := source ++ "." ++ field)).symm
  | call function argument ih =>
    rw [render, ih he.2]
    exact Fragment.inCall_spell function argument.fragment_tail _
  | countAll => rfl
  | raw sql => exact he.elim

/-- Either the expression counts rows, and nothing is replaced in it, or it is about one column. -/
theorem substitute_cases (n : Naming) (he : e.Plain known) :
    (e.fragment.path = [primaryKey] ∧ e.substitute n = e) ∨
      ∃ source field, source ∈ known ∧ e.fragment.path = [source, field] ∧
        (e.substitute n).render.text =
          e.fragment.head ++ Naming.qualified (n.standsFor source) field ++ e.fragment.ending := by
  induction e with
  | column source field =>
    refine .inr ⟨source, field, he.2.2, rfl, ?_⟩
    exact (String.append_empty (s := Naming.qualified (n.standsFor source) field)).symm
  | call function argument ih =>
    rcases ih he.2 with ⟨hpath, hsame⟩ | ⟨source, field, hknown, hpath, htext⟩
    · exact .inl ⟨hpath, congrArg (call function) hsame⟩
    · refine .inr ⟨source, field, hknown, hpath, ?_⟩
      rw [substitute, render, htext]
      exact Fragment.inCall_spell function argument.fragment_tail _
  | countAll => exact .inl ⟨rfl, rfl⟩
  | raw sql => exact he.elim

theorem parse?_render (he : e.Plain known) {tail : Option Tail} (htail : ∀ t ∈ tail, t.Valid) :
    Fragment.parse? (e.render.text ++ Fragment.tailText tail) = some (e.fragment.followedBy tail) := by
  have hvalid := fragment_valid he
  have htext : (e.fragment.followedBy tail).text = e.render.text ++ Fragment.tailText tail := by
    rw [render_text he, Fragment.text, Fragment.followedBy_ending tail e.fragment_tail, ← String.append_assoc]
    rfl
  rw [Fragment.parse?_eq_some_iff]
  exact ⟨⟨hvalid.functions, hvalid.path_ne, hvalid.path, htail⟩, htext⟩

/-- Rendering and renaming is rendering with the column replaced. -/
theorem rename_render {joins : List Join} (hresolve : Tree.resolve joins = .ok n.tree)
    (he : e.Plain (joins.map Join.name)) {tail : Option Tail} (htail : ∀ t ∈ tail, t.Valid) :
    n.rename (e.render.text ++ Fragment.tailText tail) =
      pure ((e.substitute n).render.text ++ Fragment.tailText tail) := by
  have hparse := parse?_render he htail
  rcases substitute_cases n he with ⟨hpath, hsame⟩ | ⟨source, field, hsource, hpath, htext⟩
  · rw [hsame]
    exact Naming.rename_word hparse hpath
  · obtain ⟨path, hknown⟩ := Tree.exists_path? hresolve hsource
    have hsplit : n.split? (e.fragment.followedBy tail).path = some (source, field) := by
      show n.split? e.fragment.path = some (source, field)
      rw [hpath]
      exact if_pos (by rw [hknown]; rfl)
    rw [Naming.rename_path hparse hsplit (Naming.qualifier_eq hresolve hsource), htext,
      Fragment.followedBy_ending tail e.fragment_tail, ← String.append_assoc]
    rfl

theorem rename_render_alone {joins : List Join} (hresolve : Tree.resolve joins = .ok n.tree)
    (he : e.Plain (joins.map Join.name)) :
    n.rename e.render.text = pure (e.substitute n).render.text := by
  have hnone : ∀ t ∈ (none : Option Tail), t.Valid := by
    intro t ht
    cases ht
  have hrename := rename_render hresolve he hnone
  rw [Fragment.tailText, Option.elim_none, String.append_empty, String.append_empty] at hrename
  exact hrename

theorem substitute_params (n : Naming) (e : Expr) : (e.substitute n).render.params = e.render.params := by
  induction e with
  | call function argument ih => exact ih
  | column | countAll | raw => rfl

end Expr

/-! ### Sort keys and lookups -/

def SortKey.substitute (n : Naming) (key : SortKey) : SortKey :=
  { key with expr := key.expr.substitute n }

def Lookup.substitute (n : Naming) (l : Lookup) : Lookup :=
  { l with lhs := l.lhs.substitute n }

theorem SortKey.rename_render {n : Naming} {joins : List Join} (hresolve : Tree.resolve joins = .ok n.tree)
    {key : SortKey} (hkey : key.expr.Plain (joins.map Join.name)) :
    n.rename key.render.text = pure (key.substitute n).render.text := by
  have htail : ∀ t ∈ some (Tail.ordering key.descending key.nulls), t.Valid := by
    intro t ht
    cases ht
    trivial
  have hrename := Expr.rename_render hresolve hkey htail
  rw [Fragment.tailText, Option.elim_some, ← String.append_assoc, ← String.append_assoc] at hrename
  exact hrename

/-- The tails of lookups, with the values of their placeholders. -/
inductive Compares : Tail → List Value → Prop
  | null (negated : Bool) : Compares (.nullCheck negated) []
  | member (values : List Value) :
    Compares (.oneOf false (Sql.placeholders values.length ++ ")")) values
  | operator {kind : LookupKind} {operator : String} (h : Lookup.operator? kind = some operator)
    (value : Value) : Compares (.comparison operator) [value]
  | pattern (value : Value) : Compares .like [value]

theorem Compares.valid {tail : Tail} {values : List Value} (h : Compares tail values) : tail.Valid := by
  cases h with
  | null | member | pattern => trivial
  | @operator kind operator hoperator value =>
    cases kind <;> cases hoperator <;> exact ⟨by decide, List.all_eq_true.1 (by decide)⟩

namespace Lookup

theorem predicate_operator {kind : LookupKind} {operator : String} (h : operator? kind = some operator)
    {value : Value} (hvalue : kind = .exact → value ≠ .null) (lhs : Expr) :
    predicate ⟨lhs, kind, .single value⟩ = .ok (.sql
      ⟨lhs.render.text ++ " " ++ (operator ++ " %s"), lhs.render.params ++ [value]⟩ false) := by
  cases kind with
  | exact =>
    cases h
    cases value with
    | null => exact absurd rfl (hvalue rfl)
    | bool | integer | float | text => rfl
  | gt | gte | lt | lte =>
    cases h
    rfl
  | contains | startsWith | endsWith | oneOf | isNull => cases h

theorem predicate_pattern {kind : LookupKind} {text pattern : String} (h : pattern? text kind = some pattern)
    (lhs : Expr) :
    predicate ⟨lhs, kind, .single (.text text)⟩ = .ok (.sql
      ⟨lhs.render.text ++ " " ++ "LIKE %s", lhs.render.params ++ [.text pattern]⟩ false) := by
  cases kind with
  | contains | startsWith | endsWith =>
    cases h
    rfl
  | exact | gt | gte | lt | lte | oneOf | isNull => cases h

theorem predicate_member {values : List Value} (hvalues : values ≠ []) (lhs : Expr) :
    predicate ⟨lhs, .oneOf, .list values⟩ = .ok (.sql
      ⟨lhs.render.text ++ " " ++ ("IN (" ++ Sql.placeholders values.length ++ ")"),
        lhs.render.params ++ values⟩ false) := by
  cases values with
  | nil => exact absurd rfl hvalues
  | cons value values => rfl

/-- The text of a lookup is that of its column and a tail that does not depend on the column. -/
theorem predicate_cases {l : Lookup} {outcome : Outcome} (h : l.predicate = .ok outcome) :
    outcome = .nothing ∨ ∃ tail values, Compares tail values ∧ ∀ lhs : Expr,
      predicate { l with lhs } =
        .ok (.sql ⟨lhs.render.text ++ " " ++ tail.text, lhs.render.params ++ values⟩ false) := by
  obtain ⟨lhs, kind, rhs⟩ := l
  rw [predicate] at h
  dsimp only at h
  split at h
  · exact .inr ⟨_, _, .null false, fun lhs => rfl⟩
  · rename_i isNull
    refine .inr ⟨_, _, .null !isNull, fun lhs => ?_⟩
    cases isNull <;> rfl
  · cases h
  · cases h
    exact .inl rfl
  · rename_i values hvalues
    refine .inr ⟨_, _, .member values, fun lhs => ?_⟩
    have htail : (Tail.oneOf false (Sql.placeholders values.length ++ ")")).text =
        "IN (" ++ Sql.placeholders values.length ++ ")" := by
      rw [Tail.text, String.append_assoc]
      rfl
    rw [htail]
    exact predicate_member hvalues lhs
  · cases h
  · rename_i hexact _ _ _ _
    cases hoperator : operator? kind with
    | some operator =>
      rw [hoperator] at h
      cases rhs with
      | list values => cases h
      | single value =>
        have hnull := fun hkind hvalue => hexact hkind (congrArg Operand.single hvalue)
        exact .inr ⟨_, _, .operator hoperator value, predicate_operator hoperator hnull⟩
    | none =>
      rw [hoperator] at h
      cases rhs with
      | list values => cases h
      | single value =>
        cases value with
        | text text =>
          dsimp only at h
          cases hpattern : pattern? text kind with
          | none =>
            rw [hpattern] at h
            cases h
          | some pattern =>
            exact .inr ⟨_, _, .pattern (.text pattern), predicate_pattern hpattern⟩
        | null | bool | integer | float => cases h

theorem rename_predicate {n : Naming} {joins : List Join} (hresolve : Tree.resolve joins = .ok n.tree)
    {l : Lookup} (hl : l.lhs.Plain (joins.map Join.name)) {sql : Sql} {resolved : Bool}
    (h : l.predicate = .ok (.sql sql resolved)) :
    ∃ text, resolved = false ∧ n.rename sql.text = pure text ∧
      (l.substitute n).predicate = .ok (.sql ⟨text, sql.params⟩ false) := by
  rcases predicate_cases h with hnothing | ⟨tail, values, htail, hpredicate⟩
  · cases hnothing
  · have hsql := h.symm.trans (hpredicate l.lhs)
    cases hsql
    have hvalid : ∀ t ∈ some tail, t.Valid := by
      intro t ht
      cases ht
      exact htail.valid
    have hrename := Expr.rename_render hresolve hl hvalid
    rw [Fragment.tailText, Option.elim_some, ← String.append_assoc, ← String.append_assoc] at hrename
    refine ⟨_, rfl, hrename, ?_⟩
    rw [substitute, hpredicate, Expr.substitute_params]

end Lookup

end PathQuery
