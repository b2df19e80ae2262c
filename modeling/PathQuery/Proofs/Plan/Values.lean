import Mathlib.Data.List.Basic
import PathQuery.Plan.Basic
/-!
# The values inside of a plan

Values stand in a plan at any depth: as parameters of raw text, and as what lookups compare with. `values`
lists them from left to right, and `mapValues` replaces each of them and nothing else. A plan is left as it is
by a replacement exactly when every one of its values is, which is what `mapValues_eq_self_iff` says of each
part of a plan.
-/

namespace PathQuery

section Collections

variable {α : Type} {f : Value → Value} {g : α → α} {values : α → List Value}

theorem map_eq_self_iff {l : List α} : l.map g = l ↔ ∀ a ∈ l, g a = a := by
  simpa using List.map_inj_left (f := g) (g := id) (l := l)

theorem map_eq_self_iff_flatMap (h : ∀ a, g a = a ↔ ∀ v ∈ values a, f v = v) (l : List α) :
    l.map g = l ↔ ∀ v ∈ l.flatMap values, f v = v := by
  simp only [map_eq_self_iff, h, List.mem_flatMap]
  constructor
  · intro hfixed v hv
    obtain ⟨a, ha, hva⟩ := hv
    exact hfixed a ha v hva
  · intro hfixed a ha v hva
    exact hfixed v ⟨a, ha, hva⟩

theorem map_eq_self_iff_elim (h : ∀ a, g a = a ↔ ∀ v ∈ values a, f v = v) (o : Option α) :
    o.map g = o ↔ ∀ v ∈ o.elim [] values, f v = v := by
  cases o with
  | none => simp
  | some a => simp [h]

end Collections

/-! ### Expressions -/

def Sql.mapValues (f : Value → Value) (sql : Sql) : Sql :=
  { sql with params := sql.params.map f }

theorem Sql.mapValues_eq_self_iff {f : Value → Value} (sql : Sql) :
    sql.mapValues f = sql ↔ ∀ v ∈ sql.params, f v = v := by
  obtain ⟨text, params⟩ := sql
  simp only [Sql.mapValues, Sql.mk.injEq, true_and, map_eq_self_iff]

namespace Expr

def values : Expr → List Value
  | .column _ _ => []
  | .call _ argument => argument.values
  | .countAll => []
  | .raw sql => sql.params

def mapValues (f : Value → Value) : Expr → Expr
  | .column source field => .column source field
  | .call function argument => .call function (argument.mapValues f)
  | .countAll => .countAll
  | .raw sql => .raw (sql.mapValues f)

theorem mapValues_eq_self_iff {f : Value → Value} (e : Expr) :
    e.mapValues f = e ↔ ∀ v ∈ e.values, f v = v := by
  induction e with
  | column source field => simp [mapValues, values]
  | call function argument ih => simpa [mapValues, values] using ih
  | countAll => simp [mapValues, values]
  | raw sql => simpa [mapValues, values] using sql.mapValues_eq_self_iff

end Expr

/-! ### Conditions -/

namespace Operand

def values : Operand → List Value
  | .list values => values
  | .single value => [value]

def mapValues (f : Value → Value) : Operand → Operand
  | .list values => .list (values.map f)
  | .single value => .single (f value)

theorem mapValues_eq_self_iff {f : Value → Value} (rhs : Operand) :
    rhs.mapValues f = rhs ↔ ∀ v ∈ rhs.values, f v = v := by
  cases rhs with
  | list values => simp only [mapValues, Operand.values, Operand.list.injEq, map_eq_self_iff]
  | single value => simp [mapValues, values]

end Operand

namespace Lookup

def values (l : Lookup) : List Value :=
  l.lhs.values ++ l.rhs.values

def mapValues (f : Value → Value) (l : Lookup) : Lookup :=
  { l with lhs := l.lhs.mapValues f, rhs := l.rhs.mapValues f }

theorem mapValues_eq_self_iff {f : Value → Value} (l : Lookup) :
    l.mapValues f = l ↔ ∀ v ∈ l.values, f v = v := by
  obtain ⟨lhs, kind, rhs⟩ := l
  simp only [mapValues, values, Lookup.mk.injEq, true_and, lhs.mapValues_eq_self_iff,
    rhs.mapValues_eq_self_iff, List.forall_mem_append]

end Lookup

mutual

def Condition.values : Condition → List Value
  | .group g => Filter.values g
  | .lookup l => l.values
  | .raw sql => sql.params
  | .everything => []
  | .nothing => []

def Filter.values : Filter → List Value
  | ⟨_, children, _, _⟩ => valuesOfAll children

def valuesOfAll : List Condition → List Value
  | [] => []
  | c :: rest => c.values ++ valuesOfAll rest

end

mutual

def Condition.mapValues (f : Value → Value) : Condition → Condition
  | .group g => .group (Filter.mapValues f g)
  | .lookup l => .lookup (l.mapValues f)
  | .raw sql => .raw (sql.mapValues f)
  | .everything => .everything
  | .nothing => .nothing

def Filter.mapValues (f : Value → Value) : Filter → Filter
  | ⟨connective, children, negated, grouped⟩ => ⟨connective, mapValuesOfAll f children, negated, grouped⟩

def mapValuesOfAll (f : Value → Value) : List Condition → List Condition
  | [] => []
  | c :: rest => c.mapValues f :: mapValuesOfAll f rest

end

mutual

theorem Condition.mapValues_eq_self_iff {f : Value → Value} (c : Condition) :
    c.mapValues f = c ↔ ∀ v ∈ c.values, f v = v := by
  cases c with
  | group g => simpa [Condition.mapValues, Condition.values] using Filter.mapValues_eq_self_iff g
  | lookup l => simpa [Condition.mapValues, Condition.values] using l.mapValues_eq_self_iff
  | raw sql => simpa [Condition.mapValues, Condition.values] using sql.mapValues_eq_self_iff
  | everything => simp [Condition.mapValues, Condition.values]
  | nothing => simp [Condition.mapValues, Condition.values]

theorem Filter.mapValues_eq_self_iff {f : Value → Value} (g : Filter) :
    Filter.mapValues f g = g ↔ ∀ v ∈ Filter.values g, f v = v := by
  obtain ⟨connective, children, negated, grouped⟩ := g
  simpa [Filter.mapValues, Filter.values] using mapValuesOfAll_eq_self_iff children

theorem mapValuesOfAll_eq_self_iff {f : Value → Value} (children : List Condition) :
    mapValuesOfAll f children = children ↔ ∀ v ∈ valuesOfAll children, f v = v := by
  cases children with
  | nil => simp [mapValuesOfAll, valuesOfAll]
  | cons c rest =>
    simp only [mapValuesOfAll, valuesOfAll, List.cons.injEq, c.mapValues_eq_self_iff,
      mapValuesOfAll_eq_self_iff rest, List.forall_mem_append]

end

/-! ### Plans -/

namespace Projection

def values (item : Projection) : List Value :=
  item.expr.values

def mapValues (f : Value → Value) (item : Projection) : Projection :=
  { item with expr := item.expr.mapValues f }

theorem mapValues_eq_self_iff {f : Value → Value} (item : Projection) :
    item.mapValues f = item ↔ ∀ v ∈ item.values, f v = v := by
  obtain ⟨expr, label⟩ := item
  simp only [mapValues, values, Projection.mk.injEq, and_true, expr.mapValues_eq_self_iff]

end Projection

namespace SortKey

def values (key : SortKey) : List Value :=
  key.expr.values

def mapValues (f : Value → Value) (key : SortKey) : SortKey :=
  { key with expr := key.expr.mapValues f }

theorem mapValues_eq_self_iff {f : Value → Value} (key : SortKey) :
    key.mapValues f = key ↔ ∀ v ∈ key.values, f v = v := by
  obtain ⟨expr, descending, nulls⟩ := key
  simp only [mapValues, values, SortKey.mk.injEq, and_true, expr.mapValues_eq_self_iff]

end SortKey

namespace Plan

/-- All values of a plan, in the order of its parts. -/
def values (p : Plan) : List Value :=
  p.select.flatMap Projection.values ++ p.extraSelect.flatMap Projection.values ++
    p.filter.elim [] Filter.values ++ p.groupBy.flatMap Expr.values ++ p.having.elim [] Filter.values ++
    p.orderBy.flatMap SortKey.values ++ p.distinctOn.flatMap Expr.values

def mapValues (f : Value → Value) (p : Plan) : Plan :=
  { p with
    select := p.select.map (Projection.mapValues f)
    extraSelect := p.extraSelect.map (Projection.mapValues f)
    filter := p.filter.map (Filter.mapValues f)
    groupBy := p.groupBy.map (Expr.mapValues f)
    having := p.having.map (Filter.mapValues f)
    orderBy := p.orderBy.map (SortKey.mapValues f)
    distinctOn := p.distinctOn.map (Expr.mapValues f) }

theorem mapValues_eq_self_iff {f : Value → Value} (p : Plan) :
    p.mapValues f = p ↔ ∀ v ∈ p.values, f v = v := by
  obtain ⟨model, joins, references, select, extraSelect, filter, groupBy, having, orderBy, distinct, distinctOn,
    window, forUpdate, nowait, explain, options⟩ := p
  simp only [mapValues, values, Plan.mk.injEq, true_and, and_true, List.forall_mem_append, and_assoc,
    map_eq_self_iff_flatMap Projection.mapValues_eq_self_iff,
    map_eq_self_iff_flatMap SortKey.mapValues_eq_self_iff,
    map_eq_self_iff_flatMap Expr.mapValues_eq_self_iff,
    map_eq_self_iff_elim Filter.mapValues_eq_self_iff]

end Plan

end PathQuery
