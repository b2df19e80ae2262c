import PathQuery.Proofs.Condition.Parallel
import PathQuery.Proofs.Erasure
import PathQuery.Proofs.Statement.Substitution
/-!
# Queries that are compiled side by side

A plan is compiled under two namings of the same tree. Where each reference to a column gives the same text
once the two are changed piece by piece, all clauses do, and so do the queries. The two compilations fail at
the same stage, if at all.
-/

namespace PathQuery

open Text (IsWord joinWith Piecewise)

variable {f g : String → String}

/-! ### Groups -/

theorem Text.Piecewise.spell (hf : Piecewise f) (connective : Connective) (negated grouped : Bool)
    (parts : List String) :
    f (connective.spell negated grouped parts) = connective.spell negated grouped (parts.map f) := by
  have hjoined : f (joinWith connective.between parts) = joinWith connective.between (parts.map f) := by
    cases connective <;> exact hf.joined (by decide) (by decide) (by decide) (by decide) parts
  rw [Connective.spell, Connective.spell, List.length_map, ← hjoined]
  cases negated with
  | true =>
    simp only [if_true]
    rw [hf.followed (by decide) (by decide), hf.led (by decide) (by decide)]
  | false =>
    simp only [Bool.false_eq_true, if_false]
    split
    · rw [hf.followed (by decide) (by decide), hf.led (by decide) (by decide)]
    · rfl

theorem Text.Piecewise.listed (hf : Piecewise f) (items : List String) :
    f (joinWith ", " items) = joinWith ", " (items.map f) :=
  hf.joined (by decide) (by decide) (by decide) (by decide) items

/-- The texts become the same, and neither is empty. -/
def Text.Alike (f g : String → String) (a b : String) : Prop :=
  f a = g b ∧ a ≠ "" ∧ b ≠ ""

theorem Text.respects_alike (hf : Piecewise f) (hg : Piecewise g) :
    Connective.Respects (Text.Alike f g) := by
  have hne : ∀ a b, Text.Alike f g a b → a ≠ "" ∧ b ≠ "" := fun _ _ h => h.2
  refine ⟨hne, fun connective negated grouped parts others h hparts => ?_⟩
  have hmap : parts.map f = others.map g := by
    rw [← List.forall₂_eq_eq_eq, List.forall₂_map_left_iff, List.forall₂_map_right_iff]
    exact h.imp fun a b hab => hab.1
  have hothers : others ≠ [] := by
    rintro rfl
    exact hparts (List.map_eq_nil_iff.1 hmap)
  obtain ⟨hpartsNe, hothersNe⟩ := parts_ne_empty hne h
  refine ⟨?_, Connective.spell_ne_empty hparts hpartsNe, Connective.spell_ne_empty hothers hothersNe⟩
  rw [hf.spell, hg.spell, hmap]

/-! ### Expressions -/

/-- References to columns of the alias become the same under the two namings. -/
def Naming.AlikeOn (f g : String → String) (n m : Naming) (source : String) : Prop :=
  ∀ field, IsWord field →
    f (qualified (n.standsFor source) field) = g (qualified (m.standsFor source) field)

section Expressions

variable (hf : Piecewise f) (hg : Piecewise g) {n m : Naming}

include hf hg

theorem Expr.substitute_alike {known : List String} {e : Expr} (he : e.Plain known)
    (h : ∀ source, e.source? = some source → n.AlikeOn f g m source) :
    f (e.substitute n).render.text = g (e.substitute m).render.text := by
  induction e with
  | column source field => exact h source rfl field he.2.1
  | call function argument ih =>
    have hstart : Text.endsApart (function ++ "(") := by
      rw [Text.endsApart_append function (by decide)]
      decide
    have hdot : '.' ∉ (function ++ "(").toList := by
      rw [String.toList_append, List.mem_append]
      exact not_or.2 ⟨he.1.dotless, by decide⟩
    show f (function ++ "(" ++ _ ++ ")") = g (function ++ "(" ++ _ ++ ")")
    rw [hf.followed (by decide) (by decide), hg.followed (by decide) (by decide), hf.led hstart hdot,
      hg.led hstart hdot, ih he.2 h]
  | countAll =>
    have hdot : '.' ∉ countAllText.toList := by decide
    exact (hf.plain _ hdot).trans (hg.plain _ hdot).symm
  | raw sql => exact he.elim

end Expressions

theorem Compares.dotless {tail : Tail} {values : List Value} (h : Compares tail values) :
    '.' ∉ tail.text.toList := by
  cases h with
  | null negated => cases negated <;> decide
  | member values =>
    intro hdot
    have hplaceholders : '.' ∉ (Sql.placeholders values.length).toList := by
      intro hdot
      rcases Text.mem_joinWith hdot with hdot | ⟨part, hpart, hdot⟩
      · exact absurd hdot (by decide)
      · rw [List.eq_of_mem_replicate hpart] at hdot
        exact absurd hdot (by decide)
    simp only [Tail.text, String.toList_append, List.mem_append] at hdot
    rcases hdot with hdot | hdot | hdot
    · exact absurd hdot (by decide)
    · exact hplaceholders hdot
    · exact absurd hdot (by decide)
  | @operator kind operator hoperator value => cases kind <;> cases hoperator <;> decide
  | pattern => decide

/-! ### Filters -/

/-- Pieces of a query that become the same and are empty together. -/
structure Sql.Alike (f g : String → String) (a b : Sql) : Prop where
  text : f a.text = g b.text
  isEmpty : a.isEmpty = b.isEmpty
  params : a.params = b.params

theorem Sql.Alike.empty (hf : Piecewise f) (hg : Piecewise g) : Sql.Alike f g .empty .empty :=
  ⟨(hf.plain "" (by simp)).trans (hg.plain "" (by simp)).symm, rfl, rfl⟩

section Filters

variable (hf : Piecewise f) (hg : Piecewise g) {n m : Naming} {joins : List Join}
  (hn : Tree.resolve joins = .ok n.tree) (hm : Tree.resolve joins = .ok m.tree)

include hf hg hn hm

theorem Lookup.compile_parallel {l : Lookup} (hl : l.lhs.Plain (joins.map Join.name))
    (h : ∀ source, l.lhs.source? = some source → n.AlikeOn f g m source) :
    FilterRules.Parallel { rename := n.rename } { rename := m.rename } (Text.Alike f g) (.lookup l) := by
  refine .refl fun outcome houtcome => ?_
  rcases Lookup.predicate_cases houtcome with rfl | ⟨tail, values, htail, hpredicate⟩
  · exact .group .nothing
  · cases houtcome.symm.trans (hpredicate l.lhs)
    have hvalid : ∀ t ∈ some tail, t.Valid := by
      intro t ht
      cases ht
      exact htail.valid
    have htext : ∀ text, text ++ Fragment.tailText (some tail) = text ++ " " ++ tail.text :=
      fun text => (String.append_assoc ..).symm
    have hne : ∀ text, text ++ " " ++ tail.text ≠ "" := by
      intro text hempty
      simp at hempty
    refine .leaf ?_
    show Report.Matches _ (n.rename (l.lhs.render.text ++ " " ++ tail.text)) (m.rename _)
    rw [← htext, Expr.rename_render hn hl hvalid, Expr.rename_render hm hl hvalid, htext, htext]
    refine .pure ⟨?_, hne _, hne _⟩
    rw [hf.spaced, hg.spaced, Expr.substitute_alike hf hg hl h, hf.plain _ htail.dotless,
      hg.plain _ htail.dotless]

theorem Filter.Plain.compile_alike {filter : Filter} (hfilter : filter.Plain (joins.map Join.name))
    (h : ∀ e ∈ filter.columns, ∀ source, e.source? = some source → n.AlikeOn f g m source) :
    Report.Matches (Outcome.Alike (Text.Alike f g)) (filter.compile { rename := n.rename })
      (filter.compile { rename := m.rename }) := by
  refine Filter.compile_alike (Text.respects_alike hf hg) [] filter fun leaf hleaf => ?_
  have hkind := filter.isLeaf_of_mem_leaves [] leaf hleaf
  obtain ⟨place, c⟩ := leaf
  cases c with
  | group => exact hkind.elim
  | everything => exact .pure (.group .everything)
  | nothing => exact .pure (.group .nothing)
  | raw sql => exact Bool.noConfusion (hfilter.no_raw _ hleaf)
  | lookup l => exact Lookup.compile_parallel hf hg hn hm (hfilter.columns _ hkind) (h _ hkind)

theorem compileFilter_alike {filter : Option Filter}
    (hfilter : ∀ g, filter = some g → g.Plain (joins.map Join.name))
    (h : ∀ e ∈ Plan.filterColumns filter, ∀ source, e.source? = some source → n.AlikeOn f g m source) :
    Report.Matches (Option.Rel (Sql.Alike f g)) (compileFilter n filter) (compileFilter m filter) := by
  cases filter with
  | none => exact .pure (.some (Sql.Alike.empty hf hg))
  | some filter =>
    have hcompile := (hfilter filter rfl).compile_alike hf hg hn hm h
    refine .bind (hcompile.mapError _) fun a b hab => ?_
    cases hab with
    | everything => exact .pure (.some (Sql.Alike.empty hf hg))
    | nothing => exact .pure .none
    | text hab params =>
      obtain ⟨htext, ha, hb⟩ := hab
      refine .pure (.some ⟨htext, ?_, rfl⟩)
      rw [Sql.isEmpty, Sql.isEmpty, String.isEmpty_eq_false_iff.2 ha, String.isEmpty_eq_false_iff.2 hb]

end Filters

/-! ### Clauses -/

/-- Clauses whose texts become the same. -/
structure Clause.Alike (f g : String → String) (a b : Clause) : Prop where
  texts : a.texts.map f = b.texts.map g
  params : a.params = b.params

namespace Clause.Alike

theorem append {a b c d : Clause} (hab : a.Alike f g b) (hcd : c.Alike f g d) : (a ++ c).Alike f g (b ++ d) where
  texts := by rw [append_texts, append_texts, List.map_append, List.map_append, hab.texts, hcd.texts]
  params := by rw [append_params, append_params, hab.params, hcd.params]

variable (hf : Piecewise f) (hg : Piecewise g)

include hf hg

/-- Texts without a dot stay as they are. -/
theorem plain {c : Clause} (h : ∀ text ∈ c.texts, '.' ∉ text.toList) : c.Alike f g c where
  texts := List.map_congr_left fun text htext => by rw [hf.plain text (h text htext), hg.plain text (h text htext)]
  params := rfl

theorem headed {keyword : String} (hkeyword : '.' ∉ keyword.toList) {a b : String} (h : f a = g b) :
    f (keyword ++ " " ++ a) = g (keyword ++ " " ++ b) := by
  rw [hf.spaced, hg.spaced, hf.plain keyword hkeyword, hg.plain keyword hkeyword, h]

theorem condition {keyword : String} (hkeyword : '.' ∉ keyword.toList) {a b : Sql} (h : a.Alike f g b) :
    (Clause.condition keyword a).Alike f g (Clause.condition keyword b) := by
  rw [Clause.condition, Clause.condition, h.isEmpty]
  split
  · exact ⟨rfl, rfl⟩
  · exact ⟨congrArg (fun text => [text]) (headed hf hg hkeyword h.text), h.params⟩

theorem listing {keyword : String} (hkeyword : '.' ∉ keyword.toList) {items others : List String}
    (h : items.map f = others.map g) (params : List Value) :
    (Clause.listing keyword items params).Alike f g (Clause.listing keyword others params) := by
  have hempty : items.isEmpty = others.isEmpty := by
    rw [← List.isEmpty_map, h, List.isEmpty_map]
  have hjoined : f (joinWith ", " items) = g (joinWith ", " others) := by
    rw [hf.listed, hg.listed, h]
  rw [Clause.listing, Clause.listing, hempty]
  split
  · exact ⟨rfl, rfl⟩
  · exact ⟨congrArg (fun text => [text]) (headed hf hg hkeyword hjoined), rfl⟩

end Clause.Alike

/-! ### Lists of items -/

namespace Select

variable {α : Type} {n : Naming} {items : List α} {name : α → String}

theorem renameAll_eq {piece : α → Sql} (h : ∀ a ∈ items, n.rename (piece a).text = pure (name a)) :
    renameAll n (items.map piece) = pure (items.map name) := by
  induction items with
  | nil => rfl
  | cons a rest ih =>
    rw [List.map_cons, renameAll, renameIn, h a List.mem_cons_self,
      ih fun b hb => h b (List.mem_cons_of_mem a hb)]
    rfl

theorem columns_eq (piece : α → SelectedColumn) (h : ∀ a ∈ items, n.rename (piece a).sql.text = pure (name a))
    (backend : Backend) (names : Bool) (index : Nat) :
    columns backend n names index (items.map piece) =
      pure (decorate backend names index (items.map fun a => (piece a).label) (items.map name)) := by
  induction items generalizing index with
  | nil => rfl
  | cons a rest ih =>
    have hrest := ih fun b hb => h b (List.mem_cons_of_mem a hb)
    rw [List.map_cons, columns_cons, renameIn, h a List.mem_cons_self]
    change (columns backend n names _ (rest.map piece) >>= _) = _
    rw [hrest]
    rfl

theorem columns_plain {joins : List Join} (hn : Tree.resolve joins = .ok n.tree) {items : List Projection}
    (hitems : ∀ item ∈ items, item.expr.Plain (joins.map Join.name)) {features : Features} {autocommit : Bool}
    (names : Bool) (index : Nat) :
    columns (.soql features autocommit) n names index (items.map fun item => ⟨item.expr.render, item.label⟩) =
      pure (Projection.spellAll n names index items) := by
  have hrename : ∀ item ∈ items, n.rename item.expr.render.text = pure (item.expr.substitute n).render.text :=
    fun item hitem => Expr.rename_render_alone hn (hitems item hitem)
  rw [columns_eq (fun item : Projection => ⟨item.expr.render, item.label⟩) hrename]
  exact congrArg _ (decorate_substitute n names index hitems)

end Select

section Items

variable (hf : Piecewise f) (hg : Piecewise g) {n m : Naming}

include hf hg

theorem Projection.spellAll_alike {items : List Projection}
    (hitems : ∀ item ∈ items,
      f (item.expr.substitute n).render.text = g (item.expr.substitute m).render.text)
    (hlabels : ∀ item ∈ items, ∀ label, item.label = some label → f label = g label) (names : Bool)
    (index : Nat) : (spellAll n names index items).map f = (spellAll m names index items).map g := by
  induction items generalizing index with
  | nil => rfl
  | cons item rest ih =>
    obtain ⟨hitem, hitems⟩ := List.forall_mem_cons.1 hitems
    obtain ⟨hlabel, hlabels⟩ := List.forall_mem_cons.1 hlabels
    have hrest := ih hitems hlabels
    rw [spellAll, spellAll]
    cases hsome : item.label with
    | some label =>
      have hlabelled : f ((item.expr.substitute n).render.text ++ " " ++ label) =
          g ((item.expr.substitute m).render.text ++ " " ++ label) := by
        rw [hf.spaced, hg.spaced, hitem, hlabel label hsome]
      cases item.expr.isColumn <;> simp [hrest, hitem, hlabelled]
    | none =>
      have hnumbered : f ((item.expr.substitute n).render.text ++ " AS Col" ++ toString index) =
          g ((item.expr.substitute m).render.text ++ " AS Col" ++ toString index) := by
        have hstarts : Text.startsApart (" AS Col" ++ toString index) := by
          rw [Text.startsApart_append (by decide)]
          decide
        have hdot : '.' ∉ (" AS Col" ++ toString index).toList := Text.dot_not_mem_numbered (by decide) index
        rw [String.append_assoc, String.append_assoc, hf.followed hstarts hdot, hg.followed hstarts hdot, hitem]
      cases names <;> simp only [Bool.false_eq_true, if_false, if_true, List.map_cons, hrest, hitem, hnumbered]

theorem SortKey.substitute_alike {key : SortKey}
    (h : f (key.expr.substitute n).render.text = g (key.expr.substitute m).render.text) :
    f (key.substitute n).render.text = g (key.substitute m).render.text := by
  have hdot : '.' ∉ (sortText key.descending key.nulls).toList := by
    cases key.descending <;> rcases key.nulls with _ | _ | _ <;> decide
  show f ((key.expr.substitute n).render.text ++ " " ++ sortText key.descending key.nulls) =
    g ((key.expr.substitute m).render.text ++ " " ++ sortText key.descending key.nulls)
  rw [hf.spaced, hg.spaced, h, hf.plain _ hdot, hg.plain _ hdot]

end Items

end PathQuery
