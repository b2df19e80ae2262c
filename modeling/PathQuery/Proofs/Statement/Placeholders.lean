import PathQuery.Proofs.Condition.Meaning
import PathQuery.Proofs.Placeholders
import PathQuery.Proofs.Statement.Assembly
import PathQuery.Proofs.Substitution
/-!
# Placeholders and values stay aligned

The text of a query and the values bound to it are collected in different places. They belong together
all the same: a query is laid out from its fragments, those of the selection, the filter, the groups, the
filter on groups and the sort keys, in this order, and its values are the values of the fragments in the
same order. Renaming does not touch placeholders, since they stand behind the path of a fragment.
-/

namespace PathQuery

open Text (IsWord)

/-! ### Rendered expressions -/

/-- Expressions whose names have no percent sign and whose raw text has as many values as placeholders. -/
def Expr.Balanced : Expr → Prop
  | .column source field => Clean source ∧ Clean field
  | .call function argument => Clean function ∧ argument.Balanced
  | .countAll => True
  | .raw sql => sql.Balanced

instance Expr.decidableBalanced : (e : Expr) → Decidable e.Balanced
  | .column source field => inferInstanceAs (Decidable (Clean source ∧ Clean field))
  | .call function argument =>
    have := argument.decidableBalanced
    inferInstanceAs (Decidable (Clean function ∧ argument.Balanced))
  | .countAll => .isTrue trivial
  | .raw sql => inferInstanceAs (Decidable sql.Balanced)

theorem Expr.balanced_render {e : Expr} (he : e.Balanced) : e.render.Balanced := by
  induction e with
  | column source field =>
    have hclean : Clean (source ++ "." ++ field) :=
      clean_append.2 ⟨clean_append.2 ⟨he.1, by decide⟩, he.2⟩
    exact hclean.marks
  | call function argument ih =>
    have hgap : IsGap ")" := by decide
    have hcall : Clean (function ++ "(") := clean_append.2 ⟨he.1, by decide⟩
    show marks (function ++ "(" ++ argument.render.text ++ ")") = argument.render.params.length
    rw [hgap.append_marks, hcall.marks_append]
    exact ih he.2
  | countAll => decide
  | raw sql => exact he

theorem isGap_sortText (descending : Bool) (nulls : Option NullsPlace) :
    IsGap (" " ++ sortText descending nulls) := by
  cases descending <;> rcases nulls with _ | _ | _ <;> decide

theorem SortKey.balanced_render {key : SortKey} (hkey : key.expr.Balanced) : key.render.Balanced := by
  have hgap := isGap_sortText key.descending key.nulls
  show marks (key.expr.render.text ++ " " ++ sortText key.descending key.nulls) = _
  rw [String.append_assoc, hgap.append_marks]
  exact Expr.balanced_render hkey

theorem marks_placeholders (n : Nat) : marks (Sql.placeholders n) = n := by
  have hgap : IsGap ", " := by decide
  have hone : marks Sql.placeholder = 1 := by decide
  induction n with
  | zero => rfl
  | succ n ih =>
    cases n with
    | zero => exact hone
    | succ n =>
      have hjoin : Sql.placeholders (n + 1 + 1) = Sql.placeholder ++ ", " ++ Sql.placeholders (n + 1) := rfl
      rw [hjoin, hgap.marks_between (by decide), hone, ih]
      omega

theorem Compares.marks {tail : Tail} {values : List Value} (h : Compares tail values) :
    PathQuery.marks tail.text = values.length := by
  cases h with
  | null negated => cases negated <;> decide
  | member values =>
    have hgap : IsGap ")" := by decide
    have hopen : Clean "IN (" := by decide
    show PathQuery.marks ("IN (" ++ (Sql.placeholders values.length ++ ")")) = values.length
    rw [hopen.marks_append, hgap.append_marks, marks_placeholders]
  | @operator kind operator hoperator value =>
    rw [List.length_singleton]
    cases kind <;> cases hoperator <;> decide
  | pattern value =>
    show PathQuery.marks "LIKE %s" = 1
    decide

theorem Lookup.balanced_predicate {l : Lookup} (hl : l.lhs.Balanced) {sql : Sql} {resolved : Bool}
    (h : l.predicate = .ok (.sql sql resolved)) : sql.Balanced := by
  have hgap : IsGap " " := by decide
  rcases predicate_cases h with hnothing | ⟨tail, values, htail, hpredicate⟩
  · cases hnothing
  · have hsql := h.symm.trans (hpredicate l.lhs)
    cases hsql
    show marks (l.lhs.render.text ++ " " ++ tail.text) = (l.lhs.render.params ++ values).length
    rw [hgap.marks_between (by decide), htail.marks, List.length_append, Expr.balanced_render hl]

/-! ### Renaming -/

theorem clean_of_isWord {s : String} (h : IsWord s) : Clean s := by
  intro hpercent
  have hword := h.2 '%' hpercent
  exact absurd hword (by decide)

theorem clean_joinWith {separator : String} (hseparator : Clean separator) {parts : List String}
    (h : ∀ part ∈ parts, Clean part) : Clean (Text.joinWith separator parts) := by
  intro hpercent
  rcases Text.mem_joinWith hpercent with hpercent | ⟨part, hpart, hpercent⟩
  · exact hseparator hpercent
  · exact h part hpart hpercent

/-- The tables and columns of joins have no percent sign. -/
def CleanJoins (joins : List Join) : Prop :=
  ∀ j ∈ joins, Clean j.table ∧ ∀ pair ∈ j.columns, Clean pair.1 ∧ Clean pair.2

instance (joins : List Join) : Decidable (CleanJoins joins) :=
  inferInstanceAs (Decidable (∀ j ∈ joins, Clean j.table ∧ ∀ pair ∈ j.columns, Clean pair.1 ∧ Clean pair.2))

theorem Fragment.Valid.head_clean {f : Fragment} (h : f.Valid) : Clean f.head := by
  refine clean_joinWith (by decide) ?_
  intro part hpart
  obtain ⟨function, hfunction, rfl⟩ := List.mem_map.1 hpart
  exact clean_append.2 ⟨clean_of_isWord (h.functions function hfunction), by decide⟩

theorem Fragment.Valid.path_clean {f : Fragment} (h : f.Valid) : Clean (Text.joinWith "." f.path) :=
  clean_joinWith (by decide) fun step hstep => clean_of_isWord (h.path step hstep)

/-- Both parts of a split path are clean. -/
theorem Fragment.Valid.split_clean {f : Fragment} (h : f.Valid) {n : Naming} {name field : String}
    (hsplit : n.split? f.path = some (name, field)) : Clean name ∧ Clean field := by
  have hsteps : ∀ step ∈ f.path, Clean step := fun step hstep => clean_of_isWord (h.path step hstep)
  obtain ⟨-, hpath | ⟨first, hpath, rfl⟩⟩ := Naming.split?_eq_some hsplit
  · rw [hpath] at hsteps
    exact ⟨hsteps name (by simp), hsteps field (by simp)⟩
  · rw [hpath] at hsteps
    refine ⟨hsteps name (by simp), clean_append.2 ⟨clean_append.2 ⟨hsteps first (by simp), by decide⟩, ?_⟩⟩
    exact hsteps Naming.discriminator (by simp)

namespace Tree

variable {tree : Tree} {joins : List Join} (hresolve : Tree.resolve joins = .ok tree)
  (hjoins : CleanJoins joins)

include hresolve hjoins

theorem path_clean {name path : String} (hpath : tree.path? name = some path) : Clean path := by
  have hchars : ∀ c ∈ path.toList, c ≠ '%' := by
    have hending : ∀ c ∈ "__r".toList, c ≠ '%' := by
      intro c hc hpercent
      rw [hpercent] at hc
      exact absurd hc (by decide)
    refine path_chars hresolve (by decide) hending ?_ hpath
    intro j hj link hlink c hc hpercent
    obtain ⟨pair, hpair, hkey⟩ := hlink.key_mem
    obtain ⟨hfirst, hsecond⟩ := (hjoins j hj).2 pair hpair
    rw [hpercent] at hc
    exact hkey.elim (fun h => hfirst (h ▸ hc)) fun h => hsecond (h ▸ hc)
  exact fun hpercent => hchars '%' hpercent rfl

theorem rootTable_clean {table : String} (htable : tree.rootTable? = some table) : Clean table := by
  obtain ⟨root, -, hroot⟩ := Option.bind_eq_some_iff.1 htable
  obtain ⟨j, hj, -, rfl⟩ := exists_join_of_table? hresolve hroot
  exact (hjoins j hj).1

theorem qualifiedPath_clean {name qualified : String} (h : tree.qualifiedPath? name = some qualified) :
    Clean qualified := by
  obtain ⟨path, hpath, h⟩ := Option.bind_eq_some_iff.1 h
  obtain ⟨table, htable, h⟩ := Option.bind_eq_some_iff.1 h
  cases h
  have hcleanTable := rootTable_clean hresolve hjoins htable
  rw [qualify]
  split
  · exact hcleanTable
  · exact clean_append.2 ⟨clean_append.2 ⟨hcleanTable, by decide⟩, path_clean hresolve hjoins hpath⟩

end Tree

section Renaming

variable {n : Naming} {joins : List Join} (hresolve : Tree.resolve joins = .ok n.tree)
  (hjoins : CleanJoins joins)

include hresolve hjoins

theorem Naming.qualifier_clean {name q : String} (hname : Clean name) (h : n.qualifier name = .ok q) :
    Clean q := by
  have hfull : Clean ((n.tree.qualifiedPath? name).getD name) := by
    cases hpath : n.tree.qualifiedPath? name with
    | none => exact hname
    | some qualified => exact Tree.qualifiedPath_clean hresolve hjoins hpath
  rw [qualifier] at h
  split at h
  · cases h
    exact hfull
  · split at h
    · cases h
      exact List.not_mem_nil
    · dsimp only at h
      split at h
      · rename_i path hafter
        cases h
        obtain ⟨rest, hrest, hdot⟩ := Option.bind_eq_some_iff.1 hafter
        rw [Text.afterHead?_eq_some_iff] at hrest hdot
        rw [hrest, hdot, clean_append, clean_append] at hfull
        exact hfull.2.2
      · cases h

/-- Renaming keeps the placeholders: they stand behind the path. -/
theorem Naming.rename_marks {s t : String} (h : (n.rename s).result = .ok t) : marks t = marks s := by
  rcases rename_ok h with rfl | ⟨f, name, field, q, hparse, hsplit, hq, rfl⟩
  · rfl
  · obtain ⟨hvalid, rfl⟩ := Fragment.parse?_sound hparse
    obtain ⟨hname, hfield⟩ := hvalid.split_clean hsplit
    have hqualifier := qualifier_clean hresolve hjoins hname hq
    have hqualified : Clean (qualified q field) := by
      rw [qualified]
      split
      · exact hfield
      · exact clean_append.2 ⟨clean_append.2 ⟨hqualifier, by decide⟩, hfield⟩
    have hbefore : Clean (f.head ++ qualified q field) := clean_append.2 ⟨hvalid.head_clean, hqualified⟩
    have hafter : Clean (f.head ++ Text.joinWith "." f.path) :=
      clean_append.2 ⟨hvalid.head_clean, hvalid.path_clean⟩
    rw [Fragment.text, hbefore.marks_append, hafter.marks_append]

end Renaming

/-! ### Filters -/

theorem Connective.laid_spell (connective : Connective) (negated grouped : Bool) {fragments : List Sql}
    {parts : List String} (h : LaidAll fragments parts) :
    Laid fragments (connective.spell negated grouped parts) := by
  have hgap : IsGap connective.between := by cases connective <;> decide
  have hne : connective.between ≠ "" := by cases connective <;> decide
  have hjoined := h.joinWith hgap hne
  rw [spell]
  split
  · exact (hjoined.behind (by decide)).before (by decide)
  · split
    · exact (hjoined.behind (by decide)).before (by decide)
    · exact hjoined

mutual

/-- The text of a formula is laid out from its leaves. -/
theorem Formula.laid (f : Formula (Place × Sql)) (h : ∀ piece ∈ f.leaves, piece.2.Balanced) :
    Laid (f.leaves.map Prod.snd) f.text := by
  cases f with
  | leaf piece => exact Laid.of_balanced (h piece List.mem_cons_self)
  | group connective negated grouped parts =>
    rw [Formula.leaves_group] at h ⊢
    rw [Formula.text_group]
    exact connective.laid_spell negated grouped (formulas_laid parts h)

theorem formulas_laid (parts : List (Formula (Place × Sql)))
    (h : ∀ piece ∈ parts.flatMap Formula.leaves, piece.2.Balanced) :
    LaidAll ((parts.flatMap Formula.leaves).map Prod.snd) (parts.map Formula.text) := by
  cases parts with
  | nil => exact .nil
  | cons part rest =>
    rw [List.flatMap_cons, List.forall_mem_append] at h
    rw [List.flatMap_cons, List.map_append, List.map_cons]
    exact .cons (part.laid h.1) (formulas_laid rest h.2)

end

def Condition.RawBalanced : Condition → Prop
  | .raw sql => sql.Balanced
  | _ => True

instance : (c : Condition) → Decidable c.RawBalanced
  | .raw sql => inferInstanceAs (Decidable sql.Balanced)
  | .group _ | .lookup _ | .everything | .nothing => .isTrue trivial

/-- Filters over balanced expressions and balanced raw text. -/
structure Filter.Balanced (g : Filter) : Prop where
  columns : ∀ e ∈ g.columns, e.Balanced
  raw : ∀ leaf ∈ (g.formula []).leaves, leaf.2.RawBalanced

/-- The fragments of a filter's text: its leaves that are left, if any is. -/
def FilterEmits (n : Naming) : Option Filter → List Sql → Prop
  | none, fragments => fragments = []
  | some g, fragments =>
    (fragments = [] ∧ (g.compile { rename := n.rename }).result = .ok .everything) ∨
      ∃ sql f, (g.compile { rename := n.rename }).result = .ok (.sql sql true) ∧
        FilterRules.Renders { rename := n.rename } (g.formula []) sql f ∧ fragments = f.leaves.map Prod.snd

section Filters

variable {n : Naming} {joins : List Join} (hresolve : Tree.resolve joins = .ok n.tree)
  (hjoins : CleanJoins joins)

include hresolve hjoins

theorem Filter.Balanced.piece {g : Filter} (hg : g.Balanced) {leaf : Place × Condition}
    (hleaf : leaf ∈ (g.formula []).leaves) {piece : Place × Sql}
    (hkeeps : FilterRules.Keeps { rename := n.rename } piece leaf) : piece.2.Balanced := by
  obtain ⟨text, resolved, -, hname, hcompiled⟩ := hkeeps.compiled
  have hmarks : marks piece.2.text = marks text := by
    cases resolved with
    | true =>
      have hsame : piece.2.text = text := hname
      rw [hsame]
    | false => exact Naming.rename_marks hresolve hjoins hname
  have hsource : Sql.Balanced ⟨text, piece.2.params⟩ := by
    have hkind := g.isLeaf_of_mem_leaves [] leaf hleaf
    have hraw := hg.raw leaf hleaf
    obtain ⟨place, c⟩ := leaf
    cases c with
    | group => exact hkind.elim
    | everything | nothing => cases hcompiled
    | raw sql =>
      cases hcompiled
      exact hraw
    | lookup l => exact Lookup.balanced_predicate (hg.columns _ hkind) hcompiled
  exact hmarks.trans hsource

/-- The text of a filter is laid out from its fragments. -/
theorem compileFilter_laid {filter : Option Filter} (hfilter : ∀ g, filter = some g → g.Balanced) {sql : Sql}
    (h : (compileFilter n filter).result = .ok (some sql)) :
    ∃ fragments, FilterEmits n filter fragments ∧ (sql.text = "" → fragments = []) ∧
      sql.params = fragments.flatMap Sql.params ∧ Laid fragments sql.text := by
  have hempty : Laid [] Sql.empty.text := Laid.of_clean (by decide)
  cases filter with
  | none =>
    cases compileFilter_none h
    exact ⟨[], rfl, fun _ => rfl, rfl, hempty⟩
  | some g =>
    have hproper := n.rename_proper Lookup.predicate
    rcases compileFilter_some h with ⟨rfl, hcompile⟩ | ⟨resolved, hcompile⟩
    · exact ⟨[], .inl ⟨rfl, hcompile⟩, fun _ => rfl, rfl, hempty⟩
    · obtain ⟨rfl, f, hf⟩ := g.compile_settles hproper [] hcompile
      refine ⟨f.leaves.map Prod.snd, .inr ⟨sql, f, hcompile, hf, rfl⟩, ?_, ?_, ?_⟩
      · exact fun htext => absurd htext hf.text_ne
      · rw [← hf.params, Formula.params, List.flatMap_map]
      · rw [← hf.text]
        apply f.laid
        intro piece hpiece
        obtain ⟨leaf, hleaf, hkeeps⟩ := FilterRules.exists_leaf hf.leaves hpiece
        exact (hfilter g rfl).piece hresolve hjoins hleaf hkeeps

end Filters

/-! ### Lists of fragments -/

/-- Fragments renamed one by one, with their own values. -/
def Emits (n : Naming) (sources fragments : List Sql) : Prop :=
  List.Forall₂ (fun source f => (n.rename source.text).result = .ok f.text ∧ f.params = source.params)
    sources fragments

theorem exists_emits {n : Naming} {sources : List Sql} {names : List String}
    (h : Select.Renamed n (sources.map Sql.text) names) :
    ∃ fragments, Emits n sources fragments ∧ fragments.map Sql.text = names := by
  induction sources generalizing names with
  | nil =>
    cases h
    exact ⟨[], .nil, rfl⟩
  | cons source rest ih =>
    cases h with
    | @cons _ name _ names hname hrest =>
      obtain ⟨fragments, hfragments, htexts⟩ := ih hrest
      refine ⟨⟨name, source.params⟩ :: fragments, .cons ⟨hname, rfl⟩ hfragments, ?_⟩
      rw [List.map_cons, htexts]

theorem Emits.params {n : Naming} {sources fragments : List Sql} (h : Emits n sources fragments) :
    fragments.flatMap Sql.params = sources.flatMap Sql.params := by
  induction h with
  | nil => rfl
  | cons hfirst hrest ih => rw [List.flatMap_cons, List.flatMap_cons, hfirst.2, ih]

theorem Emits.balanced {n : Naming} {joins : List Join} (hresolve : Tree.resolve joins = .ok n.tree)
    (hjoins : CleanJoins joins) {sources fragments : List Sql} (h : Emits n sources fragments)
    (hsources : ∀ source ∈ sources, source.Balanced) : ∀ f ∈ fragments, f.Balanced := by
  induction h with
  | nil => exact List.forall_mem_nil _
  | @cons source f sources fragments hfirst hrest ih =>
    obtain ⟨hsource, hsources⟩ := List.forall_mem_cons.1 hsources
    refine List.forall_mem_cons.2 ⟨?_, ih hsources⟩
    rw [Sql.Balanced, Naming.rename_marks hresolve hjoins hfirst.1, hfirst.2]
    exact hsource

theorem clean_toString (n : Nat) : Clean (toString n) :=
  fun hpercent => Bool.noConfusion (Text.isDigit_of_mem_toString hpercent)

/-- A selected column is a renamed fragment and at most a name. -/
theorem Select.column_gap (features : Features) (autocommit names : Bool) (index : Nat)
    {label : Option String} (hlabel : ∀ l, label = some l → Clean l) (text : String) :
    ∃ gap, IsGap gap ∧ (column (.soql features autocommit) names index label text).1 = text ++ gap := by
  have hnone : ∃ gap, IsGap gap ∧ text = text ++ gap := ⟨"", by decide, String.append_empty.symm⟩
  have hblank : IsGap " " := by decide
  have hnumber : IsGap " AS Col" := by decide
  cases label with
  | some label =>
    rw [column]
    dsimp only
    split
    · refine ⟨" " ++ label, hblank.append (by decide) (hlabel label rfl), ?_⟩
      exact String.append_assoc ..
    · exact hnone
  | none =>
    cases names with
    | true =>
      refine ⟨" AS Col" ++ toString index, hnumber.append (by decide) (clean_toString index), ?_⟩
      exact String.append_assoc ..
    | false => exact hnone

/-- The texts and the values of a clause come from the same fragments. -/
structure Clause.LaidOut (fragments : List Sql) (c : Clause) : Prop where
  texts : LaidAll fragments c.texts
  params : c.params = fragments.flatMap Sql.params

namespace Clause.LaidOut

variable {a b : Clause} {fragments more : List Sql}

theorem append (ha : a.LaidOut fragments) (hb : b.LaidOut more) : (a ++ b).LaidOut (fragments ++ more) where
  texts := by
    rw [append_texts]
    exact ha.texts.append hb.texts
  params := by rw [append_params, ha.params, hb.params, List.flatMap_append]

theorem empty : Clause.LaidOut [] {} :=
  ⟨.nil, rfl⟩

theorem word {text : String} (h : Clean text) : (Clause.word text).LaidOut [] :=
  ⟨.single (.of_clean h), rfl⟩

/-- A clause that is one word or nothing. -/
theorem optional {wanted : Bool} {text : String} (h : Clean text) {c : Clause}
    (hc : c = if wanted then .word text else {}) : c.LaidOut [] := by
  rw [hc]
  split
  · exact word h
  · exact empty

theorem condition {keyword : String} (hkeyword : Clean keyword) {sql : Sql}
    (hempty : sql.text = "" → fragments = []) (hparams : sql.params = fragments.flatMap Sql.params)
    (h : Laid fragments sql.text) : (Clause.condition keyword sql).LaidOut fragments := by
  rw [Clause.condition]
  split
  · rename_i hsql
    rw [hempty (by simpa [Sql.isEmpty] using hsql)]
    exact empty
  · refine ⟨.single (h.behind ?_), hparams⟩
    exact clean_append.2 ⟨hkeyword, by decide⟩

theorem listing {keyword : String} (hkeyword : Clean keyword) {items : List String} {params : List Value}
    (hparams : params = fragments.flatMap Sql.params) (h : LaidAll fragments items) :
    (Clause.listing keyword items params).LaidOut fragments := by
  refine ⟨?_, by rw [listing_params, hparams]⟩
  rw [listing_texts]
  split
  · rename_i hnone
    rw [List.isEmpty_iff.1 hnone] at h
    exact h
  · refine .single ((h.joinWith (by decide) (by decide)).behind ?_)
    exact clean_append.2 ⟨hkeyword, by decide⟩

end Clause.LaidOut

/-! ### Whole queries -/

/-- Plans whose names have no percent sign and whose raw text has as many values as placeholders. -/
structure Plan.Balanced (p : Plan) : Prop where
  joins : CleanJoins p.joins
  model : ∀ m, p.model = some m → Clean m.table
  labels : ∀ item ∈ p.projections, ∀ label, item.label = some label → Clean label
  expressions : ∀ e ∈ p.expressions, e.Balanced
  raw : ∀ g, p.filter = some g ∨ p.having = some g → ∀ leaf ∈ (g.formula []).leaves, leaf.2.RawBalanced

/-- The fragments of a query: selection, filter, groups, filter on groups and sort keys, in this order. -/
def Plan.Emits (p : Plan) (n : Naming) (fragments : List Sql) : Prop :=
  ∃ select filter group having order,
    PathQuery.Emits n (p.projections.map fun item => item.expr.render) select ∧
    FilterEmits n p.filter filter ∧
    PathQuery.Emits n (p.groupBy.map Expr.render) group ∧
    FilterEmits n p.having having ∧
    PathQuery.Emits n (p.orderBy.map SortKey.render) order ∧
    fragments = select ++ filter ++ group ++ having ++ order

theorem Plan.Balanced.filters {p : Plan} (hp : p.Balanced) {filter : Option Filter}
    (hfilter : filter = p.filter ∨ filter = p.having) : ∀ g, filter = some g → g.Balanced := by
  intro g hsome
  have hg := Plan.filter_or_having hfilter hsome
  exact ⟨fun e he => hp.expressions e (Plan.mem_expressions_of_filter hg he), hp.raw g hg⟩

theorem Plan.Balanced.table_clean {p : Plan} (hp : p.Balanced) {tree : Tree}
    (hresolve : Tree.resolve p.joins = .ok tree) {table : String} (h : p.table tree = .ok table) :
    Clean table := by
  rw [Plan.table] at h
  split at h
  · rename_i hroot
    cases h
    exact Tree.rootTable_clean hresolve hp.joins hroot
  · rename_i hmodel
    cases h
    exact hp.model _ hmodel
  · cases h

theorem Select.decorate_laid (features : Features) (autocommit names : Bool) (index : Nat)
    {labels : List (Option String)} (hlabels : ∀ label ∈ labels, ∀ l, label = some l → Clean l)
    {fragments : List Sql} (hlength : labels.length = fragments.length)
    (hfragments : ∀ f ∈ fragments, f.Balanced) :
    LaidAll fragments
      (decorate (.soql features autocommit) names index labels (fragments.map Sql.text)) := by
  induction fragments generalizing labels index with
  | nil =>
    cases labels with
    | nil => exact .nil
    | cons label labels => cases hlength
  | cons f rest ih =>
    cases labels with
    | nil => cases hlength
    | cons label labels =>
      obtain ⟨hf, hrest⟩ := List.forall_mem_cons.1 hfragments
      obtain ⟨hlabel, hlabels⟩ := List.forall_mem_cons.1 hlabels
      obtain ⟨gap, hgap, hcolumn⟩ := column_gap features autocommit names index hlabel f.text
      rw [List.map_cons, decorate, hcolumn]
      exact .cons ((Laid.of_balanced hf).before hgap) (ih _ hlabels (Nat.succ.inj hlength) hrest)

theorem Select.limitClause_laid (w : Window) : (limitClause none w).LaidOut [] := by
  have hnumber : ∀ {keyword : String}, Clean keyword → ∀ n : UInt64,
      (Clause.word (keyword ++ toString n.toNat)).LaidOut [] :=
    fun hkeyword n => .word (clean_append.2 ⟨hkeyword, clean_toString n.toNat⟩)
  have hlimit := fun n => hnumber (show Clean "LIMIT " by decide) n
  have hoffset := hnumber (show Clean "OFFSET " by decide) w.low
  rw [limitClause]
  cases w.high with
  | some high =>
    refine (hlimit _).append ?_
    split
    · exact hoffset
    · exact .empty
  | none =>
    dsimp only
    split
    · exact Clause.LaidOut.empty.append hoffset
    · exact .empty

/-- A list of renamed fragments behind a keyword. -/
theorem Select.renameAll_laid {n : Naming} {joins : List Join} (hresolve : Tree.resolve joins = .ok n.tree)
    (hjoins : CleanJoins joins) {sources : List Sql} (hsources : ∀ source ∈ sources, source.Balanced)
    {names : List String} (h : (renameAll n sources).result = .ok names) {keyword : String}
    (hkeyword : Clean keyword) :
    ∃ fragments, Emits n sources fragments ∧
      (Clause.listing keyword names (paramsOf sources)).LaidOut fragments := by
  obtain ⟨fragments, hemits, htexts⟩ := exists_emits (renameAll_ok h).1
  refine ⟨fragments, hemits, .listing hkeyword hemits.params.symm ?_⟩
  rw [← htexts]
  exact .of_balanced (hemits.balanced hresolve hjoins hsources)

namespace Select.Parts.Of

variable {ctx : Context} {plan : Plan} {tree : Tree} {form : SelectForm} {parts : Select.Parts}
  {features : Features} {autocommit : Bool} (hparts : parts.Of ctx plan plan.columns tree form)
  (hbackend : ctx.backend = .soql features autocommit) (hresolve : Tree.resolve plan.joins = .ok tree)
  (hplan : plan.Balanced)

include hparts hbackend hresolve hplan

theorem columns_laid :
    ∃ fragments, Emits (plan.naming ctx.settings tree) (plan.projections.map fun item => item.expr.render)
        fragments ∧
      Clause.LaidOut fragments ⟨[Text.joinWith ", " parts.columns],
        plan.columns.select.flatMap fun c => c.sql.params⟩ := by
  have hsources : ∀ source ∈ plan.projections.map fun item => item.expr.render, source.Balanced := by
    refine List.forall_mem_map.2 fun item hitem => ?_
    exact Expr.balanced_render (hplan.expressions _ (Plan.mem_expressions_of_projection hitem))
  obtain ⟨renamed, hrenamed, hcolumns⟩ := (columns_ok hparts.columns).1
  have htexts : (plan.columns.select.map fun c => c.sql.text) =
      (plan.projections.map fun item => item.expr.render).map Sql.text := by
    rw [Plan.columns, List.map_map, List.map_map]
    rfl
  rw [htexts] at hrenamed
  obtain ⟨fragments, hemits, hnames⟩ := exists_emits hrenamed
  refine ⟨fragments, hemits, .single ?_, ?_⟩
  · have hlabels : ∀ label ∈ plan.columns.select.map SelectedColumn.label, ∀ l, label = some l → Clean l := by
      rw [Plan.columns, List.map_map]
      exact List.forall_mem_map.2 hplan.labels
    have hlength : (plan.columns.select.map SelectedColumn.label).length = fragments.length := by
      rw [← hemits.length_eq, Plan.columns, List.length_map, List.length_map, List.length_map]
    rw [hcolumns, hbackend, ← hnames]
    have hlaid := decorate_laid features autocommit form.columnNames 1 hlabels hlength
      (hemits.balanced hresolve hplan.joins hsources)
    exact hlaid.joinWith (by decide) (by decide)
  · show (plan.columns.select.flatMap fun c => c.sql.params) = _
    rw [hemits.params, Plan.columns, List.flatMap_map, List.flatMap_map]

/-- The clauses of a query are laid out from the fragments of its parts, in the order of the language. -/
theorem clause_laid :
    ∃ fragments, plan.Emits (plan.naming ctx.settings tree) fragments ∧
      (parts.clause ctx plan plan.columns form).LaidOut fragments := by
  have hsorts : ∀ key ∈ plan.orderBy.map SortKey.render, key.Balanced := List.forall_mem_map.2 fun key hkey =>
    SortKey.balanced_render (hplan.expressions _ (Plan.mem_expressions_of_sortKey hkey))
  have hgroups : ∀ source ∈ plan.groupBy.map Expr.render, source.Balanced := List.forall_mem_map.2 fun e he =>
    Expr.balanced_render (hplan.expressions _ (Plan.mem_expressions_of_group he))
  obtain ⟨select, hselect, hselectLaid⟩ := hparts.columns_laid hbackend hresolve hplan
  obtain ⟨filter, hfilter, hfilterEmpty, hfilterParams, hfilterLaid⟩ :=
    compileFilter_laid hresolve hplan.joins (hplan.filters (.inl rfl)) hparts.filter
  obtain ⟨group, hgroup, hgroupLaid⟩ :=
    renameAll_laid hresolve hplan.joins hgroups hparts.groups (show Clean "GROUP BY" by decide)
  obtain ⟨having, hhaving, hhavingEmpty, hhavingParams, hhavingLaid⟩ :=
    compileFilter_laid hresolve hplan.joins (hplan.filters (.inr rfl)) hparts.having
  have hkeys := hparts.sorts
  rw [sortKeys_soql hbackend] at hkeys
  obtain ⟨order, horder, horderLaid⟩ :=
    renameAll_laid hresolve hplan.joins hsorts hkeys (show Clean "ORDER BY" by decide)
  refine ⟨_, ⟨select, filter, group, having, order, hselect, hfilter, hgroup, hhaving, horder, rfl⟩, ?_⟩
  have hexplain : parts.explain.LaidOut [] :=
    .optional (by decide) (explainClause_soql hbackend hparts.explain)
  have hdistinct : parts.distinct.LaidOut [] :=
    .optional (by decide) (distinctClause_soql hbackend hparts.distinct)
  have hlock : parts.lock.LaidOut [] :=
    .optional (by cases plan.nowait <;> decide) (lockClause_soql hbackend hparts.lock)
  have hfrom : Clause.LaidOut [] ⟨["FROM", parts.table], []⟩ :=
    Clause.LaidOut.append (.word (by decide)) (.word (hplan.table_clean hresolve hparts.table))
  have hlimits : (if form.limits then limitClause ctx.backend.noLimit plan.window else {}).LaidOut [] := by
    rw [hbackend]
    split
    · exact limitClause_laid plan.window
    · exact .empty
  have hall := ((((((((((hexplain.append (.word (by decide : Clean "SELECT"))).append hdistinct).append
    hselectLaid).append hfrom).append
    (.condition (by decide : Clean "WHERE") hfilterEmpty hfilterParams hfilterLaid)).append
    hgroupLaid).append
    (.condition (by decide : Clean "HAVING") hhavingEmpty hhavingParams hhavingLaid)).append
    horderLaid).append hlimits).append hlock)
  rw [Select.Parts.clause, sortKeys_soql hbackend]
  simp only [List.nil_append, List.append_nil] at hall
  exact hall

end Select.Parts.Of

/-- The placeholders of a query are those of its fragments, and the values bound to them are the values of
the fragments, in the order in which these stand in the query. -/
theorem Compiler.compile_aligned (c : Compiler) {features : Features} {autocommit : Bool}
    (hbackend : c.context.backend = .soql features autocommit) (hmemo : c.memo.Faithful c.plan.joins)
    (hplan : c.plan.Balanced) (hmodel : ∀ m, c.plan.model = some m → m.tooling = false)
    (form : SelectForm) {q : Sql} (h : (c.compile form).1.result = .ok q) :
    marks q.text = q.params.length ∧ (q = .empty ∨ ∃ tree fragments,
      Tree.resolve c.plan.joins = .ok tree ∧ c.plan.Emits (c.plan.naming c.context.settings tree) fragments ∧
      q.params = fragments.flatMap Sql.params ∧ Laid fragments q.text ∧
      ∀ front f back, fragments = front ++ f :: back → ∃ left right, q.text = left ++ f.text ++ right ∧
        marks left = (front.flatMap Sql.params).length ∧ marks f.text = f.params.length) := by
  rcases Compiler.compile_ok hmemo h with rfl | ⟨tree, hresolve, hcompile⟩
  · exact ⟨by decide, .inl rfl⟩
  rw [hcompile] at h
  rcases Select.assemble_ok h with rfl | ⟨parts, hparts, hquery, -⟩
  · exact ⟨by decide, .inl rfl⟩
  obtain ⟨fragments, hemits, hclause⟩ := hparts.clause_laid hbackend hresolve hplan
  have hlaid : Laid fragments q.text := by
    rw [hquery, Select.unqualify_eq hmodel]
    exact hclause.texts.joinWith (by decide) (by decide)
  have hparams : q.params = fragments.flatMap Sql.params := by
    rw [hquery]
    exact hclause.params
  refine ⟨by rw [hlaid.count, hparams], .inr ⟨tree, fragments, hresolve, hemits, hparams, hlaid, ?_⟩⟩
  exact fun front f back hsplit => hlaid.place hsplit

/-- Raw text in a call, a list of values, a branch that is left out and a raw branch. -/
def Compiler.ofRates : Compiler where
  context := .of .soql {}
  plan :=
    { joins := [⟨none, "Contact", [], "C"⟩]
      select := [⟨.call "FORMAT" (.raw ⟨"C.Amount * %s", [.text "rate"]⟩), some "total"⟩]
      filter := some { children :=
        [.lookup ⟨.column "C" "Name", .oneOf, .list [.text "x", .text "y"]⟩, .everything,
          .raw ⟨"(SELECT %s)", [.text "z"]⟩] }
      orderBy := [{ expr := .column "C" "Name" }] }

theorem Compiler.ofRates_aligned :
    ∃ q, (Compiler.ofRates.compile {}).1.result = .ok q ∧
      q.text = "SELECT FORMAT(C.Amount * %s) total FROM Contact " ++
        "WHERE (Contact.Name IN (%s, %s) AND (SELECT %s)) ORDER BY Contact.Name ASC" ∧
      marks q.text = q.params.length ∧ (q = .empty ∨ ∃ tree fragments,
        Tree.resolve ofRates.plan.joins = .ok tree ∧
        ofRates.plan.Emits (ofRates.plan.naming {} tree) fragments ∧
        q.params = fragments.flatMap Sql.params ∧ Laid fragments q.text ∧
        ∀ front f back, fragments = front ++ f :: back → ∃ left right, q.text = left ++ f.text ++ right ∧
          marks left = (front.flatMap Sql.params).length ∧ marks f.text = f.params.length) := by
  have hplan : ofRates.plan.Balanced := by
    refine ⟨by decide, ?_, ?_, by decide, ?_⟩
    · intro m hm
      cases hm
    · intro item hitem label hlabel
      cases List.mem_singleton.1 hitem
      cases hlabel
      decide
    · intro g hg
      rcases hg with hg | hg
      · cases hg
        decide
      · cases hg
  have hmodel : ∀ m, ofRates.plan.model = some m → m.tooling = false := by
    intro m hm
    cases hm
  have hmemo : ofRates.memo.Faithful ofRates.plan.joins := by
    intro t ht
    cases ht
  have htext : (ofRates.compile {}).1.result.toOption.map Sql.text =
      some ("SELECT FORMAT(C.Amount * %s) total FROM Contact " ++
        "WHERE (Contact.Name IN (%s, %s) AND (SELECT %s)) ORDER BY Contact.Name ASC") := by
    decide +kernel
  cases hresult : (ofRates.compile {}).1.result with
  | error e =>
    rw [hresult] at htext
    cases htext
  | ok q =>
    rw [hresult] at htext
    exact ⟨q, rfl, Option.some_inj.1 htext,
      Compiler.compile_aligned ofRates rfl hmemo hplan hmodel {} hresult⟩

end PathQuery
