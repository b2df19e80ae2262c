import PathQuery.Plan.Codec
import PathQuery.Proofs.Dictionary
import PathQuery.Proofs.Plan.Values
/-!
# Reading a plan back from JSON

Reading gives back what was written, at any depth of functions, of groups and of the lists and options around
them. The one thing that JSON cannot hold is a double that is not finite: it is written as a null and comes
back as one. So reading what was written never fails, and gives the plan with those values replaced; it is the
same plan exactly when there are none.

For each type there is one equation, `ofJson? x.toJson = some y`, which says what becomes of `x`. The records
are read member by member, and the tagged values by their tag.
-/

namespace PathQuery

open Json (required? defaulted? optional? nullable? listOf? member? text? bool? word? choice? Members Variants)

/-! ### Members, lists and options -/

namespace Json

@[simp] theorem readable_null : Json.null.readable = true := by
  simp [readable]

@[simp] theorem readable_bool (b : Bool) : (Json.bool b).readable = true := by
  simp [readable]

@[simp] theorem readable_number (n : Number) : (Json.number n).readable = true := by
  simp [readable]

@[simp] theorem readable_text (s : String) : (Json.text s).readable = true := by
  simp [readable]

@[simp] theorem readable_list (items : List Json) : (Json.list items).readable = items.all readable := by
  rw [readable, List.all_subtype (g := readable) fun _ _ => rfl, List.unattach_attach]

@[simp] theorem readable_object (members : Members) :
    (Json.object members).readable = members.all fun member => member.2.readable := by
  rw [readable, List.all_subtype (g := fun member => member.2.readable) fun _ _ => rfl, List.unattach_attach]

@[simp] theorem text?_text (s : String) : text? (.text s) = some s := rfl

@[simp] theorem bool?_bool (b : Bool) : bool? (.bool b) = some b := rfl

@[simp] theorem word?_wordToJson (n : UInt64) : word? (wordToJson n) = some n := by
  have hlt := n.toNat_lt_size
  rw [wordToJson, Json.ofNat, word?, if_pos (by omega)]
  simp

/-- An object that starts with its tag is read by it. -/
theorem tagged?_object (nested : Bool) (variants : Variants) (tag : String) {members : Members}
    (hreadable : members.all fun member => member.2.readable) (htype : ∀ member ∈ members, member.1 ≠ "type") :
    tagged? nested variants (.object (("type", .text tag) :: members)) =
      some (tag, ("type", .text tag) :: members) := by
  have hfilter : members.filter (fun member => member.1 == "type") = [] := by
    simpa using htype
  simp [tagged?, required?, member?, tag?, hreadable, hfilter]

section Keyed

variable {α β : Type} {members : Members} {read : Json → Option α}

/-- Where no key is repeated, a member is found by its key. -/
theorem member?_of_mem (hkeys : (members.map Prod.fst).Nodup) {key : String} {value : Json}
    (hmem : (key, value) ∈ members) : member? members key = some (some value) := by
  have hsingle : members.filter (fun member => member.1 == key) = [(key, value)] := by
    rw [← List.perm_singleton, List.perm_ext_iff_of_nodup (hkeys.of_map.filter _) (List.nodup_singleton _)]
    intro member
    rw [List.mem_filter, List.mem_singleton, beq_iff_eq]
    constructor
    · rintro ⟨hmember, hkey⟩
      exact List.inj_on_of_nodup_map hkeys hmember hmem hkey
    · rintro rfl
      exact ⟨hmem, rfl⟩
  rw [member?, hsingle]

theorem defaulted?_bind (key : String) (hkeys : (members.map Prod.fst).Nodup) {value : Json}
    (hmem : (key, value) ∈ members) {a : α} (hread : read value = some a) (fallback : α) (next : α → Option β) :
    (defaulted? members key fallback read >>= next) = next a := by
  rw [defaulted?, member?_of_mem hkeys hmem]
  exact congrArg (Option.bind · next) hread

theorem optional?_bind (key : String) (hkeys : (members.map Prod.fst).Nodup) {value : Json}
    (hmem : (key, value) ∈ members) {o : Option α} (hread : nullable? read value = some o)
    (next : Option α → Option β) : (optional? members key read >>= next) = next o :=
  defaulted?_bind key hkeys hmem hread none next

end Keyed

section Written

variable {α β γ : Type}

theorem mapM_map_written {read : γ → Option β} {write : α → γ} {g : α → β}
    (h : ∀ a, read (write a) = some (g a)) (l : List α) : (l.map write).mapM read = some (l.map g) := by
  rw [List.mapM_map]
  simp [Function.comp_def, h, ← Option.pure_def]

variable {read : Json → Option β} {write : α → Json} {g : α → β}

theorem listOf?_written (h : ∀ a, read (write a) = some (g a)) (l : List α) :
    listOf? read (.list (l.map write)) = some (l.map g) :=
  mapM_map_written h l

/-- Where no null is read, what was written is not taken for an absent value. -/
theorem nullable?_written (hnull : read .null = none) (h : ∀ a, read (write a) = some (g a)) (o : Option α) :
    nullable? read (optionToJson write o) = some (o.map g) := by
  cases o with
  | none => rfl
  | some a =>
    have hread := h a
    simp only [optionToJson, nullable?]
    split
    · rename_i heq
      simp [heq, hnull] at hread
    · simp [hread]

theorem dictOfJson?_written {read : Json → Option α} (h : ∀ a, read (write a) = some a) (d : Dict α) :
    dictOfJson? read (dictToJson write d) = some d := by
  have hentries : (d.entries.map fun entry => (entry.1, write entry.2)).mapM
      (fun member => (read member.2).map (member.1, ·)) = some (d.entries.map id) :=
    mapM_map_written (fun entry => by simp [h]) d.entries
  simp only [dictOfJson?, dictToJson, members?, Option.bind_eq_bind, Option.bind_some]
  rw [hentries]
  simp [Dict.ofList_entries]

end Written

end Json

/-! ### Tagged values -/

section Tagged

variable {nested : Bool} {j : Json} {members : Members}

namespace Expr

theorem read?_column (h : j.tagged? nested variants = some ("column", members)) :
    read? nested j = do
      let source ← required? members "alias" text?
      let field ← required? members "column" text?
      return .column source field := by
  rw [read?]
  split <;> simp_all

theorem read?_call (h : j.tagged? nested variants = some ("function", members)) :
    read? nested j = do
      let function ← required? members "name" text?
      let argument ← required? members "arg" (read? true)
      return .call function argument := by
  rw [read?]
  split
  case h_2 found hfound =>
    obtain rfl : found = members := by simpa using hfound.symm.trans h
    refine Option.bind_congr fun function _ => ?_
    rw [required?]
    split <;> simp_all
  all_goals simp_all

theorem read?_countAll (h : j.tagged? nested variants = some ("count_all", members)) :
    read? nested j = some .countAll := by
  rw [read?]
  split <;> simp_all

theorem read?_raw (h : j.tagged? nested variants = some ("raw", members)) :
    read? nested j = (Sql.ofMembers? members).map .raw := by
  rw [read?]
  split <;> simp_all

end Expr

namespace Condition

theorem read?_group (h : j.tagged? nested variants = some ("node", members)) :
    read? nested j = do
      let items ← childValues? members
      let children ← items.mapM (read? true)
      let g ← Group.ofMembers? true members children
      return .group g := by
  rw [read?]
  split
  case h_1 found hfound =>
    obtain rfl : found = members := by simpa using hfound.symm.trans h
    split
    · rename_i items hitems
      rw [hitems]
      simp only [List.mapM_subtype, List.unattach_attach, Option.bind_eq_bind, Option.pure_def, Option.bind_some]
      exact Option.bind_congr fun children _ => Option.map_eq_bind
    · rename_i hitems
      rw [hitems]
      rfl
  all_goals simp_all

theorem read?_lookup (h : j.tagged? nested variants = some ("lookup", members)) :
    read? nested j = (Lookup.ofMembers? true members).map .lookup := by
  rw [read?]
  split <;> simp_all

theorem read?_raw (h : j.tagged? nested variants = some ("raw", members)) :
    read? nested j = (Sql.ofMembers? members).map .raw := by
  rw [read?]
  split <;> simp_all

theorem read?_everything (h : j.tagged? nested variants = some ("everything", members)) :
    read? nested j = some .everything := by
  rw [read?]
  split <;> simp_all

theorem read?_nothing (h : j.tagged? nested variants = some ("nothing", members)) :
    read? nested j = some .nothing := by
  rw [read?]
  split <;> simp_all

end Condition

end Tagged

section Records

attribute [local simp] Json.fields? required? defaulted? optional? member?

/-! ### Values and expressions -/

/-- What JSON keeps of a value. -/
def Value.stored : Value → Value
  | .float x => if x.isFinite then .float x else .null
  | v => v

theorem Value.stored_eq_self_iff {v : Value} : v.stored = v ↔ ∀ x, v = .float x → x.isFinite := by
  cases v with
  | float x => by_cases h : x.isFinite <;> simp [stored, h]
  | _ => simp [stored]

theorem Value.readable_toJson (v : Value) : v.toJson.readable := by
  cases v with
  | float x => by_cases h : x.isFinite <;> simp [toJson, h]
  | _ => simp [toJson]

theorem Value.ofJson?_toJson (v : Value) : Value.ofJson? v.toJson = some v.stored := by
  cases v with
  | integer i =>
    have hrange : Int64.minValue.toInt ≤ i.toInt ∧ i.toInt ≤ Int64.maxValue.toInt :=
      ⟨i.minValue_le_toInt, i.toInt_le⟩
    simp only [toJson, ofJson?, ofInt, if_pos hrange, Int64.ofInt_toInt, stored]
  | float x => by_cases h : x.isFinite <;> simp [toJson, ofJson?, stored, h]
  | _ => rfl

theorem readable_paramsToJson (params : List Value) : (paramsToJson params).readable := by
  simp [paramsToJson, Value.readable_toJson]

theorem paramsOfJson?_paramsToJson (params : List Value) :
    paramsOfJson? (paramsToJson params) = some (params.map Value.stored) :=
  Json.listOf?_written Value.ofJson?_toJson params

/-- Raw text behind a tag. -/
theorem Sql.ofMembers?_written (tag : String) (sql : Sql) :
    Sql.ofMembers? [("type", .text tag), ("sql", .text sql.text), ("params", paramsToJson sql.params)] =
      some (sql.mapValues Value.stored) := by
  simp [Sql.ofMembers?, paramsOfJson?_paramsToJson, Sql.mapValues]

theorem Expr.readable_toJson (e : Expr) : e.toJson.readable := by
  induction e with
  | call function argument ih => simp [toJson, ih]
  | _ => simp [toJson, readable_paramsToJson]

theorem Expr.read?_toJson (nested : Bool) (e : Expr) :
    read? nested e.toJson = some (e.mapValues Value.stored) := by
  induction e generalizing nested with
  | column source field =>
    rw [toJson, read?_column (Json.tagged?_object _ _ _ (by simp) (by simp))]
    simp [mapValues]
  | call function argument ih =>
    rw [toJson, read?_call (Json.tagged?_object _ _ _ (by simp [argument.readable_toJson]) (by simp))]
    simp [mapValues, ih]
  | countAll =>
    rw [toJson, read?_countAll (Json.tagged?_object _ _ _ (by simp) (by simp)), mapValues]
  | raw sql =>
    rw [toJson, read?_raw (Json.tagged?_object _ _ _ (by simp [readable_paramsToJson]) (by simp)),
      Sql.ofMembers?_written]
    simp [mapValues]

theorem Expr.ofJson?_toJson (e : Expr) : Expr.ofJson? e.toJson = some (e.mapValues Value.stored) :=
  Expr.read?_toJson false e

/-! ### Conditions -/

theorem Connective.read?_text (nested : Bool) (connective : Connective) :
    Connective.read? nested (.text connective.text) = some connective := by
  cases connective <;> rfl

theorem LookupKind.read?_word (nested : Bool) (kind : LookupKind) :
    LookupKind.read? nested (.text kind.word) = some kind := by
  cases kind <;> rfl

theorem Operand.ofJson?_toJson (rhs : Operand) : Operand.ofJson? rhs.toJson = some (rhs.mapValues Value.stored) := by
  cases rhs with
  | list values =>
    simp [toJson, paramsToJson, ofJson?, Json.mapM_map_written Value.ofJson?_toJson, mapValues]
  | single value =>
    have hread : Operand.ofJson? value.toJson = (Value.ofJson? value.toJson).map .single := by
      cases value with
      | float x => by_cases h : x.isFinite <;> simp [Value.toJson, ofJson?, h]
      | _ => rfl
    simp [toJson, hread, Value.ofJson?_toJson, mapValues]

theorem Operand.readable_toJson (rhs : Operand) : rhs.toJson.readable := by
  cases rhs with
  | list values => exact readable_paramsToJson values
  | single value => exact value.readable_toJson

theorem Lookup.readable_toMembers (l : Lookup) : l.toMembers.all fun member => member.2.readable := by
  simp [toMembers, l.lhs.readable_toJson, l.rhs.readable_toJson]

theorem Lookup.ofMembers?_written (nested : Bool) (l : Lookup) :
    Lookup.ofMembers? nested (("type", .text "lookup") :: l.toMembers) = some (l.mapValues Value.stored) := by
  simp [ofMembers?, toMembers, Expr.read?_toJson, LookupKind.read?_word, Operand.ofJson?_toJson, mapValues]

/-- A group is read from its members, whatever stands in front of them. -/
theorem childValues?_groupMembers (front : Members) (hfront : ∀ member ∈ front, member.1 = "type")
    (connective : Connective) (negated grouped : Bool) (items : List Json) :
    childValues? (front ++ groupMembers connective negated grouped items) = some items := by
  have hnone : front.filter (fun member => member.1 == "children") = [] := by
    simp +contextual [hfront]
  simp [childValues?, groupMembers, hnone]

theorem Group.ofMembers?_groupMembers {α : Type} (front : Members) (hfront : ∀ member ∈ front, member.1 = "type")
    (nested : Bool) (connective : Connective) (negated grouped : Bool) (items : List Json) (children : List α) :
    Group.ofMembers? nested (front ++ groupMembers connective negated grouped items) children =
      some ⟨connective, children, negated, grouped⟩ := by
  have hnone : ∀ key, key ≠ "type" → front.filter (fun member => member.1 == key) = [] := by
    intro key hkey
    simp +contextual [hfront, hkey.symm]
  simp [ofMembers?, groupMembers, hnone, Connective.read?_text]

mutual

theorem Condition.readable_toJson (c : Condition) : c.toJson.readable := by
  cases c with
  | group g => simpa [Condition.toJson] using Filter.readable_toMembers g
  | lookup l => simpa [Condition.toJson] using l.readable_toMembers
  | raw sql => simp [Condition.toJson, readable_paramsToJson]
  | everything => simp [Condition.toJson]
  | nothing => simp [Condition.toJson]

theorem Filter.readable_toMembers (g : Filter) : (Filter.toMembers g).all fun member => member.2.readable := by
  obtain ⟨connective, children, negated, grouped⟩ := g
  simpa [Filter.toMembers, groupMembers] using conditionsToJson_readable children

theorem conditionsToJson_readable (children : List Condition) : (conditionsToJson children).all Json.readable := by
  cases children with
  | nil => rfl
  | cons c rest =>
    rw [conditionsToJson, List.all_cons, c.readable_toJson, conditionsToJson_readable rest]
    rfl

end

mutual

theorem Condition.read?_toJson (nested : Bool) (c : Condition) :
    Condition.read? nested c.toJson = some (c.mapValues Value.stored) := by
  cases c with
  | group g =>
    have hchildren := Filter.mapM_children true g
    have hreadable := Filter.readable_toMembers g
    obtain ⟨connective, children, negated, grouped⟩ := g
    rw [Condition.toJson,
      Condition.read?_group (Json.tagged?_object _ _ _ hreadable (by simp [Filter.toMembers, groupMembers]))]
    have htag : ∀ member ∈ [("type", Json.text "node")], member.1 = "type" := by simp
    have hitems := childValues?_groupMembers _ htag connective negated grouped (conditionsToJson children)
    have hgroup := Group.ofMembers?_groupMembers _ htag true connective negated grouped (conditionsToJson children)
      (mapValuesOfAll Value.stored children)
    rw [List.singleton_append] at hitems hgroup
    simp [Filter.toMembers, hitems, hchildren, hgroup, Condition.mapValues, Filter.mapValues]
  | lookup l =>
    have htag : ∀ member ∈ l.toMembers, member.1 ≠ "type" := by simp [Lookup.toMembers]
    rw [Condition.toJson, Condition.read?_lookup (Json.tagged?_object _ _ _ l.readable_toMembers htag),
      Lookup.ofMembers?_written]
    simp [Condition.mapValues]
  | raw sql =>
    rw [Condition.toJson,
      Condition.read?_raw (Json.tagged?_object _ _ _ (by simp [readable_paramsToJson]) (by simp)),
      Sql.ofMembers?_written]
    simp [Condition.mapValues]
  | everything =>
    rw [Condition.toJson, Condition.read?_everything (Json.tagged?_object _ _ _ (by simp) (by simp)),
      Condition.mapValues]
  | nothing =>
    rw [Condition.toJson, Condition.read?_nothing (Json.tagged?_object _ _ _ (by simp) (by simp)),
      Condition.mapValues]

theorem Filter.mapM_children (nested : Bool) (g : Filter) :
    (conditionsToJson g.children).mapM (Condition.read? nested) = some (mapValuesOfAll Value.stored g.children) := by
  obtain ⟨connective, children, negated, grouped⟩ := g
  exact conditionsToJson_mapM nested children

theorem conditionsToJson_mapM (nested : Bool) (children : List Condition) :
    (conditionsToJson children).mapM (Condition.read? nested) = some (mapValuesOfAll Value.stored children) := by
  cases children with
  | nil => rfl
  | cons c rest =>
    simp [conditionsToJson, List.mapM_cons, c.read?_toJson, conditionsToJson_mapM nested rest, mapValuesOfAll]

end

theorem Filter.ofJson?_toJson (g : Filter) :
    Filter.ofJson? (Filter.toJson g) = some (Filter.mapValues Value.stored g) := by
  obtain ⟨connective, children, negated, grouped⟩ := g
  have hchildren := childValues?_groupMembers [] (by simp) connective negated grouped (conditionsToJson children)
  have hgroup := Group.ofMembers?_groupMembers [] (by simp) false connective negated grouped
    (conditionsToJson children) (mapValuesOfAll Value.stored children)
  rw [List.nil_append] at hchildren hgroup
  simp only [Filter.ofJson?, Filter.toJson, Filter.toMembers, Json.fields?, Option.bind_eq_bind, Option.bind_some,
    hchildren]
  simp [Condition.ofJson?, conditionsToJson_mapM, hgroup, Filter.mapValues]

/-! ### The parts of a plan -/

theorem Model.ofJson?_toJson (m : Model) : Model.ofJson? m.toJson = some m := by
  simp [ofJson?, toJson]

theorem Join.ofJson?_toJson (j : Join) : Join.ofJson? j.toJson = some j := by
  have hparent := Json.nullable?_written (g := id) rfl Json.text?_text j.parent
  have hcolumns : listOf? columnPairOfJson?
      (.list (j.columns.map fun pair => .list [.text pair.1, .text pair.2])) = some (j.columns.map id) :=
    Json.listOf?_written (fun pair => by rfl) j.columns
  simp [ofJson?, toJson, hparent, hcolumns]

theorem Projection.ofJson?_toJson (item : Projection) :
    Projection.ofJson? item.toJson = some (item.mapValues Value.stored) := by
  have hlabel := Json.nullable?_written (g := id) rfl Json.text?_text item.label
  simp [ofJson?, toJson, Expr.ofJson?_toJson, hlabel, mapValues]

theorem NullsPlace.ofJson?_word (place : NullsPlace) : NullsPlace.ofJson? (.text place.word) = some place := by
  cases place <;> rfl

theorem SortKey.ofJson?_toJson (key : SortKey) : SortKey.ofJson? key.toJson = some (key.mapValues Value.stored) := by
  have hnulls := Json.nullable?_written (g := id) rfl NullsPlace.ofJson?_word key.nulls
  simp [ofJson?, toJson, Expr.ofJson?_toJson, hnulls, mapValues]

theorem Explanation.ofJson?_toJson (e : Explanation) : Explanation.ofJson? e.toJson = some e := by
  have hformat := Json.nullable?_written (g := id) rfl Json.text?_text e.format
  simp [ofJson?, toJson, hformat, Json.dictOfJson?_written Json.text?_text]

theorem Options.ofJson?_toJson (o : Options) : Options.ofJson? o.toJson = some o := by
  have hallOrNone := Json.nullable?_written (g := id) rfl Json.bool?_bool o.allOrNone
  simp [ofJson?, toJson, hallOrNone]

/-! ### Plans -/

theorem Plan.keys_nodup (p : Plan) : (p.toMembers.map Prod.fst).Nodup := by
  simp [toMembers]

/-- A plan comes back with its values as JSON keeps them. -/
theorem Plan.ofJson?_toJson (p : Plan) : Plan.ofJson? p.toJson = some (p.mapValues Value.stored) := by
  have hmodel := Json.nullable?_written (g := id) rfl Model.ofJson?_toJson p.model
  have hjoins := Json.listOf?_written (g := id) Join.ofJson?_toJson p.joins
  have hfilter := Json.nullable?_written rfl Filter.ofJson?_toJson p.filter
  have hhaving := Json.nullable?_written rfl Filter.ofJson?_toJson p.having
  have hhigh := Json.nullable?_written (g := id) rfl Json.word?_wordToJson p.window.high
  have hexplain := Json.nullable?_written (g := id) rfl Explanation.ofJson?_toJson p.explain
  have hreferences := Json.dictOfJson?_written Json.word?_wordToJson p.references
  have hprojections := Json.listOf?_written Projection.ofJson?_toJson
  have horder := Json.listOf?_written SortKey.ofJson?_toJson p.orderBy
  have hexprs := Json.listOf?_written Expr.ofJson?_toJson
  have hkeys := p.keys_nodup
  -- The members are read one after the other, in the order of the reader.
  rw [ofJson?, toJson, Json.fields?, Option.bind_eq_bind, Option.bind_some,
    Json.optional?_bind "model" hkeys (by simp [toMembers]) hmodel,
    Json.defaulted?_bind "alias_map" hkeys (by simp [toMembers]) hjoins,
    Json.defaulted?_bind "alias_refcount" hkeys (by simp [toMembers]) hreferences,
    Json.defaulted?_bind "select" hkeys (by simp [toMembers]) (hprojections p.select),
    Json.defaulted?_bind "extra_select" hkeys (by simp [toMembers]) (hprojections p.extraSelect),
    Json.optional?_bind "where" hkeys (by simp [toMembers]) hfilter,
    Json.defaulted?_bind "group_by" hkeys (by simp [toMembers]) (hexprs p.groupBy),
    Json.optional?_bind "having" hkeys (by simp [toMembers]) hhaving,
    Json.defaulted?_bind "order_by" hkeys (by simp [toMembers]) horder,
    Json.defaulted?_bind "distinct" hkeys (by simp [toMembers]) (Json.bool?_bool p.distinct),
    Json.defaulted?_bind "distinct_fields" hkeys (by simp [toMembers]) (hexprs p.distinctOn),
    Json.defaulted?_bind "low_mark" hkeys (by simp [toMembers]) (Json.word?_wordToJson p.window.low),
    Json.optional?_bind "high_mark" hkeys (by simp [toMembers]) hhigh,
    Json.defaulted?_bind "select_for_update" hkeys (by simp [toMembers]) (Json.bool?_bool p.forUpdate),
    Json.defaulted?_bind "select_for_update_nowait" hkeys (by simp [toMembers]) (Json.bool?_bool p.nowait),
    Json.optional?_bind "explain" hkeys (by simp [toMembers]) hexplain,
    Json.defaulted?_bind "options" hkeys (by simp [toMembers]) p.options.ofJson?_toJson]
  simp [mapValues]

end Records

/-- **Plans survive the way through JSON.** Reading the JSON of a plan gives the same plan exactly when its
doubles, wherever they stand, are finite. -/
theorem Plan.ofJson?_toJson_eq_some_iff (p : Plan) :
    Plan.ofJson? p.toJson = some p ↔ ∀ x, Value.float x ∈ p.values → x.isFinite := by
  rw [p.ofJson?_toJson, Option.some_inj, p.mapValues_eq_self_iff]
  simp only [Value.stored_eq_self_iff]
  constructor
  · intro h x hx
    exact h _ hx x rfl
  · intro h v hv x hvx
    exact h x (hvx ▸ hv)

end PathQuery
