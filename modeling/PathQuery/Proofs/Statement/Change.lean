import PathQuery.Proofs.Relation.Direction
import PathQuery.Proofs.Report
import PathQuery.Statement.Change
/-!
# Which table a statement changes

UPDATE and DELETE name the table of the root, quoted by the backend, in front of everything that depends on
the filter. The root is the plan's own table, the one that stands alone, exactly when no join is followed the
other way; with such a join the statement changes rows of a table that was joined.
-/

namespace PathQuery

/-- A statement that deletes rows of a table. -/
def Sql.Deletes (backend : Backend) (table : String) (q : Sql) : Prop :=
  ∃ rest, q.text = "DELETE FROM " ++ backend.quoteName table ++ rest ∧
    (rest = "" ∨ ∃ condition, rest = " WHERE " ++ condition)

/-- A statement that sets fields of a table. -/
def Sql.Updates (backend : Backend) (table : String) (q : Sql) : Prop :=
  ∃ rest, q.text = "UPDATE " ++ backend.quoteName table ++ " SET " ++ rest

theorem filtered_text (statement filter : Sql) :
    ∃ rest, (filtered statement filter).text = statement.text ++ rest ∧
      (rest = "" ∨ ∃ condition, rest = " WHERE " ++ condition) := by
  rw [filtered]
  split
  · exact ⟨"", String.append_empty.symm, .inl rfl⟩
  · exact ⟨" WHERE " ++ filter.text, by simp only [String.append_assoc], .inr ⟨_, rfl⟩⟩

namespace Plan

variable {p : Plan} {settings : Settings} {backend : Backend} {q : Sql} {tree : Tree} {table : String}

theorem target_table (hresolve : Tree.resolve p.joins = .ok tree) (htable : p.table tree = .ok table)
    {named : String} {filter : Sql} (h : (p.target settings).result = .ok (some (named, filter))) :
    named = table := by
  rw [target, hresolve] at h
  obtain ⟨t, ht, h, -⟩ := Report.bind_ok h
  cases ht
  obtain ⟨found, hfound, h, -⟩ := Report.bind_ok h
  rw [Report.ofExcept_result, htable] at hfound
  cases hfound
  obtain ⟨outcome, -, h, -⟩ := Report.bind_ok h
  cases outcome with
  | none => cases h
  | some sql =>
    cases h
    rfl

theorem delete_table (hresolve : Tree.resolve p.joins = .ok tree) (htable : p.table tree = .ok table)
    (h : (p.delete backend settings).result = .ok q) (hq : q.text ≠ "") : q.Deletes backend table := by
  obtain ⟨target, htarget, h, -⟩ := Report.bind_ok h
  cases target with
  | none =>
    cases h
    exact absurd rfl hq
  | some target =>
    cases h
    rw [← target_table hresolve htable htarget]
    exact filtered_text _ _

theorem update_table (hresolve : Tree.resolve p.joins = .ok tree) (htable : p.table tree = .ok table)
    {values : List (String × Value)} (h : (p.update backend settings values).result = .ok q)
    (hq : q.text ≠ "") : q.Updates backend table := by
  rw [update] at h
  split at h
  · cases h
    exact absurd rfl hq
  · obtain ⟨target, htarget, h, -⟩ := Report.bind_ok h
    cases target with
    | none =>
      cases h
      exact absurd rfl hq
    | some target =>
      cases h
      obtain ⟨rest, htext, -⟩ := filtered_text
        ⟨"UPDATE " ++ backend.quoteName target.1 ++ " SET " ++ Text.joinWith ", "
          (values.map fun entry => assignment backend entry.1), values.map Prod.snd⟩ target.2
      rw [← target_table hresolve htable htarget]
      exact ⟨_, htext.trans (String.append_assoc ..)⟩

/-- Whatever the backend and the settings, the statements of the plan change rows of one table. -/
def Changes (p : Plan) (table : String) : Prop :=
  ∀ backend settings q, q.text ≠ "" →
    ((p.delete backend settings).result = .ok q → q.Deletes backend table) ∧
      ∀ values, (p.update backend settings values).result = .ok q → q.Updates backend table

/-- One table of the plan stands alone, and it is that of the model. -/
structure BasedOn (p : Plan) (model : Model) (base : Join) : Prop where
  model_eq : p.model = some model
  mem : base ∈ p.joins
  alone : base.parent = none
  single : ∀ j ∈ p.joins, j.parent = none → j = base
  table_eq : base.table = model.table

/-- **Statements change the table of the root.** It is the model's own table, the one that stands alone,
exactly when no join is followed the other way. -/
theorem changes_root {p : Plan} {model : Model} {base : Join} {tree : Tree} (h : p.BasedOn model base)
    (hresolve : Tree.resolve p.joins = .ok tree) :
    ∃ root ∈ p.joins, tree.root = some root.name ∧ p.Changes root.table ∧
      (root = base ↔ ∀ j ∈ p.joins, j.isReverse = false) ∧
      ((∀ j ∈ p.joins, j.isReverse = false) → p.Changes model.table) := by
  obtain ⟨root, hroot, hname, htable, hrooted⟩ := Tree.exists_root hresolve (List.ne_nil_of_mem h.mem)
  have hfrom : p.table tree = .ok root.table := by
    rw [Plan.table, htable]
  have hchanges : p.Changes root.table := fun backend settings q hq =>
    ⟨fun hdelete => delete_table hresolve hfrom hdelete hq,
      fun values hupdate => update_table hresolve hfrom hupdate hq⟩
  have hbase : root = base ↔ ∀ j ∈ p.joins, j.isReverse = false := by
    rw [← hrooted.root_eq_base_iff h.mem h.alone h.single]
    exact ⟨congrArg Join.name, hrooted.join_unique hroot h.mem⟩
  refine ⟨root, hroot, hname, hchanges, hbase, fun hforward => ?_⟩
  rw [← h.table_eq, ← hbase.2 hforward]
  exact hchanges

/-- The contacts of the accounts with a given name. -/
def contactsOfAcme : Plan where
  model := some { table := "Contact" }
  joins := [.base "Contact" "C", .single "C" "Account" "AccountId" "Id" "A"]
  filter := some (.all [.lookup ⟨.column "A" "Name", .exact, .single (.text "Acme")⟩])

theorem contactsOfAcme_changes :
    contactsOfAcme.BasedOn { table := "Contact" } (.base "Contact" "C") ∧
      (∀ j ∈ contactsOfAcme.joins, j.isReverse = false) ∧ contactsOfAcme.Changes "Contact" ∧
      ∃ q, (contactsOfAcme.delete .soql {}).result = .ok q ∧
        q.text = "DELETE FROM Contact WHERE Contact.Account.Name = %s" := by
  have hforward : ∀ j ∈ contactsOfAcme.joins, j.isReverse = false := by decide
  have hbased : contactsOfAcme.BasedOn { table := "Contact" } (.base "Contact" "C") :=
    ⟨rfl, List.mem_cons_self, rfl, by decide, rfl⟩
  obtain ⟨tree, htree⟩ := exists_eq_ok (r := Tree.resolve contactsOfAcme.joins) (by decide +kernel)
  obtain ⟨root, -, -, -, -, hchanges⟩ := changes_root hbased htree
  have htext : (contactsOfAcme.delete .soql {}).result.toOption.map Sql.text =
      some "DELETE FROM Contact WHERE Contact.Account.Name = %s" := by decide +kernel
  obtain ⟨q, hq, htext⟩ := exists_eq_ok_of_map htext
  exact ⟨hbased, hforward, hchanges hforward, q, hq, htext⟩

/-- The accounts of the contacts with a given name. Contacts hold the foreign key. -/
def accountsOfJane : Plan where
  model := some { table := "Account" }
  joins := [.base "Account" "A", .single "A" "Contact" "Id" "AccountId" "C"]
  filter := some (.all [.lookup ⟨.column "C" "Name", .exact, .single (.text "Jane")⟩])

theorem accountsOfJane_changes_contacts :
    accountsOfJane.BasedOn { table := "Account" } (.base "Account" "A") ∧
      (∃ tree, Tree.resolve accountsOfJane.joins = .ok tree) ∧
      (∃ q, (accountsOfJane.delete .soql {}).result = .ok q ∧
        q.text = "DELETE FROM Contact WHERE Contact.Name = %s" ∧ ¬ q.Deletes .soql "Account") ∧
      ∃ q, (accountsOfJane.update .soql {} [("Name", .text "Jo")]).result = .ok q ∧
        q.text = "UPDATE Contact SET Name = %s WHERE Contact.Name = %s" ∧ ¬ q.Updates .soql "Account" := by
  have hdelete : (accountsOfJane.delete .soql {}).result.toOption.map Sql.text =
      some "DELETE FROM Contact WHERE Contact.Name = %s" := by decide +kernel
  have hupdate : (accountsOfJane.update .soql {} [("Name", .text "Jo")]).result.toOption.map Sql.text =
      some "UPDATE Contact SET Name = %s WHERE Contact.Name = %s" := by decide +kernel
  obtain ⟨d, hd, hdtext⟩ := exists_eq_ok_of_map hdelete
  obtain ⟨u, hu, hutext⟩ := exists_eq_ok_of_map hupdate
  refine ⟨⟨rfl, List.mem_cons_self, rfl, by decide, rfl⟩, exists_eq_ok (by decide +kernel),
    ⟨d, hd, hdtext, ?_⟩, u, hu, hutext, ?_⟩
  · rintro ⟨rest, hrest, -⟩
    rw [hdtext] at hrest
    have hchar := congrArg (fun s => s.toList[12]?) hrest
    simp [Backend.soql] at hchar
  · rintro ⟨rest, hrest⟩
    rw [hutext] at hrest
    have hchar := congrArg (fun s => s.toList[7]?) hrest
    simp [Backend.soql] at hchar

end Plan

end PathQuery
