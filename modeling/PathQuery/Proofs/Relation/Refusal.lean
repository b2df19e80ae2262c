import PathQuery.Proofs.Relation.RootedTree
import PathQuery.Proofs.Report
/-!
# Why joins are refused

What an error says about joins that are no tree. Errors about a join or an alias by itself come first; all others
are about where the joins lead. Each of those is given with what it names: the aliases that nothing leads to, if
they are not one; an alias that two walks lead to; the aliases that no walk leads to; the least alias that is joined
to and not defined.

The rounds stop at the first alias that they reach a second time. What is known of them then is `Entered`: every
alias that was reached before, the root apart, was entered by a link out of an alias whose turn has passed. The
link that leads to it once more is another one, because its turn is now.
-/

namespace PathQuery

/-- An alias that no join leads to. -/
def Unentered (joins : List Join) (name : String) : Prop :=
  name ∈ joins.map Join.name ∧ ∀ i l, LeadsAt joins i l → l.bottom ≠ name

/-- The only alias that no join leads to. -/
def SoleRoot (joins : List Join) (root : String) : Prop :=
  ∀ name, Unentered joins name ↔ name = root

/-- A name that is joined to and not defined. -/
def Dangling (joins : List Join) (name : String) : Prop :=
  (∃ j ∈ joins, j.parent = some name) ∧ name ∉ joins.map Join.name

/-- What the errors about where joins lead say of them. -/
def RelationError.HoldsOf (joins : List Join) : RelationError → Prop
  | .unknownName name => Dangling joins name ∧ ∀ other, Dangling joins other → name ≤ other
  | .rootCount names =>
    names.Pairwise (· < ·) ∧ (∀ name, name ∈ names ↔ Unentered joins name) ∧ names.length ≠ 1
  | .notATree name =>
    ∃ root, SoleRoot joins root ∧ ∃ v w, v ≠ w ∧ Walk joins root v name ∧ Walk joins root w name
  | .disconnected names =>
    ∃ root, SoleRoot joins root ∧ names ≠ [] ∧ names.Pairwise (· < ·) ∧
      ∀ name, name ∈ names ↔ name ∈ joins.map Join.name ∧ ¬ ∃ walk, Walk joins root walk name
  | _ => True

/-- Errors about where the joins lead, and not about a join or an alias by itself. -/
def RelationError.isStructural : RelationError → Bool
  | .unknownName _ => true
  | .rootCount _ => true
  | .notATree _ => true
  | .disconnected _ => true
  | .missingColumns _ => false
  | .severalColumns _ _ => false
  | .keyToKey _ => false
  | .notToKey _ _ _ => false
  | .duplicateName _ => false
  | .unrecognizedKey _ => false

/-! ### Errors about a join or an alias -/

theorem RelationError.holdsOf_of_single {e : RelationError} (h : e.isStructural = false) (joins : List Join) :
    e.HoldsOf joins := by
  cases e with
  | unknownName | rootCount | notATree | disconnected => cases h
  | _ => trivial

theorem relationshipName_error {key : String} {e : RelationError} (h : relationshipName key = .error e) :
    e.isStructural = false := by
  rw [relationshipName] at h
  split at h
  · split at h
    · cases h
    · cases h
      rfl
  · split at h
    · split at h
      · cases h
      · cases h
        rfl
    · cases h
      rfl

theorem Join.link?_error {j : Join} {e : RelationError} (h : j.link? = .error e) : e.isStructural = false := by
  rw [link?] at h
  split at h
  · cases h
  · cases h
    rfl
  · split at h
    · split at h
      · cases h
        rfl
      · cases h
    · split at h
      · cases h
      · cases h
        rfl
  · cases h
    rfl

namespace Resolve

theorem tables_error {known : Dict String} {joins : List Join} {e : RelationError}
    (h : tables known joins = .error e) : e.isStructural = false := by
  induction joins generalizing known with
  | nil => cases h
  | cons j rest ih =>
    rw [tables] at h
    split at h
    · cases h
      rfl
    · exact ih h

/-! ### Rounds that fail -/

/-- A round fails at a key without a name, or at a link to an alias that was reached before this round or in it. -/
theorem scan_error {frontier : List String} {links : List Link} {paths : Dict String} {e : RelationError}
    (h : scan frontier links paths = .error e) :
    e.isStructural = false ∨ ∃ link ∈ links, link.top ∈ frontier ∧ e = .notATree link.bottom ∧
      (paths.contains link.bottom ∨ ∃ other, [other, link].Sublist links ∧ other.top ∈ frontier ∧
        other.bottom = link.bottom) := by
  induction links generalizing paths with
  | nil => cases h
  | cons first rest ih =>
    -- What a later link has met is met by it among all links.
    have hlater : ∀ {paths : Dict String}, scan frontier rest paths = .error e →
        e.isStructural = false ∨ ∃ link ∈ rest, link.top ∈ frontier ∧ e = .notATree link.bottom ∧
          (paths.contains link.bottom ∨ ∃ other, [other, link].Sublist (first :: rest) ∧
            other.top ∈ frontier ∧ other.bottom = link.bottom) := by
      intro paths hscan
      refine (ih hscan).imp_right ?_
      rintro ⟨link, hlink, htop, he, hold | ⟨other, hsub, hother⟩⟩
      · exact ⟨link, hlink, htop, he, .inl hold⟩
      · exact ⟨link, hlink, htop, he, .inr ⟨other, hsub.cons first, hother⟩⟩
    rw [scan] at h
    split at h
    · refine (hlater h).imp_right ?_
      rintro ⟨link, hlink, hmet⟩
      exact ⟨link, List.mem_cons_of_mem _ hlink, hmet⟩
    · rename_i hfirst
      rw [not_not] at hfirst
      split at h
      · rename_i hold
        cases h
        exact .inr ⟨first, List.mem_cons_self, hfirst, rfl, .inl hold⟩
      · split at h
        · rename_i hname
          cases h
          exact .inl (relationshipName_error hname)
        · dsimp only at h
          split at h
          · rename_i hscan
            cases h
            refine (hlater hscan).imp_right ?_
            rintro ⟨link, hlink, htop, he, hold | hmet⟩
            · rw [Dict.contains_insert, Bool.or_eq_true, beq_iff_eq] at hold
              refine ⟨link, List.mem_cons_of_mem _ hlink, htop, he, ?_⟩
              rcases hold with hbottom | hold
              · refine .inr ⟨first, ?_, hfirst, hbottom.symm⟩
                exact (List.singleton_sublist.2 hlink).cons_cons first
              · exact .inl hold
            · exact ⟨link, List.mem_cons_of_mem _ hlink, htop, he, .inr hmet⟩
          · cases h

/-- Every alias that is reached, the root apart, was entered by a link out of one whose turn has passed. -/
def Entered (links : List Link) (root : String) (frontier : List String) (paths : Dict String) : Prop :=
  ∀ name, paths.contains name → name = root ∨
    ∃ link ∈ links, link.bottom = name ∧ paths.contains link.top ∧ link.top ∉ frontier

theorem Entered.next {links : List Link} {root : String} {frontier next : List String} {paths found : Dict String}
    (h : Entered links root frontier paths) (hfrontier : ∀ name ∈ frontier, paths.contains name)
    (hscanned : Scanned frontier links paths found next) : Entered links root next found := by
  -- An alias that was reached before this round is not one of the next.
  have hpassed : ∀ {link : Link}, paths.contains link.top → found.contains link.top ∧ link.top ∉ next := by
    intro link htop
    refine ⟨(hscanned.found_iff _).2 (.inl htop), fun hnext => ?_⟩
    rw [hscanned.fresh _ hnext] at htop
    cases htop
  intro name hname
  rcases (hscanned.found_iff name).1 hname with hold | hnew
  · refine (h name hold).imp_right ?_
    rintro ⟨link, hlink, hbottom, htop, -⟩
    exact ⟨link, hlink, hbottom, hpassed htop⟩
  · obtain ⟨link, hlink, htop, hbottom⟩ := (hscanned.mem_next name).1 hnew
    exact .inr ⟨link, hlink, hbottom, hpassed (hfrontier _ htop)⟩

/-- The rounds fail at a key without a name, or at a link to an alias that is the root or that another link leads
to. Both links leave aliases that have been reached. -/
theorem expand_error (holds : String → Prop) {links : List Link} {root : String} {frontier : List String}
    {paths : Dict String} {e : RelationError} (h : expand links frontier paths = .error e)
    (hstep : ∀ link ∈ links, holds link.top → holds link.bottom)
    (hpaths : ∀ name, paths.contains name → holds name)
    (hfrontier : ∀ name ∈ frontier, paths.contains name) (hentered : Entered links root frontier paths) :
    e.isStructural = false ∨ ∃ link ∈ links, holds link.top ∧ e = .notATree link.bottom ∧
      (link.bottom = root ∨ ∃ other ∈ links, holds other.top ∧ other.bottom = link.bottom ∧
        (other ≠ link ∨ [other, link].Sublist links)) := by
  fun_induction expand links frontier paths with
  | case1 frontier paths e' hscan =>
    cases h
    refine (scan_error hscan).imp_right ?_
    rintro ⟨link, hlink, htop, he, hmet⟩
    refine ⟨link, hlink, hpaths _ (hfrontier _ htop), he, ?_⟩
    rcases hmet with hold | ⟨other, hsub, hother, hbottom⟩
    · refine (hentered _ hold).imp_right ?_
      rintro ⟨other, hother, hbottom, hreached, hpassed⟩
      refine ⟨other, hother, hpaths _ hreached, hbottom, .inl ?_⟩
      rintro rfl
      exact hpassed htop
    · exact .inr ⟨other, hsub.subset List.mem_cons_self, hpaths _ (hfrontier _ hother), hbottom, .inr hsub⟩
  | case2 => cases h
  | case3 frontier paths found next hscan hnext ih =>
    have hscanned := scan_ok hscan
    refine ih h ?_ ?_ (hentered.next hfrontier hscanned)
    · intro name hname
      rcases (hscanned.found_iff name).1 hname with hold | hnew
      · exact hpaths name hold
      · obtain ⟨link, hlink, htop, rfl⟩ := (hscanned.mem_next name).1 hnew
        exact hstep link hlink (hpaths _ (hfrontier _ htop))
    · exact fun name hname => (hscanned.found_iff name).2 (.inr hname)

/-- Rounds from the root that meet an alias twice have walked to it in two ways. -/
theorem expand_error_walks {joins : List Join} {links : List (Option Link)} {root : String} {e : RelationError}
    (hlinks : joins.mapM Join.link? = .ok links)
    (h : expand (links.filterMap id) [root] (Dict.empty.insert root "") = .error e) :
    e.isStructural = false ∨
      ∃ name, e = .notATree name ∧ ∃ v w, v ≠ w ∧ Walk joins root v name ∧ Walk joins root w name := by
  have hroot : ∀ name, (Dict.empty.insert root "").contains name → name = root := by
    simp [Dict.contains_insert]
  have hmet := expand_error (fun name => ∃ walk, Walk joins root walk name) h ?_ ?_ ?_
    fun name hname => .inl (hroot name hname)
  · refine hmet.imp_right ?_
    rintro ⟨link, hlink, ⟨v, hv⟩, he, hmet⟩
    refine ⟨link.bottom, he, ?_⟩
    rcases hmet with hbottom | ⟨other, hother, ⟨w, hw⟩, hbottom, hapart⟩
    · obtain ⟨i, hlead⟩ := (mem_links_iff hlinks).1 hlink
      refine ⟨[], v ++ [i], by simp, ?_, .step hv hlead⟩
      rw [hbottom]
      exact .stay
    · -- The last steps of the two walks are different joins, even where the two links are equal.
      obtain ⟨i, k, hne, hi, hk⟩ : ∃ i k, i ≠ k ∧ LeadsAt joins i other ∧ LeadsAt joins k link := by
        rcases hapart with hdiffer | hbefore
        · obtain ⟨i, hi⟩ := (mem_links_iff hlinks).1 hother
          obtain ⟨k, hk⟩ := (mem_links_iff hlinks).1 hlink
          refine ⟨i, k, ?_, hi, hk⟩
          rintro rfl
          exact hdiffer (hi.unique hk)
        · obtain ⟨i, k, hlt, hi, hk⟩ := exists_leadsAt_of_sublist hlinks hbefore
          exact ⟨i, k, Nat.ne_of_lt hlt, hi, hk⟩
      refine ⟨w ++ [i], v ++ [k], fun heq => hne (List.append_singleton_inj.1 heq).2, ?_, .step hv hk⟩
      rw [← hbottom]
      exact .step hw hi
  · rintro link hlink ⟨walk, hwalk⟩
    obtain ⟨i, hlead⟩ := (mem_links_iff hlinks).1 hlink
    exact ⟨walk ++ [i], .step hwalk hlead⟩
  · intro name hname
    rw [hroot name hname]
    exact ⟨[], .stay⟩
  · simp [Dict.contains_insert]

/-! ### Aliases and roots -/

/-- What is known once the joins have been looked at one by one. -/
structure Surveyed (joins : List Join) (tables : Dict String) (links : List (Option Link)) : Prop where
  tables_ok : Resolve.tables .empty joins = .ok tables
  links_ok : joins.mapM Join.link? = .ok links

/-- The names that are used are all defined. -/
def Known (joins : List Join) (tables : Dict String) (links : List (Option Link)) : Prop :=
  ∀ name, name ∈ tops joins links ∨ name ∈ bottoms links → tables.contains name

/-- The aliases that stand above another one or alone, and below none. -/
def roots (joins : List Join) (links : List (Option Link)) : List String :=
  (tops joins links).filter fun name => !(bottoms links).contains name

section Survey

variable {joins : List Join} {tables : Dict String} {links : List (Option Link)} {root : String}

theorem Surveyed.dangling_iff (h : Surveyed joins tables links) {name : String} :
    Dangling joins name ↔
      name ∈ distinctNames (tops joins links ++ bottoms links) ∧ (!tables.contains name) = true := by
  rw [Dangling, mem_distinctNames, List.mem_append, mem_ends_iff h.links_ok, Bool.not_eq_true',
    ← Bool.not_eq_true, tables_empty_contains_iff h.tables_ok, or_and_right, and_not_self_iff, false_or]

theorem Surveyed.unknown (h : Surveyed joins tables links) {name : String}
    (hname : ((distinctNames (tops joins links ++ bottoms links)).find? fun name =>
      !tables.contains name) = some name) :
    (RelationError.unknownName name).HoldsOf joins := by
  have hfound := List.find?_some hname
  refine ⟨h.dangling_iff.2 ⟨List.mem_of_find?_eq_some hname, hfound⟩, fun other hother => ?_⟩
  obtain ⟨hmem, hunknown⟩ := h.dangling_iff.1 hother
  exact le_of_find?_sorted (distinctNames_sorted _) hname hmem hunknown

theorem Surveyed.known (h : Surveyed joins tables links) (hdangling : ∀ name, ¬ Dangling joins name) :
    Known joins tables links := by
  intro name hname
  by_contra hunknown
  refine hdangling name (h.dangling_iff.2 ⟨mem_distinctNames.2 (List.mem_append.2 hname), ?_⟩)
  rw [Bool.not_eq_true', ← Bool.not_eq_true]
  exact hunknown

theorem mem_roots (hsurvey : Surveyed joins tables links) (hknown : Known joins tables links) {name : String} :
    name ∈ roots joins links ↔ Unentered joins name := by
  rw [roots, List.mem_filter, Bool.not_eq_true', List.contains_eq_mem, decide_eq_false_iff_not]
  have hbottoms : name ∈ bottoms links ↔ ∃ i l, LeadsAt joins i l ∧ l.bottom = name :=
    mem_bottoms hsurvey.links_ok
  constructor
  · rintro ⟨htop, hbottom⟩
    have hname := (tables_empty_contains_iff hsurvey.tables_ok name).1 (hknown name (.inl htop))
    exact ⟨hname, fun i l hlead hend => hbottom (hbottoms.2 ⟨i, l, hlead, hend⟩)⟩
  · rintro ⟨hname, hfree⟩
    have hbottom : name ∉ bottoms links := by
      intro hbottom
      obtain ⟨i, l, hlead, hend⟩ := hbottoms.1 hbottom
      exact hfree i l hlead hend
    exact ⟨((mem_ends_iff hsurvey.links_ok).2 (.inl hname)).resolve_right hbottom, hbottom⟩

theorem soleRoot_of_roots (hsurvey : Surveyed joins tables links) (hknown : Known joins tables links)
    (hroots : roots joins links = [root]) : SoleRoot joins root := by
  intro name
  rw [← mem_roots hsurvey hknown, hroots, List.mem_singleton]

theorem rootCount_holds (hsurvey : Surveyed joins tables links) (hknown : Known joins tables links)
    (hroots : ∀ root, roots joins links ≠ [root]) :
    (RelationError.rootCount (roots joins links)).HoldsOf joins := by
  refine ⟨(distinctNames_sorted _).filter _, fun name => mem_roots hsurvey hknown, fun hlength => ?_⟩
  obtain ⟨root, hroot⟩ := List.length_eq_one_iff.1 hlength
  exact hroots root hroot

theorem disconnected_holds {paths : Dict String} (hsurvey : Surveyed joins tables links)
    (hknown : Known joins tables links) (hroots : roots joins links = [root])
    (hpaths : expand (links.filterMap id) [root] (Dict.empty.insert root "") = .ok paths)
    (hsize : paths.size ≠ tables.size) :
    (RelationError.disconnected (tables.keys.filter fun name => !paths.contains name)).HoldsOf joins := by
  have hwalk := expand_contains_iff hsurvey.links_ok hpaths
  refine ⟨root, soleRoot_of_roots hsurvey hknown hroots, fun hnone => hsize ?_, tables.keys_sorted.filter _, ?_⟩
  · rw [List.filter_eq_nil_iff] at hnone
    refine Dict.size_eq_of_contains fun name => ⟨fun hname => ?_, fun hname => ?_⟩
    · obtain ⟨walk, hwalk⟩ := (hwalk name).1 hname
      cases hwalk with
      | stay =>
        have hroot : root ∈ roots joins links := hroots ▸ List.mem_singleton_self root
        exact hknown root (.inl (List.mem_filter.1 hroot).1)
      | step _ hlead => exact hknown _ (.inr ((mem_bottoms hsurvey.links_ok).2 ⟨_, _, hlead, rfl⟩))
    · simpa using hnone name (Dict.mem_keys.2 hname)
  · intro name
    rw [List.mem_filter, Dict.mem_keys, tables_empty_contains_iff hsurvey.tables_ok, Bool.not_eq_true',
      ← Bool.not_eq_true, hwalk]

end Survey

end Resolve

/-! ### All errors -/

open Resolve (Surveyed Known)

theorem Tree.holdsOf_of_resolve {joins : List Join} {e : RelationError} (h : Tree.resolve joins = .error e) :
    e.HoldsOf joins := by
  simp only [Tree.resolve, bind, Except.bind, pure, Except.pure, throw, throwThe, MonadExceptOf.throw] at h
  split at h
  · cases h
  split at h
  · rename_i htables
    cases h
    exact RelationError.holdsOf_of_single (Resolve.tables_error htables) joins
  rename_i tables htables
  split at h
  · rename_i hlinks
    cases h
    obtain ⟨j, -, hlink⟩ := exists_of_mapM_error hlinks
    exact RelationError.holdsOf_of_single (Join.link?_error hlink) joins
  rename_i links hlinks
  have hsurvey : Surveyed joins tables links := ⟨htables, hlinks⟩
  split at h
  · rename_i hunknown
    cases h
    exact hsurvey.unknown hunknown
  rename_i hknown
  have hknown : Known joins tables links :=
    Resolve.find?_unknown_eq_none.1 (Option.eq_none_iff_forall_ne_some.2 hknown)
  split at h
  · rename_i root hroots
    split at h
    · rename_i hexpand
      cases h
      rcases Resolve.expand_error_walks hlinks hexpand with hsingle | ⟨name, rfl, hwalks⟩
      · exact RelationError.holdsOf_of_single hsingle joins
      · exact ⟨root, Resolve.soleRoot_of_roots hsurvey hknown hroots, hwalks⟩
    rename_i paths hexpand
    split at h
    · rename_i hsize
      cases h
      exact Resolve.disconnected_holds hsurvey hknown hroots hexpand hsize
    · cases h
  · rename_i hroots
    cases h
    exact Resolve.rootCount_holds hsurvey hknown hroots

/-- Joins without faults of their own whose roots are none or several. -/
theorem Tree.resolve_eq_rootCount {joins : List Join} {tables : Dict String} {links : List (Option Link)}
    (hjoins : joins ≠ []) (hsurvey : Surveyed joins tables links) (hknown : Known joins tables links)
    (hroots : ∀ root, Resolve.roots joins links ≠ [root]) :
    Tree.resolve joins = .error (.rootCount (Resolve.roots joins links)) := by
  have hempty : joins.isEmpty = false := by simpa using hjoins
  have hfind := Resolve.find?_unknown_eq_none.2 hknown
  simp only [Tree.resolve, hempty, Bool.false_eq_true, if_false, bind, Except.bind, throw, throwThe,
    MonadExceptOf.throw, hsurvey.tables_ok, hsurvey.links_ok, hfind]
  split
  · rename_i root hroot
    exact absurd hroot (hroots root)
  · rfl

/-- **Errors about where joins lead tell the truth.** Joins of distinct and defined aliases that are each a foreign key to
a primary key are refused for their roots, if not exactly one alias has nothing leading to it. -/
theorem Tree.resolve_errors_hold (joins : List Join) :
    (∀ e, Tree.resolve joins = .error e → e.HoldsOf joins) ∧
      (joins ≠ [] → (joins.map Join.name).Nodup → (∀ name, ¬ Dangling joins name) →
        (∀ j ∈ joins, j.parent.isSome → ∃ l, j.Refers l) → (¬ ∃ root, SoleRoot joins root) →
          ∃ names, Tree.resolve joins = .error (.rootCount names)) := by
  refine ⟨fun e he => Tree.holdsOf_of_resolve he, fun hjoins hdistinct hdangling hrefers hsole => ?_⟩
  obtain ⟨tables, htables⟩ : ∃ tables, Resolve.tables .empty joins = .ok tables :=
    Resolve.tables_succeeds hdistinct (by simp)
  obtain ⟨links, hlinks⟩ := exists_links_of_refers hrefers
  have hsurvey : Surveyed joins tables links := ⟨htables, hlinks⟩
  have hknown := hsurvey.known hdangling
  exact ⟨_, Tree.resolve_eq_rootCount hjoins hsurvey hknown fun root hroots =>
    hsole ⟨root, Resolve.soleRoot_of_roots hsurvey hknown hroots⟩⟩

/-- Two accounts that refer to each other. -/
def accountsAlone : List Join :=
  [.single "B" "Account" "ParentId" "Id" "A", .single "A" "Account" "ParentId" "Id" "B"]

/-- A contact, and two accounts that refer to each other. -/
def accountsInCircle : List Join :=
  .base "Contact" "C" :: accountsAlone

/-- A contact and its account, each joined to the other by the same key. -/
def joinedTwice : List Join :=
  [.single "A" "Contact" "Id" "AccountId" "C", .single "C" "Account" "AccountId" "Id" "A"]

theorem accountsAlone_entered (name : String) : ¬ Unentered accountsAlone name := by
  rintro ⟨hname, hfree⟩
  have hnames : name = "A" ∨ name = "B" := by simpa [accountsAlone, Join.single] using hname
  rcases hnames with rfl | rfl
  · exact hfree 0 ⟨"B", "ParentId", "A"⟩ ⟨_, rfl, .forward (by decide)⟩ rfl
  · exact hfree 1 ⟨"A", "ParentId", "B"⟩ ⟨_, rfl, .forward (by decide)⟩ rfl

/-- The accounts by themselves have no root, and next to a contact they are cut off from it; the account is
reached in two ways. -/
theorem accountsInCircle_joinedTwice_refused :
    Tree.resolve accountsAlone = .error (.rootCount []) ∧
    (Tree.resolve accountsInCircle = .error (.disconnected ["A", "B"]) ∧
      (RelationError.disconnected ["A", "B"]).HoldsOf accountsInCircle) ∧
    Tree.resolve joinedTwice = .error (.notATree "A") ∧ (RelationError.notATree "A").HoldsOf joinedTwice := by
  have hcircle : Tree.resolve accountsInCircle = .error (.disconnected ["A", "B"]) :=
    eq_error_of_map (f := fun _ => ()) (by decide +kernel)
  have htwice : Tree.resolve joinedTwice = .error (.notATree "A") :=
    eq_error_of_map (f := fun _ => ()) (by decide +kernel)
  have hdefined : ∀ j ∈ accountsAlone, ∀ name ∈ j.parent, name ∈ accountsAlone.map Join.name := by decide
  have hrefers : ∀ j ∈ accountsAlone, j.parent.isSome → ∃ l, j.Refers l :=
    List.forall_mem_cons.2 ⟨fun _ => ⟨_, .forward (by decide)⟩,
      List.forall_mem_singleton.2 fun _ => ⟨_, .forward (by decide)⟩⟩
  have halone : Tree.resolve accountsAlone = .error (.rootCount []) := by
    obtain ⟨htruth, hroots⟩ := Tree.resolve_errors_hold accountsAlone
    obtain ⟨names, hnames⟩ : ∃ names, Tree.resolve accountsAlone = .error (.rootCount names) := by
      refine hroots (by decide) (by decide) ?_ hrefers ?_
      · rintro name ⟨⟨j, hj, hparent⟩, hname⟩
        exact hname (hdefined j hj name hparent)
      · rintro ⟨root, hroot⟩
        exact accountsAlone_entered root ((hroot root).2 rfl)
    -- Whatever is named as a root is one, and there is none.
    have hnone : names = [] := List.eq_nil_iff_forall_not_mem.2 fun name hname =>
      accountsAlone_entered name (((htruth _ hnames).2.1 name).1 hname)
    rw [hnames, hnone]
  exact ⟨halone, ⟨hcircle, (Tree.resolve_errors_hold accountsInCircle).1 _ hcircle⟩,
    htwice, (Tree.resolve_errors_hold joinedTwice).1 _ htwice⟩

end PathQuery
