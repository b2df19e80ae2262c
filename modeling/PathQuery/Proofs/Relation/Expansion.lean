import PathQuery.Proofs.Dictionary
import PathQuery.Relation.Resolve
/-!
# What the rounds reach

A round follows the links whose top is in the frontier. It succeeds exactly when these links lead to
different aliases, none of them reached before, and all their foreign keys have relationship names; the
aliases they lead to are the next frontier.

From this follows what all rounds together do. `expand_ok` says what success means: with the list `done`
of all aliases that were in a frontier at some time, no two links out of `done` lead to one alias.
`expand_paths` is the induction along the rounds: what holds of the paths at the start and is kept by a
step along a link holds of all paths found. `expand_succeeds` is the way back: links that lead to
different aliases are followed to the end.
-/

namespace PathQuery

namespace Resolve

/-- The links that a round follows. -/
def followed (frontier : List String) (links : List Link) : List Link :=
  links.filter fun link => link.top ∈ frontier

theorem mem_followed {frontier : List String} {links : List Link} {link : Link} :
    link ∈ followed frontier links ↔ link ∈ links ∧ link.top ∈ frontier := by
  rw [followed, List.mem_filter, decide_eq_true_eq]

/-! ### One round -/

theorem scan_cons {frontier : List String} {link : Link} {rest : List Link}
    {paths found : Dict String} {next : List String} :
    scan frontier (link :: rest) paths = .ok (found, next) ↔
      (link.top ∉ frontier ∧ scan frontier rest paths = .ok (found, next)) ∨
      (link.top ∈ frontier ∧ paths.contains link.bottom = false ∧
        ∃ name later, relationshipName link.key = .ok name ∧ next = link.bottom :: later ∧
          scan frontier rest
            (paths.insert link.bottom (extend ((paths.get? link.top).getD "") name)) =
              .ok (found, later)) := by
  rw [scan]
  by_cases htop : link.top ∈ frontier
  · rw [if_neg (not_not_intro htop)]
    cases hold : paths.contains link.bottom with
    | true => simp [htop]
    | false =>
      cases hname : relationshipName link.key with
      | error e => simp [htop]
      | ok name =>
        simp only [htop, not_true_eq_false, false_and, true_and, false_or, Except.ok.injEq,
          Bool.false_eq_true, if_false]
        cases hscan : scan frontier rest
            (paths.insert link.bottom (extend ((paths.get? link.top).getD "") name)) with
        | error e => simp [hscan]
        | ok result =>
          obtain ⟨all, later⟩ := result
          simp [hscan, eq_comm, and_comm]
  · rw [if_pos htop]
    simp [htop]

/-- What a round comes to. -/
structure Scanned (frontier : List String) (links : List Link) (paths found : Dict String)
    (next : List String) : Prop where
  next_eq : next = (followed frontier links).map Link.bottom
  nodup : next.Nodup
  fresh : ∀ name ∈ next, paths.contains name = false
  found_iff : ∀ name, found.contains name ↔ paths.contains name ∨ name ∈ next
  named : ∀ link ∈ links, link.top ∈ frontier → ∃ name, relationshipName link.key = .ok name

theorem scan_ok {frontier : List String} {links : List Link} {paths found : Dict String}
    {next : List String} (h : scan frontier links paths = .ok (found, next)) :
    Scanned frontier links paths found next := by
  induction links generalizing paths next with
  | nil =>
    cases h
    exact ⟨rfl, .nil, by simp, by simp, by simp⟩
  | cons link rest ih =>
    rcases scan_cons.1 h with ⟨htop, hscan⟩ | ⟨htop, hnew, name, later, hname, rfl, hscan⟩
    · obtain ⟨heq, hnodup, hfresh, hfound, hnamed⟩ := ih hscan
      refine ⟨?_, hnodup, hfresh, hfound, ?_⟩
      · rw [heq, followed, followed, List.filter_cons_of_neg (by simpa using htop)]
      · intro l hl hltop
        rcases List.mem_cons.1 hl with rfl | hl
        · exact absurd hltop htop
        · exact hnamed l hl hltop
    · obtain ⟨heq, hnodup, hfresh, hfound, hnamed⟩ := ih hscan
      have hlater : ∀ n ∈ later, n ≠ link.bottom ∧ paths.contains n = false := by
        intro n hn
        have hn := hfresh n hn
        rw [Dict.contains_insert, Bool.or_eq_false_iff, beq_eq_false_iff_ne] at hn
        exact hn
      refine ⟨?_, ?_, ?_, ?_, ?_⟩
      · rw [heq, followed, followed, List.filter_cons_of_pos (by simpa using htop), List.map_cons]
      · exact List.nodup_cons.2 ⟨fun hmem => (hlater _ hmem).1 rfl, hnodup⟩
      · intro n hn
        rcases List.mem_cons.1 hn with rfl | hn
        · exact hnew
        · exact (hlater n hn).2
      · intro n
        rw [hfound, Dict.contains_insert, Bool.or_eq_true, beq_iff_eq, List.mem_cons,
          or_comm (a := n = link.bottom), or_assoc]
      · intro l hl hltop
        rcases List.mem_cons.1 hl with rfl | hl
        · exact ⟨name, hname⟩
        · exact hnamed l hl hltop

theorem scan_succeeds {frontier : List String} {links : List Link} {paths : Dict String}
    (hnodup : ((followed frontier links).map Link.bottom).Nodup)
    (hfresh : ∀ link ∈ links, link.top ∈ frontier → paths.contains link.bottom = false)
    (hnamed : ∀ link ∈ links, link.top ∈ frontier → ∃ name, relationshipName link.key = .ok name) :
    ∃ found next, scan frontier links paths = .ok (found, next) := by
  induction links generalizing paths with
  | nil => exact ⟨paths, [], rfl⟩
  | cons link rest ih =>
    have hrest : ∀ l ∈ rest, l.top ∈ frontier → ∃ name, relationshipName l.key = .ok name :=
      fun l hl => hnamed l (List.mem_cons_of_mem _ hl)
    by_cases htop : link.top ∈ frontier
    · obtain ⟨name, hname⟩ := hnamed link List.mem_cons_self htop
      rw [followed, List.filter_cons_of_pos (by simpa using htop), List.map_cons,
        List.nodup_cons] at hnodup
      have hfresh' : ∀ l ∈ rest, l.top ∈ frontier →
          (paths.insert link.bottom (extend ((paths.get? link.top).getD "") name)).contains
            l.bottom = false := by
        intro l hl hltop
        rw [Dict.contains_insert, hfresh l (List.mem_cons_of_mem _ hl) hltop, Bool.or_false,
          beq_eq_false_iff_ne]
        intro heq
        exact hnodup.1 (heq ▸ List.mem_map_of_mem (mem_followed.2 ⟨hl, hltop⟩))
      obtain ⟨found, later, hscan⟩ := ih hnodup.2 hfresh' hrest
      exact ⟨found, link.bottom :: later, scan_cons.2 (.inr ⟨htop,
        hfresh link List.mem_cons_self htop, name, later, hname, rfl, hscan⟩)⟩
    · rw [followed, List.filter_cons_of_neg (by simpa using htop)] at hnodup
      obtain ⟨found, next, hscan⟩ :=
        ih hnodup (fun l hl => hfresh l (List.mem_cons_of_mem _ hl)) hrest
      exact ⟨found, next, scan_cons.2 (.inl ⟨htop, hscan⟩)⟩

/-- What holds of the paths before a round and is kept by a step along a link holds after it. -/
theorem scan_paths {holds : String → String → Prop} {frontier : List String} {links : List Link}
    {paths found : Dict String} {next : List String}
    (h : scan frontier links paths = .ok (found, next))
    (hstep : ∀ link ∈ links, ∀ path name, holds link.top path →
      relationshipName link.key = .ok name → holds link.bottom (extend path name))
    (hfrontier : ∀ name ∈ frontier, paths.contains name)
    (hpaths : ∀ name path, paths.get? name = some path → holds name path) :
    ∀ name path, found.get? name = some path → holds name path := by
  induction links generalizing paths next with
  | nil =>
    cases h
    exact hpaths
  | cons link rest ih =>
    have hrest := fun l hl => hstep l (List.mem_cons_of_mem link hl)
    rcases scan_cons.1 h with ⟨-, hscan⟩ | ⟨htop, -, name, later, hname, -, hscan⟩
    · exact ih hscan hrest hfrontier hpaths
    · obtain ⟨path, hpath⟩ := Dict.contains_iff_exists.1 (hfrontier _ htop)
      refine ih hscan hrest ?_ ?_
      · intro n hn
        rw [Dict.contains_insert, hfrontier n hn, Bool.or_true]
      · intro n p hp
        rw [Dict.get?_insert] at hp
        split at hp
        · rename_i heq
          cases hp
          rw [heq, hpath, Option.getD_some]
          exact hstep link List.mem_cons_self path name (hpaths _ _ hpath) hname
        · exact hpaths n p hp

/-! ### All rounds -/

/-- What all rounds come to: `done` are the aliases whose links were followed. -/
structure Explored (links : List Link) (frontier : List String) (paths found : Dict String)
    (done : List String) : Prop where
  done_iff : ∀ name, name ∈ done ↔
    name ∈ frontier ∨ ∃ link ∈ links, link.top ∈ done ∧ link.bottom = name
  found_iff : ∀ name, found.contains name ↔
    paths.contains name ∨ ∃ link ∈ links, link.top ∈ done ∧ link.bottom = name
  fresh : ∀ link ∈ links, link.top ∈ done → paths.contains link.bottom = false
  apart : links.Pairwise fun l m => l.top ∈ done → m.top ∈ done → l.bottom ≠ m.bottom
  named : ∀ link ∈ links, link.top ∈ done → ∃ name, relationshipName link.key = .ok name

theorem Scanned.mem_next {frontier : List String} {links : List Link} {paths found : Dict String}
    {next : List String} (h : Scanned frontier links paths found next) (name : String) :
    name ∈ next ↔ ∃ link ∈ links, link.top ∈ frontier ∧ link.bottom = name := by
  rw [h.next_eq, List.mem_map]
  simp only [mem_followed, and_assoc]

theorem Scanned.apart {frontier : List String} {links : List Link} {paths found : Dict String}
    {next : List String} (h : Scanned frontier links paths found next) :
    links.Pairwise fun l m => l.top ∈ frontier → m.top ∈ frontier → l.bottom ≠ m.bottom := by
  have hnodup := h.nodup
  rw [h.next_eq, followed, List.Nodup, List.pairwise_map, List.pairwise_filter] at hnodup
  simpa only [decide_eq_true_eq] using hnodup

/-- The last round: nothing was followed in it. -/
theorem Scanned.explored {frontier : List String} {links : List Link} {paths found : Dict String}
    (h : Scanned frontier links paths found []) : Explored links frontier paths found frontier := by
  have hnone : ∀ link ∈ links, link.top ∉ frontier := by
    intro link hlink htop
    exact List.not_mem_nil ((h.mem_next link.bottom).2 ⟨link, hlink, htop, rfl⟩)
  refine ⟨?_, ?_, fun l hl htop => absurd htop (hnone l hl), h.apart, h.named⟩
  · intro name
    refine ⟨.inl, ?_⟩
    rintro (hname | ⟨l, hl, htop, -⟩)
    · exact hname
    · exact absurd htop (hnone l hl)
  · intro name
    rw [h.found_iff name, h.mem_next]

/-- A round in front of others. -/
theorem Explored.cons {frontier next done : List String} {links : List Link}
    {paths found all : Dict String} (h : Scanned frontier links paths found next)
    (hrest : Explored links next found all done) :
    Explored links frontier paths all (frontier ++ done) := by
  have hlead : ∀ name, (∃ link ∈ links, link.top ∈ frontier ++ done ∧ link.bottom = name) ↔
      name ∈ next ∨ ∃ link ∈ links, link.top ∈ done ∧ link.bottom = name := by
    intro name
    rw [h.mem_next, ← exists_or]
    simp only [List.mem_append, or_and_right, and_or_left]
  refine ⟨?_, ?_, ?_, ?_, ?_⟩
  · intro name
    rw [hlead, List.mem_append, ← hrest.done_iff]
  · intro name
    rw [hlead, hrest.found_iff, h.found_iff, or_assoc]
  · intro l hl htop
    rcases List.mem_append.1 htop with htop | htop
    · exact h.fresh _ ((h.mem_next _).2 ⟨l, hl, htop, rfl⟩)
    · have hnew := hrest.fresh l hl htop
      by_contra hold
      rw [Bool.not_eq_false] at hold
      rw [(h.found_iff _).2 (.inl hold)] at hnew
      cases hnew
  · -- A link of this round leads to an alias that is found after it, a link of a later round does not.
    have hcross : ∀ l ∈ links, ∀ m ∈ links, l.top ∈ frontier → m.top ∈ done →
        l.bottom ≠ m.bottom := by
      intro l hl m hm hltop hmtop heq
      have hnew := hrest.fresh m hm hmtop
      rw [← heq, (h.found_iff _).2 (.inr ((h.mem_next _).2 ⟨l, hl, hltop, rfl⟩))] at hnew
      cases hnew
    refine (h.apart.and hrest.apart).imp_of_mem ?_
    rintro l m hl hm ⟨hnow, hlater⟩ hltop hmtop
    rcases List.mem_append.1 hltop with hltop | hltop <;>
      rcases List.mem_append.1 hmtop with hmtop | hmtop
    · exact hnow hltop hmtop
    · exact hcross l hl m hm hltop hmtop
    · exact (hcross m hm l hl hmtop hltop).symm
    · exact hlater hltop hmtop
  · intro l hl htop
    rcases List.mem_append.1 htop with htop | htop
    · exact h.named l hl htop
    · exact hrest.named l hl htop

theorem expand_ok {links : List Link} {frontier : List String} {paths all : Dict String}
    (h : expand links frontier paths = .ok all) :
    ∃ done, Explored links frontier paths all done := by
  fun_induction expand links frontier paths with
  | case1 => cases h
  | case2 frontier paths found hscan =>
    cases h
    exact ⟨frontier, (scan_ok hscan).explored⟩
  | case3 frontier paths found next hscan hnext ih =>
    obtain ⟨done, hdone⟩ := ih h
    exact ⟨frontier ++ done, .cons (scan_ok hscan) hdone⟩

/-- What holds of the paths at the start and is kept by a step along a link holds of all paths that are
found. -/
theorem expand_paths {holds : String → String → Prop} {links : List Link} {frontier : List String}
    {paths all : Dict String} (h : expand links frontier paths = .ok all)
    (hstep : ∀ link ∈ links, ∀ path name, holds link.top path →
      relationshipName link.key = .ok name → holds link.bottom (extend path name))
    (hfrontier : ∀ name ∈ frontier, paths.contains name)
    (hpaths : ∀ name path, paths.get? name = some path → holds name path) :
    ∀ name path, all.get? name = some path → holds name path := by
  fun_induction expand links frontier paths with
  | case1 => cases h
  | case2 frontier paths found hscan =>
    cases h
    exact scan_paths hscan hstep hfrontier hpaths
  | case3 frontier paths found next hscan hnext ih =>
    refine ih h ?_ (scan_paths hscan hstep hfrontier hpaths)
    intro name hname
    exact ((scan_ok hscan).found_iff name).2 (.inr hname)

/-- Every link into an alias that is reached comes from one whose turn has passed. -/
def Passed (links : List Link) (frontier : List String) (paths : Dict String) : Prop :=
  ∀ link ∈ links, paths.contains link.bottom → paths.contains link.top ∧ link.top ∉ frontier

theorem Passed.fresh {links : List Link} {frontier : List String} {paths : Dict String}
    (h : Passed links frontier paths) {link : Link} (hlink : link ∈ links)
    (htop : link.top ∈ frontier) : paths.contains link.bottom = false := by
  by_contra hold
  rw [Bool.not_eq_false] at hold
  exact (h link hlink hold).2 htop

theorem Passed.next {links : List Link} {frontier next : List String} {paths found : Dict String}
    (hapart : (links.map Link.bottom).Nodup)
    (hfrontier : ∀ name ∈ frontier, paths.contains name)
    (hscanned : Scanned frontier links paths found next) (h : Passed links frontier paths) :
    Passed links next found := by
  intro link hlink hbottom
  have htop : paths.contains link.top := by
    rcases (hscanned.found_iff _).1 hbottom with hold | hnew
    · exact (h link hlink hold).1
    · obtain ⟨other, hother, htop, heq⟩ := (hscanned.mem_next _).1 hnew
      have hsame : other = link := List.inj_on_of_nodup_map hapart hother hlink heq
      exact hsame ▸ hfrontier _ htop
  refine ⟨(hscanned.found_iff _).2 (.inl htop), fun hnew => ?_⟩
  rw [hscanned.fresh _ hnew] at htop
  cases htop

/-- Links that lead to different aliases are followed to the end. -/
theorem expand_succeeds {links : List Link} {frontier : List String} {paths : Dict String}
    (hapart : (links.map Link.bottom).Nodup)
    (hnamed : ∀ link ∈ links, ∃ name, relationshipName link.key = .ok name)
    (hfrontier : ∀ name ∈ frontier, paths.contains name) (hpassed : Passed links frontier paths) :
    ∃ all, expand links frontier paths = .ok all := by
  fun_induction expand links frontier paths with
  | case1 frontier paths e herror =>
    have hnodup : ((followed frontier links).map Link.bottom).Nodup :=
      hapart.sublist (List.filter_sublist.map _)
    obtain ⟨found, next, hscan⟩ :=
      scan_succeeds hnodup (fun _ => hpassed.fresh) fun l hl _ => hnamed l hl
    rw [hscan] at herror
    cases herror
  | case2 frontier paths found => exact ⟨found, rfl⟩
  | case3 frontier paths found next hscan hnext ih =>
    have hscanned := scan_ok hscan
    exact ih (fun name hname => (hscanned.found_iff name).2 (.inr hname))
      (hpassed.next hapart hfrontier hscanned)

end Resolve

end PathQuery
