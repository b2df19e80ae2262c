import PathQuery.Report
/-!
# Reports step by step

When a report that is made in steps succeeds, each of its steps did, and its warnings are those of the
steps. These are the only facts that proofs about the compiler use of the type.
-/

namespace PathQuery

theorem exists_eq_ok {ε α : Type} {r : Except ε α} (h : r.toOption.isSome) : ∃ a, r = .ok a := by
  cases r with
  | error e => cases h
  | ok a => exact ⟨a, rfl⟩

theorem exists_eq_ok_of_map {ε α β : Type} {r : Except ε α} {f : α → β} {b : β}
    (h : r.toOption.map f = some b) : ∃ a, r = .ok a ∧ f a = b := by
  cases r with
  | error e => cases h
  | ok a => exact ⟨a, rfl, Option.some_inj.1 h⟩

theorem eq_error_of_map {ε α β : Type} {r : Except ε α} {f : α → β} {e : ε} (h : r.map f = .error e) :
    r = .error e := by
  cases r with
  | error e' =>
    cases h
    rfl
  | ok a => cases h

namespace Report

variable {ε ε' α β : Type}

@[simp] theorem pure_warnings (a : α) : (pure a : Report ε α).warnings = [] := rfl

@[simp] theorem ofExcept_result (r : Except ε α) : (ofExcept r).result = r := rfl

@[simp] theorem ofExcept_warnings (r : Except ε α) : (ofExcept r).warnings = [] := rfl

@[simp] theorem mapError_result_eq_ok {f : ε → ε'} {r : Report ε α} {a : α} :
    (r.mapError f).result = .ok a ↔ r.result = .ok a := by
  rw [mapError]
  cases r.result with
  | error e => exact ⟨nofun, nofun⟩
  | ok b =>
    constructor
    · intro h
      cases h
      rfl
    · intro h
      cases h
      rfl

theorem bind_result_eq_ok {r : Report ε α} {f : α → Report ε β} {b : β} :
    (r >>= f).result = .ok b ↔ ∃ a, r.result = .ok a ∧ (f a).result = .ok b := by
  change (Report.bind r f).result = .ok b ↔ _
  rw [Report.bind]
  cases r.result <;> simp

theorem bind_result_of_ok {r : Report ε α} {f : α → Report ε β} {a : α} (h : r.result = .ok a) :
    (r >>= f).result = (f a).result := by
  change (Report.bind r f).result = _
  rw [Report.bind, h]

/-- The steps of a report that succeeds, with their warnings. -/
theorem bind_ok {r : Report ε α} {f : α → Report ε β} {b : β} (h : (r >>= f).result = .ok b) :
    ∃ a, r.result = .ok a ∧ (f a).result = .ok b ∧
      (r >>= f).warnings = r.warnings ++ (f a).warnings := by
  obtain ⟨a, ha, hb⟩ := bind_result_eq_ok.1 h
  refine ⟨a, ha, hb, ?_⟩
  change (Report.bind r f).warnings = _
  rw [Report.bind, ha]

theorem bind_quiet {r : Report ε α} {f : α → Report ε β} (hr : r.warnings = [])
    (hf : ∀ a, r.result = .ok a → (f a).warnings = []) : (r >>= f).warnings = [] := by
  change (Report.bind r f).warnings = []
  rw [Report.bind]
  split
  · exact hr
  · rename_i a ha
    rw [hr, hf a ha, List.append_nil]

/-! ### Two reports side by side -/

/-- The reports give the same warnings, and the same error or related values. -/
structure Matches (related : α → β → Prop) (r : Report ε α) (s : Report ε β) : Prop where
  warnings : r.warnings = s.warnings
  result : (∃ e, r.result = .error e ∧ s.result = .error e) ∨
    ∃ a b, r.result = .ok a ∧ s.result = .ok b ∧ related a b

namespace Matches

variable {γ δ : Type} {related : α → β → Prop} {r : Report ε α} {s : Report ε β}

theorem pure {a : α} {b : β} (h : related a b) :
    Matches related (Pure.pure a : Report ε α) (Pure.pure b) :=
  ⟨rfl, .inr ⟨a, b, rfl, rfl, h⟩⟩

theorem fail (e : ε) : Matches related (Report.fail e : Report ε α) (Report.fail e) :=
  ⟨rfl, .inl ⟨e, rfl, rfl⟩⟩

theorem refl {related : α → α → Prop} (h : ∀ a, r.result = .ok a → related a a) : Matches related r r := by
  refine ⟨rfl, ?_⟩
  cases hresult : r.result with
  | error e => exact .inl ⟨e, rfl, rfl⟩
  | ok a => exact .inr ⟨a, a, rfl, rfl, h a hresult⟩

theorem mono {other : α → β → Prop} (h : Matches related r s) (himp : ∀ a b, related a b → other a b) :
    Matches other r s :=
  ⟨h.warnings, h.result.imp_right fun ⟨a, b, ha, hb, hab⟩ => ⟨a, b, ha, hb, himp a b hab⟩⟩

theorem mapError (h : Matches related r s) (f : ε → ε') :
    Matches related (r.mapError f) (s.mapError f) := by
  refine ⟨h.warnings, ?_⟩
  rw [Report.mapError, Report.mapError]
  rcases h.result with ⟨e, hr, hs⟩ | ⟨a, b, hr, hs, hab⟩
  · rw [hr, hs]
    exact .inl ⟨f e, rfl, rfl⟩
  · rw [hr, hs]
    exact .inr ⟨a, b, rfl, rfl, hab⟩

theorem bind {other : γ → δ → Prop} {f : α → Report ε γ} {g : β → Report ε δ} (h : Matches related r s)
    (hnext : ∀ a b, related a b → Matches other (f a) (g b)) : Matches other (r >>= f) (s >>= g) := by
  change Matches other (Report.bind r f) (Report.bind s g)
  rw [Report.bind, Report.bind]
  rcases h.result with ⟨e, hr, hs⟩ | ⟨a, b, hr, hs, hab⟩
  · rw [hr, hs]
    exact ⟨h.warnings, .inl ⟨e, rfl, rfl⟩⟩
  · rw [hr, hs]
    obtain ⟨hwarnings, hresult⟩ := hnext a b hab
    exact ⟨congr (congrArg _ h.warnings) hwarnings, hresult⟩

/-- Two reports that start with the same step. -/
theorem bind_same {other : γ → δ → Prop} {f : α → Report ε γ} {g : α → Report ε δ}
    (hnext : ∀ a, r.result = .ok a → Matches other (f a) (g a)) : Matches other (r >>= f) (r >>= g) := by
  have hsame : Matches (fun a b => a = b ∧ r.result = .ok a) r r := .refl fun a ha => ⟨rfl, ha⟩
  refine hsame.bind ?_
  rintro a b ⟨rfl, ha⟩
  exact hnext a ha

theorem eq {s : Report ε α} (h : Matches Eq r s) : r = s := by
  obtain ⟨warnings, result⟩ := r
  obtain ⟨hwarnings, ⟨e, rfl, hs⟩ | ⟨a, b, rfl, hs, rfl⟩⟩ := h <;>
  · change warnings = s.warnings at hwarnings
    rw [hwarnings, ← hs]

theorem eq_map {f : β → α} (h : Matches (fun a b => a = f b) r s) : r = f <$> s := by
  obtain ⟨warnings, result⟩ := r
  obtain ⟨hwarnings, hresult⟩ := h
  change warnings = s.warnings at hwarnings
  change _ = Report.bind s fun b => Pure.pure (f b)
  rcases hresult with ⟨e, rfl, hs⟩ | ⟨a, b, rfl, hs, rfl⟩
  · rw [Report.bind, hs, hwarnings]
  · rw [Report.bind, hs, hwarnings]
    exact congrArg (Report.mk · (.ok (f b))) (List.append_nil s.warnings).symm

end Matches

end Report

end PathQuery
