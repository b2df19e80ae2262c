import PathQuery.Proofs.Text
import PathQuery.Relation.Link
/-!
# Foreign keys with a relationship name

A foreign key names a relationship if it has one of two endings and something in front of it. The two
endings exclude each other, so the name is determined by the stem.
-/

namespace PathQuery

/-- A foreign key that a relationship is named after: it ends in `__c` or in the name of the primary key,
and something precedes that ending. -/
def Nameable (key : String) : Prop :=
  ∃ stem, stem ≠ "" ∧ (key = stem ++ "__c" ∨ key = stem ++ primaryKey)

theorem append_key_ne_append_custom (stem other : String) : stem ++ primaryKey ≠ other ++ "__c" := by
  intro h
  have hlast := congrArg (fun s => s.toList.getLast?) h
  simp [primaryKey] at hlast

theorem relationshipName_eq_ok_iff {key name : String} :
    relationshipName key = .ok name ↔
      ∃ stem, stem ≠ "" ∧ ((key = stem ++ "__c" ∧ name = stem ++ "__r") ∨
        (key = stem ++ primaryKey ∧ name = stem)) := by
  constructor
  · intro h
    rw [relationshipName] at h
    split at h
    · rename_i stem hcustom
      rw [Text.beforeEnd?_eq_some_iff] at hcustom
      split at h
      · rename_i hstem
        cases h
        exact ⟨stem, hstem, .inl ⟨hcustom, rfl⟩⟩
      · cases h
    · split at h
      · rename_i stem hkey
        rw [Text.beforeEnd?_eq_some_iff] at hkey
        split at h
        · rename_i hstem
          cases h
          exact ⟨_, hstem, .inr ⟨hkey, rfl⟩⟩
        · cases h
      · cases h
  · rintro ⟨stem, hstem, ⟨rfl, rfl⟩ | ⟨rfl, hname⟩⟩
    · have hcustom : Text.beforeEnd? "__c" (stem ++ "__c") = some stem :=
        Text.beforeEnd?_eq_some_iff.2 rfl
      simp only [relationshipName, hcustom, ne_eq, hstem, not_false_eq_true, if_true]
    · have hcustom : Text.beforeEnd? "__c" (stem ++ primaryKey) = none :=
        Text.beforeEnd?_eq_none_iff.2 fun other => append_key_ne_append_custom stem other
      have hkey : Text.beforeEnd? primaryKey (stem ++ primaryKey) = some stem :=
        Text.beforeEnd?_eq_some_iff.2 rfl
      simp only [relationshipName, hcustom, hkey, ne_eq, hstem, not_false_eq_true, if_true, hname]

theorem relationshipName_ne_empty {key name : String} (h : relationshipName key = .ok name) :
    name ≠ "" := by
  obtain ⟨stem, hstem, ⟨-, rfl⟩ | ⟨-, rfl⟩⟩ := relationshipName_eq_ok_iff.1 h
  · intro hempty
    exact hstem (String.append_eq_empty_iff.1 hempty).1
  · exact hstem

/-- The characters of a relationship's name come from the foreign key, up to the ending. -/
theorem mem_relationshipName {key name : String} (h : relationshipName key = .ok name) {c : Char}
    (hc : c ∈ name.toList) : c ∈ key.toList ∨ c ∈ "__r".toList := by
  obtain ⟨stem, -, ⟨hkey, rfl⟩ | ⟨hkey, rfl⟩⟩ := relationshipName_eq_ok_iff.1 h
  · rw [String.toList_append, List.mem_append] at hc
    refine hc.imp_left fun hstem => ?_
    rw [hkey, String.toList_append]
    exact List.mem_append_left _ hstem
  · rw [hkey, String.toList_append]
    exact .inl (List.mem_append_left _ hc)

theorem nameable_iff {key : String} : Nameable key ↔ ∃ name, relationshipName key = .ok name := by
  simp only [relationshipName_eq_ok_iff, Nameable]
  constructor
  · rintro ⟨stem, hstem, hkey | hkey⟩
    · exact ⟨stem ++ "__r", stem, hstem, .inl ⟨hkey, rfl⟩⟩
    · exact ⟨stem, stem, hstem, .inr ⟨hkey, rfl⟩⟩
  · rintro ⟨name, stem, hstem, ⟨hkey, -⟩ | ⟨hkey, -⟩⟩
    · exact ⟨stem, hstem, .inl hkey⟩
    · exact ⟨stem, hstem, .inr hkey⟩

end PathQuery
