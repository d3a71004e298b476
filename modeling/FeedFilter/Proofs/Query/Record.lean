import FeedFilter.Query.Diagnostic
import FeedFilter.Query.Size

namespace FeedFilter.Query

theorem isTruthy_of_read {text : String} {value : Json} (h : Json.read text = .ok value) :
    (Json.str text).isTruthy = true := by
  have hsize := Json.size_le_of_read h
  have hpos := value.size_pos
  have hne : text ≠ "" := by
    rintro rfl
    simp at hsize
    omega
  simp [Json.isTruthy, hne]

@[simp] theorem record_obj (members : Members) : record (.obj members) = .ok members := rfl

theorem record_text {text : String} {members : Members} (h : Json.read text = .ok (.obj members)) :
    record (.str text) = .ok members := by
  rw [record, if_pos (isTruthy_of_read h)]
  simp [h]

theorem record_complaint {text : String} {complaint : Complaint}
    (h : Json.read text = .error complaint) (hne : text ≠ "") :
    record (.str text) = .error (.notJson complaint) := by
  have htruthy : (Json.str text).isTruthy = true := by simp [Json.isTruthy, hne]
  rw [record, if_pos htruthy]
  simp [h]

-- There are two ways to give a record, and a text is read only once.
theorem record_eq_ok_iff {query : Json} {members : Members} :
    record query = .ok members ↔
      query = .obj members ∨ ∃ text, query = .str text ∧ Json.read text = .ok (.obj members) := by
  constructor
  · intro h
    unfold record at h
    split at h
    · split at h
      · cases h
        exact .inl rfl
      · next text _ =>
        split at h
        · next found hread =>
          cases h
          exact .inr ⟨text, rfl, hread⟩
        · cases h
        · cases h
      · cases h
    · cases h
  · rintro (rfl | ⟨text, rfl, hread⟩)
    · exact record_obj members
    · exact record_text hread

theorem record_text_eq_ok_iff {text : String} {members : Members} :
    record (.str text) = .ok members ↔ Json.read text = .ok (.obj members) := by
  constructor
  · intro h
    rcases record_eq_ok_iff.mp h with hobject | ⟨_, htext, hread⟩
    · cases hobject
    · cases htext
      exact hread
  · exact record_text

theorem isTruthy_of_record {query : Json} {members : Members} (h : record query = .ok members) :
    query.isTruthy = true := by
  rcases record_eq_ok_iff.mp h with rfl | ⟨text, rfl, hread⟩
  · rfl
  · exact isTruthy_of_read hread

section Fields

variable {members : Members} {name : String}

theorem textField_eq_ok_iff {text : String} :
    textField members name = .ok text ↔ members.lookup name = some (.str text) := by
  unfold textField
  split
  · next h => simp [h]
  · next found h => simp [h]
  · next value hvalue h =>
    simp only [h, reduceCtorEq, false_iff, Option.some.injEq]
    exact hvalue text

theorem textField_eq_error_iff {error : QueryError} :
    textField members name = .error error ↔
      (members.lookup name = none ∧ error = .missingField name) ∨
      ∃ value, members.lookup name = some value ∧ (∀ text, value ≠ .str text) ∧
        error = .wrongField name "a string" := by
  unfold textField
  split
  · next h => simp [h, eq_comm]
  · next found h => simp [h]
  · next value hvalue h =>
    rw [Except.error.injEq, eq_comm, h]
    constructor
    · intro he
      exact .inr ⟨value, rfl, hvalue, he⟩
    · rintro (⟨hnone, _⟩ | ⟨_, _, _, he⟩)
      · cases hnone
      · exact he

end Fields

section Attempt

variable {α : Type} {tier : Tier} {check : Json → Except QueryError α} {query : Json} {found : α}

theorem attempt_fst_eq_some_iff :
    (attempt tier check query).1 = some found ↔
      query.isTruthy = true ∧ check query = .ok found := by
  rw [attempt]
  by_cases htruthy : query.isTruthy = true
  · rw [if_pos htruthy]
    cases hcheck : check query with
    | ok other => simp [htruthy]
    | error error => simp
  · rw [if_neg htruthy]
    simp [htruthy]

-- A query that is accepted is parsed without a report.
theorem attempt_eq_some_iff :
    attempt tier check query = (some found, []) ↔
      query.isTruthy = true ∧ check query = .ok found := by
  constructor
  · intro h
    exact attempt_fst_eq_some_iff.mp (by rw [h])
  · rintro ⟨htruthy, hcheck⟩
    rw [attempt, if_pos htruthy, hcheck]

end Attempt

end FeedFilter.Query
