import FeedFilter.Flat.Check
import FeedFilter.Proofs.Query.Record

namespace FeedFilter.Flat

open Query (textField textField_eq_ok_iff)

section Fields

variable {members : Members}

theorem limitFields_eq_ok_iff {names : List String} :
    limitFields names members = .ok () ↔ members.length ≤ names.length := by
  rw [limitFields]
  by_cases h : members.length ≤ names.length
  · simp [h]
  · simp [h]

theorem typeField_eq_ok_iff {type : Option String} :
    typeField members = .ok type ↔ members.lookup "type" = some (Operator.ofNullable type) := by
  unfold typeField
  split
  · next h => simp [h]
  · next h =>
    cases type with
    | none => simp [h, Operator.ofNullable]
    | some name => simp [h, Operator.ofNullable]
  · next found h =>
    cases type with
    | none => simp [h, Operator.ofNullable]
    | some name => simp [h, Operator.ofNullable]
  · next value hnull htext h =>
    simp only [h, reduceCtorEq, false_iff, Option.some.injEq]
    cases type with
    | none => exact hnull
    | some name => exact htext name

theorem privateField_eq_ok_iff {isPrivate : Bool} :
    privateField members = .ok isPrivate ↔
      members.lookup "private" = some (.bool isPrivate) := by
  unfold privateField
  split
  · next h => simp [h]
  · next found h => simp [h]
  · next value hflag h =>
    simp only [h, reduceCtorEq, false_iff, Option.some.injEq]
    exact hflag isPrivate

end Fields

variable {accepts : String → Bool} {members : Members} {flat : Flat}

-- The fields of a query, and no room for others: three are there, and no more than three.
structure Fits (members : Members) (flat : Flat) : Prop where
  bound : members.length ≤ fieldNames.length
  author : members.lookup "author" = some (.str flat.author)
  type : members.lookup "type" = some (Operator.ofNullable flat.type)
  isPrivate : members.lookup "private" = some (.bool flat.isPrivate)

-- What is left to decide once the fields have been read.
def verdict (accepts : String → Bool) (flat : Flat) : Except QueryError Flat :=
  if flat.isPrivate && flat.type.isSome then .error .privateWithType
  else if accepts flat.author then .ok flat
  else .error (.badFeed flat.author)

theorem isConsistent_iff : flat.IsConsistent ↔ (flat.isPrivate && flat.type.isSome) = false := by
  obtain ⟨author, type, isPrivate⟩ := flat
  cases isPrivate <;> cases type <;> simp [IsConsistent]

theorem verdict_eq_ok_iff {found : Flat} :
    verdict accepts flat = .ok found ↔
      flat.IsConsistent ∧ accepts flat.author = true ∧ found = flat := by
  rw [isConsistent_iff, verdict]
  by_cases hparts : (flat.isPrivate && flat.type.isSome) = true
  · rw [if_pos hparts, hparts]
    simp
  · rw [if_neg hparts]
    by_cases hfeed : accepts flat.author = true
    · rw [if_pos hfeed]
      simp [hparts, hfeed, eq_comm]
    · rw [if_neg hfeed]
      simp [hfeed]

theorem verdict_eq_error_iff {error : QueryError} :
    verdict accepts flat = .error error ↔
      (¬flat.IsConsistent ∧ error = .privateWithType) ∨
        (flat.IsConsistent ∧ accepts flat.author = false ∧ error = .badFeed flat.author) := by
  rw [isConsistent_iff, verdict]
  by_cases hparts : (flat.isPrivate && flat.type.isSome) = true
  · rw [if_pos hparts, hparts, Except.error.injEq, eq_comm (a := QueryError.privateWithType)]
    simp
  · rw [if_neg hparts]
    by_cases hfeed : accepts flat.author = true
    · simp [hparts, hfeed]
    · rw [if_neg hfeed, Except.error.injEq, eq_comm (a := QueryError.badFeed _)]
      simp [hparts, hfeed]

-- A record is read field by field, and then judged.
theorem ofRecord_eq_verdict :
    ofRecord accepts members = (do
      limitFields fieldNames members
      let author ← textField members "author"
      let type ← typeField members
      let isPrivate ← privateField members
      verdict accepts ⟨author, type, isPrivate⟩) := by
  unfold ofRecord
  refine bind_congr fun _ => bind_congr fun author => bind_congr fun type =>
    bind_congr fun isPrivate => ?_
  unfold verdict checkFeed
  by_cases hparts : (isPrivate && type.isSome) = true
  · rw [if_pos hparts, if_pos hparts]
    rfl
  · rw [if_neg hparts, if_neg hparts]
    by_cases hfeed : accepts author = true
    · rw [if_pos hfeed, if_pos hfeed]
      rfl
    · rw [if_neg hfeed, if_neg hfeed]
      rfl

theorem ofRecord_of_fits (h : Fits members flat) :
    ofRecord accepts members = verdict accepts flat := by
  rw [ofRecord_eq_verdict, limitFields_eq_ok_iff.mpr h.bound, textField_eq_ok_iff.mpr h.author,
    typeField_eq_ok_iff.mpr h.type, privateField_eq_ok_iff.mpr h.isPrivate]
  rfl

-- A record that is accepted has the fields of the query, which stands the last tests.
theorem ofRecord_eq_ok_iff :
    ofRecord accepts members = .ok flat ↔
      Fits members flat ∧ flat.IsConsistent ∧ accepts flat.author = true := by
  constructor
  · intro h
    have hrecord := h
    unfold ofRecord at h
    obtain ⟨_, hbound, h⟩ := Except.bind_eq_ok h
    obtain ⟨author, hauthor, h⟩ := Except.bind_eq_ok h
    obtain ⟨type, htype, h⟩ := Except.bind_eq_ok h
    obtain ⟨isPrivate, hprivate, _⟩ := Except.bind_eq_ok h
    have hfits : Fits members ⟨author, type, isPrivate⟩ :=
      ⟨limitFields_eq_ok_iff.mp hbound, textField_eq_ok_iff.mp hauthor,
        typeField_eq_ok_iff.mp htype, privateField_eq_ok_iff.mp hprivate⟩
    rw [ofRecord_of_fits hfits] at hrecord
    obtain ⟨hparts, hfeed, rfl⟩ := verdict_eq_ok_iff.mp hrecord
    exact ⟨hfits, hparts, hfeed⟩
  · rintro ⟨hfits, hparts, hfeed⟩
    rw [ofRecord_of_fits hfits]
    exact verdict_eq_ok_iff.mpr ⟨hparts, hfeed, rfl⟩

theorem check_of_record {query : Json} (h : Query.record query = .ok members) :
    check accepts query = ofRecord accepts members := by
  rw [check, h]
  rfl

-- What the other operations make of a query that is accepted.
theorem results_of_check {query : Json} (h : check accepts query = .ok flat) :
    parse accepts query = (some flat, []) ∧ stringify accepts query = .ok flat.text ∧
      ∀ dedicated, compile accepts dedicated query = .ok (flat.operator dedicated) := by
  obtain ⟨members, hrecord, _⟩ := Except.bind_eq_ok h
  refine ⟨Query.attempt_eq_some_iff.mpr ⟨Query.isTruthy_of_record hrecord, h⟩, ?_, ?_⟩
  · rw [stringify, h]
    rfl
  · intro dedicated
    rw [compile, h]
    rfl

end FeedFilter.Flat
