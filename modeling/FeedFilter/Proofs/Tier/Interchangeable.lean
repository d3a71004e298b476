import FeedFilter.Proofs.Flat.Check
import FeedFilter.Proofs.Formula.Check
import FeedFilter.Proofs.Tier.Basic

namespace FeedFilter

-- What a report says apart from the query that it quotes.
def Diagnostic.reason (diagnostic : Diagnostic) : String × String :=
  (diagnostic.tier, diagnostic.error)

namespace Query

theorem isTruthy_eq_false_iff {query : Json} :
    query.isTruthy = false ↔ ∃ text, record query = .error (.falsy text) := by
  unfold record
  constructor
  · intro h
    exact ⟨query.compact, by simp [h]⟩
  · rintro ⟨text, h⟩
    split at h
    · repeat' split at h
      all_goals cases h
    · next hfalsy => exact Bool.eq_false_iff.mpr hfalsy

theorem isTruthy_congr {query other : Json} (h : record query = record other) :
    query.isTruthy = other.isTruthy := by
  rw [Bool.eq_iff_iff, ← not_iff_not, Bool.not_eq_true, Bool.not_eq_true, isTruthy_eq_false_iff,
    isTruthy_eq_false_iff, h]

-- An attempt looks at a query in three ways: whether it is there, what the check finds, and how
-- it is quoted.
section Attempt

variable {α : Type} {tier : Tier} {check : Json → Except QueryError α} {query other : Json}

theorem attempt_congr (hcheck : check query = check other)
    (htruthy : query.isTruthy = other.isTruthy) :
    (attempt tier check query).1 = (attempt tier check other).1 ∧
      (attempt tier check query).2.map Diagnostic.reason =
        (attempt tier check other).2.map Diagnostic.reason := by
  rw [attempt, attempt, hcheck, htruthy]
  cases other.isTruthy with
  | false => exact ⟨rfl, rfl⟩
  | true =>
    cases check other with
    | error error => exact ⟨rfl, rfl⟩
    | ok found => exact ⟨rfl, rfl⟩

theorem attempt_congr_shown (hcheck : check query = check other)
    (htruthy : query.isTruthy = other.isTruthy) (hshown : shown query = shown other) :
    attempt tier check query = attempt tier check other := by
  rw [attempt, attempt, hcheck, htruthy, hshown]

theorem attempt_of_error {error : QueryError} (hcheck : check query = .error error)
    (htruthy : query.isTruthy = true) :
    attempt tier check query = (none, [⟨tier.name, shown query, error.message⟩]) := by
  rw [attempt, if_pos htruthy, hcheck]

end Attempt

end Query

namespace Tier

variable {tier : Tier} {query other : Json}

-- Nothing that a tier is asked about two values comes out differently, save that a report quotes
-- the query as it was given.
structure Interchangeable (tier : Tier) (query other : Json) : Prop where
  check : ∀ accepts, tier.check accepts query = tier.check accepts other
  compile : ∀ accepts dedicated,
    tier.compile accepts dedicated query = tier.compile accepts dedicated other
  compileWith : ∀ {m : Type → Type} [Monad m] {ν : Type} (engine : Engine m ν) accepts dedicated,
    tier.compileWith engine accepts dedicated query =
      tier.compileWith engine accepts dedicated other
  validated : ∀ service : Service, service.validate query tier = service.validate other tier
  stringified : ∀ service : Service, service.stringify query tier = service.stringify other tier
  compiled : ∀ service : Service, service.compile query tier = service.compile other tier
  parsed : ∀ service : Service, (service.parse query tier).1 = (service.parse other tier).1
  reports : ∀ service : Service, (service.parse query tier).2.map Diagnostic.reason =
    (service.parse other tier).2.map Diagnostic.reason

-- Whatever a tier is asked about a query, it gives the error and nothing else.
structure Refuses (tier : Tier) (query : Json) (error : QueryError) : Prop where
  check : ∀ accepts, tier.check accepts query = .error error
  compile : ∀ accepts dedicated, tier.compile accepts dedicated query = .error error
  compileWith : ∀ {m : Type → Type} [Monad m] {ν : Type} (engine : Engine m ν) accepts dedicated,
    tier.compileWith engine accepts dedicated query = .error error
  validated : ∀ service : Service, service.validate query tier = .refused error
  stringified : ∀ service : Service, service.stringify query tier = .refused error
  compiled : ∀ service : Service, service.compile query tier = (.refused error, [])
  parsed : ∀ service : Service,
    service.parse query tier = (none, [⟨tier.name, Query.shown query, error.message⟩])

-- It is enough that the check does not tell the values apart, and that both are there.
theorem interchangeable_of_check
    (hcheck : ∀ accepts, tier.check accepts query = tier.check accepts other)
    (htruthy : query.isTruthy = other.isTruthy) : tier.Interchangeable query other where
  check := hcheck
  compile := by
    intro accepts dedicated
    rw [compile_eq, compile_eq, hcheck]
  compileWith := by
    intro m _ ν engine accepts dedicated
    rw [compileWith_eq, compileWith_eq, hcheck]
  validated := by
    intro service
    rw [Service.validate_eq, Service.validate_eq, hcheck]
  stringified := by
    intro service
    rw [Service.stringify_eq, Service.stringify_eq, hcheck]
  compiled := by
    intro service
    rw [Service.compile_eq, Service.compile_eq, compile_eq, compile_eq, hcheck]
  parsed := by
    intro service
    rw [Service.parse_eq, Service.parse_eq]
    exact (Query.attempt_congr (hcheck service.accepts) htruthy).1
  reports := by
    intro service
    rw [Service.parse_eq, Service.parse_eq]
    exact (Query.attempt_congr (hcheck service.accepts) htruthy).2

theorem refuses_of_check {error : QueryError}
    (hcheck : ∀ accepts, tier.check accepts query = .error error)
    (htruthy : query.isTruthy = true) : tier.Refuses query error where
  check := hcheck
  compile := by
    intro accepts dedicated
    rw [compile_eq, hcheck]
    rfl
  compileWith := by
    intro m _ ν engine accepts dedicated
    rw [compileWith_eq, hcheck]
    rfl
  validated := by
    intro service
    rw [Service.validate_eq, hcheck]
    rfl
  stringified := by
    intro service
    rw [Service.stringify_eq, hcheck]
    rfl
  compiled := by
    intro service
    rw [Service.compile_eq, compile_eq, hcheck]
    rfl
  parsed := by
    intro service
    rw [Service.parse_eq]
    exact Query.attempt_of_error (hcheck service.accepts) htruthy

-- A tier looks at nothing of a query but its record.
theorem check_of_record (h : Query.record query = Query.record other) (accepts : String → Bool) :
    tier.check accepts query = tier.check accepts other := by
  cases tier with
  | ql0 => rw [check, check, Flat.check, Flat.check, h]
  | ql1 => rw [check, check, Formula.check_congr h]

theorem check_of_record_error {error : QueryError} (h : Query.record query = .error error)
    (accepts : String → Bool) : tier.check accepts query = .error error := by
  cases tier with
  | ql0 => rw [check, Flat.check, h]; rfl
  | ql1 => rw [check, Formula.check_of_record_error h]; rfl

theorem interchangeable_of_record (h : Query.record query = Query.record other) :
    tier.Interchangeable query other :=
  interchangeable_of_check (check_of_record h) (Query.isTruthy_congr h)

end Tier

theorem Flat.migrate_of_record {accepts : String → Bool} {query other : Json}
    (h : Query.record query = Query.record other) :
    migrate accepts query = migrate accepts other := by
  rw [migrate, migrate, h]

end FeedFilter
