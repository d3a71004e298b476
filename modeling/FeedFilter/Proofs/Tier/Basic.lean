import FeedFilter.Proofs.Query.Record
import FeedFilter.Service

namespace FeedFilter

namespace Parsed

variable {m : Type → Type} [Monad m] {ν : Type}

def lower (engine : Engine m ν) (dedicated : Bool) : Parsed → m ν
  | .flat query => query.lower engine dedicated
  | .formula query => query.lower engine dedicated

def operator (dedicated : Bool) : Parsed → Operator
  | .flat query => query.operator dedicated
  | .formula query => query.operator dedicated

-- The event that compiling leaves behind.
def compiling (dedicated : Bool) : Parsed → Event
  | .flat query => .compilingFlat query.author query.isPrivate dedicated
  | .formula query => .compilingFormula query.nodeCount dedicated

end Parsed

namespace Tier

-- The functions of either tier. Only flat queries ask for the check of authors.
def check (tier : Tier) (accepts : String → Bool) (query : Json) : Except QueryError Parsed :=
  match tier with
  | .ql0 => (Flat.check accepts query).map .flat
  | .ql1 => (Formula.check query).map .formula

def compile (tier : Tier) (accepts : String → Bool) (dedicated : Bool) (query : Json) :
    Except QueryError Operator :=
  match tier with
  | .ql0 => Flat.compile accepts dedicated query
  | .ql1 => Formula.compile dedicated query

def compileWith {m : Type → Type} [Monad m] {ν : Type} (tier : Tier) (engine : Engine m ν)
    (accepts : String → Bool) (dedicated : Bool) (query : Json) : Except QueryError (m ν) :=
  match tier with
  | .ql0 => Flat.compileWith engine accepts dedicated query
  | .ql1 => Formula.compileWith engine dedicated query

end Tier

theorem Service.reply_map {α β : Type} (f : α → β) (make : β → Reply)
    (found : Except QueryError α) :
    reply make (found.map f) = reply (fun value => make (f value)) found := by
  cases found with
  | error error => rfl
  | ok value => rfl

theorem Query.attempt_map {α β : Type} (f : α → β) (tier : Tier)
    (check : Json → Except QueryError α) (query : Json) :
    attempt tier (fun query => (check query).map f) query =
      ((attempt tier check query).1.map f, (attempt tier check query).2) := by
  rw [attempt, attempt]
  cases query.isTruthy with
  | false => rfl
  | true =>
    cases check query with
    | error error => rfl
    | ok found => rfl

-- Whatever a tier is asked, the query is checked first, and all else is made of what the check
-- finds.
section Factors

variable (tier : Tier) (accepts : String → Bool) (dedicated : Bool) (query : Json)

theorem Tier.compile_eq :
    tier.compile accepts dedicated query =
      (tier.check accepts query).map (Parsed.operator dedicated) := by
  cases tier <;> (rw [check, Except.map_map]; rfl)

theorem Tier.compileWith_eq {m : Type → Type} [Monad m] {ν : Type} (engine : Engine m ν) :
    tier.compileWith engine accepts dedicated query =
      (tier.check accepts query).map (Parsed.lower engine dedicated) := by
  cases tier <;> (rw [check, Except.map_map]; rfl)

variable (service : Service)

theorem Service.validate_eq :
    service.validate query tier = reply (fun _ => .valid) (tier.check service.accepts query) := by
  cases tier <;> (rw [Tier.check, reply_map]; rfl)

theorem Service.stringify_eq :
    service.stringify query tier = reply (.text ·.text) (tier.check service.accepts query) := by
  cases tier with
  | ql0 => rw [stringify, Flat.stringify, Tier.check, reply_map, reply_map]; rfl
  | ql1 => rw [stringify, Formula.stringify, Tier.check, reply_map, reply_map]; rfl

-- An event comes with the tree, and none with an error.
theorem Service.compile_eq :
    service.compile query tier =
      (reply .compiled (tier.compile service.accepts service.settings.dedicated query),
        (tier.check service.accepts query).toOption.toList.map
          (Parsed.compiling service.settings.dedicated)) := by
  cases tier with
  | ql0 =>
    rw [compile, Tier.compile, Flat.compile, Tier.check]
    cases Flat.check service.accepts query <;> rfl
  | ql1 =>
    rw [compile, Tier.compile, Formula.compile, Tier.check]
    cases Formula.check query <;> rfl

theorem Service.parse_eq :
    service.parse query tier = Query.attempt tier (tier.check service.accepts) query := by
  cases tier with
  | ql0 => exact (Query.attempt_map Parsed.flat .ql0 (Flat.check service.accepts) query).symm
  | ql1 => exact (Query.attempt_map Parsed.formula .ql1 Formula.check query).symm

end Factors

end FeedFilter
