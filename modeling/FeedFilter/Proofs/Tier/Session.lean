import FeedFilter.Proofs.Tier.Interchangeable

namespace FeedFilter

-- What can be asked while one log is kept: all that a service is called for, and to compile for an
-- engine, which may be of any kind and is given any flag.
inductive Request : Type 1
  | call (call : Call)
  | compileWith {m : Type → Type} [Monad m] {ν : Type} (tier : Tier) (engine : Engine m ν)
      (dedicated : Bool) (query : Json)

inductive Answer : Type 1
  | reply (reply : Reply)
  | program {m : Type → Type} {ν : Type} (program : m ν)

def Reply.refusal? : Reply → Option QueryError
  | .refused error => some error
  | _ => none

-- The error of an answer. Every answer without one is a success.
def Answer.refusal? : Answer → Option QueryError
  | .reply given => given.refusal?
  | .program _ => none

-- The query that has to be accepted for a request to succeed, and the tier that it is for.
def Request.subject? : Request → Option (Tier × Json)
  | .call (.validate tier query) => some (tier, query)
  | .call (.compile tier query) => some (tier, query)
  | .call (.stringify tier query) => some (tier, query)
  | @compileWith _ _ _ tier _ _ query => some (tier, query)
  | _ => none

theorem Tier.isTruthy_of_check {tier : Tier} {accepts : String → Bool} {query : Json}
    {parsed : Parsed} (h : tier.check accepts query = .ok parsed) : query.isTruthy = true := by
  by_contra hfalsy
  obtain ⟨text, hrecord⟩ := Query.isTruthy_eq_false_iff.mp (Bool.eq_false_iff.mpr hfalsy)
  cases (check_of_record_error hrecord accepts).symm.trans h

namespace Service

variable (service : Service)

-- Answers a request and puts the reports that come with the answer at the end of the log.
def perform (request : Request) (log : List Diagnostic) : Answer × List Diagnostic :=
  match request with
  | .call call =>
    let (reply, events) := service.answer call
    (.reply reply, log ++ events.filterMap Event.diagnostic?)
  | @Request.compileWith _ _ _ tier engine dedicated query =>
    match tier.compileWith engine service.accepts dedicated query with
    | .ok program => (.program program, log)
    | .error error => (.reply (.refused error), log)

-- Answers requests one after the other with one log for all, and keeps the answers with what they
-- are answers to.
def serve : List Request → List Diagnostic → List (Request × Answer) × List Diagnostic
  | [], log => ([], log)
  | request :: rest, log =>
    let (answer, log) := service.perform request log
    let (answers, log) := serve rest log
    ((request, answer) :: answers, log)

-- The report that is due for a query: none if it counts as absent or is valid, and one otherwise,
-- with the error that validating gives.
def due (tier : Tier) (query : Json) : List Diagnostic :=
  match query.isTruthy, service.validate query tier with
  | true, .refused error => [⟨tier.name, Query.shown query, error.message⟩]
  | _, _ => []

-- The reports that are due for a request. Only parsing makes any, and flat queries are compared by
-- parsing both of them.
def dueFor : Request → List Diagnostic
  | .call (.parse tier query) => service.due tier query
  | .call (.equate .ql0 left right) => service.due .ql0 left ++ service.due .ql0 right
  | _ => []

section Step

variable (tier : Tier) (query : Json)

theorem parse_snd : (service.parse query tier).2 = service.due tier query := by
  rw [parse_eq, due, validate_eq, Query.attempt]
  cases query.isTruthy with
  | false => rfl
  | true => cases tier.check service.accepts query <;> rfl

theorem parse_isSome_iff :
    (∃ found, (service.parse query tier).1 = some found) ↔ service.validate query tier = .valid := by
  rw [parse_eq, validate_eq]
  simp only [Query.attempt_fst_eq_some_iff]
  constructor
  · rintro ⟨found, _, hcheck⟩
    rw [hcheck]
    rfl
  · intro hvalid
    cases hcheck : tier.check service.accepts query with
    | ok found => exact ⟨found, Tier.isTruthy_of_check hcheck, rfl⟩
    | error error =>
      rw [hcheck] at hvalid
      cases hvalid

theorem diagnostics_map_unusable (reports : List Diagnostic) :
    (reports.map Event.unusable).filterMap Event.diagnostic? = reports := by
  rw [List.filterMap_map]
  exact List.filterMap_some

-- The events of compiling are no reports.
theorem diagnostics_compile :
    (service.compile query tier).2.filterMap Event.diagnostic? = [] := by
  rw [compile_eq]
  cases tier.check service.accepts query with
  | error error => rfl
  | ok parsed => cases parsed <;> rfl

theorem equate_ql0_snd (left right : Json) :
    (service.equate left right .ql0).2 = service.due .ql0 left ++ service.due .ql0 right := by
  rw [← parse_snd, ← parse_snd]
  rfl

-- A request adds the reports that are due for it, and takes none away.
theorem perform_snd (request : Request) (log : List Diagnostic) :
    (service.perform request log).2 = log ++ service.dueFor request := by
  cases request with
  | compileWith tier engine dedicated query =>
    rw [perform]
    cases tier.compileWith engine service.accepts dedicated query with
    | error error => exact (List.append_nil log).symm
    | ok program => exact (List.append_nil log).symm
  | call call =>
    cases call with
    | parse tier query =>
      rw [dueFor, ← parse_snd, ← diagnostics_map_unusable (service.parse query tier).2]
      rfl
    | equate tier left right =>
      cases tier with
      | ql0 =>
        rw [dueFor, ← equate_ql0_snd, ← diagnostics_map_unusable (service.equate left right .ql0).2]
        rfl
      | ql1 => rfl
    | compile tier query =>
      have hlog : (service.perform (.call (.compile tier query)) log).2 =
          log ++ (service.compile query tier).2.filterMap Event.diagnostic? := rfl
      rw [hlog, diagnostics_compile]
      rfl
    | validate tier query => rfl
    | stringify tier query => rfl
    | migrate query => rfl
    | settings => rfl

-- What is in the log makes no difference to an answer.
theorem perform_fst (request : Request) (log other : List Diagnostic) :
    (service.perform request log).1 = (service.perform request other).1 := by
  cases request with
  | call call => rfl
  | compileWith tier engine dedicated query =>
    rw [perform, perform]
    cases tier.compileWith engine service.accepts dedicated query <;> rfl

-- Whatever is made of a query, it is refused as it is refused when it is validated.
theorem refusal?_perform {request : Request} {tier : Tier} {query : Json}
    (h : request.subject? = some (tier, query)) (log : List Diagnostic) :
    (service.perform request log).1.refusal? = (service.validate query tier).refusal? := by
  rw [validate_eq]
  cases request with
  | compileWith tier engine dedicated query =>
    cases h
    rw [perform, Tier.compileWith_eq]
    cases tier.check service.accepts query <;> rfl
  | call call =>
    cases call with
    | validate tier query =>
      cases h
      rw [← validate_eq]
      rfl
    | compile tier query =>
      cases h
      have hreply : (service.perform (.call (.compile tier query)) log).1 =
          .reply (service.compile query tier).1 := rfl
      rw [hreply, compile_eq, Tier.compile_eq]
      cases tier.check service.accepts query <;> rfl
    | stringify tier query =>
      cases h
      have hreply : (service.perform (.call (.stringify tier query)) log).1 =
          .reply (service.stringify query tier) := rfl
      rw [hreply, stringify_eq]
      cases tier.check service.accepts query <;> rfl
    | parse tier query => cases h
    | equate tier left right => cases h
    | migrate query => cases h
    | settings => cases h

end Step

section Run

variable (requests : List Request) (log : List Diagnostic)

theorem serve_fst :
    (service.serve requests log).1 =
      requests.map fun request => (request, (service.perform request []).1) := by
  induction requests generalizing log with
  | nil => rfl
  | cons request rest ih =>
    rw [serve, List.map_cons, ← ih (service.perform request log).2,
      service.perform_fst request [] log]

theorem answer_of_mem_serve {request : Request} {answer : Answer}
    (h : (request, answer) ∈ (service.serve requests log).1) :
    (service.perform request []).1 = answer := by
  rw [serve_fst] at h
  obtain ⟨_, _, hpair⟩ := List.mem_map.mp h
  cases hpair
  rfl

theorem serve_snd :
    (service.serve requests log).2 = log ++ requests.flatMap service.dueFor := by
  induction requests generalizing log with
  | nil => rw [serve, List.flatMap_nil, List.append_nil]
  | cons request rest ih =>
    rw [serve, List.flatMap_cons, ← List.append_assoc, ← perform_snd, ← ih]

-- However requests to the tiers are mixed, the log has the reports that are due for them, in the
-- order of the requests, and no others. Parsing finds something just if validating succeeds, and
-- whatever else a query is given for is refused just if validating is, and with the same error.
theorem serve_log :
    (service.serve requests log).2 = log ++ requests.flatMap service.dueFor ∧
    (service.serve requests log).1.map Prod.fst = requests ∧
    (∀ tier query parsed validated,
      (Request.call (.parse tier query), parsed) ∈ (service.serve requests log).1 →
      (Request.call (.validate tier query), validated) ∈ (service.serve requests log).1 →
      ((∃ found, parsed = .reply (.parsed (some found))) ↔ validated = .reply .valid)) ∧
    ∀ first second answer other, (first, answer) ∈ (service.serve requests log).1 →
      (second, other) ∈ (service.serve requests log).1 →
      first.subject?.isSome → first.subject? = second.subject? →
      answer.refusal? = other.refusal? := by
  refine ⟨service.serve_snd requests log, ?_, ?_, ?_⟩
  · rw [serve_fst, List.map_map]
    exact List.map_id requests
  · intro tier query parsed validated hparse hvalidate
    have hparsed : parsed = .reply (.parsed (service.parse query tier).1) :=
      (service.answer_of_mem_serve requests log hparse).symm
    have hvalidated : validated = .reply (service.validate query tier) :=
      (service.answer_of_mem_serve requests log hvalidate).symm
    rw [hparsed, hvalidated]
    simpa using service.parse_isSome_iff tier query
  · intro first second answer other hfirst hsecond hsome hsame
    obtain ⟨⟨tier, query⟩, hsubject⟩ := Option.isSome_iff_exists.mp hsome
    rw [← service.answer_of_mem_serve requests log hfirst,
      ← service.answer_of_mem_serve requests log hsecond, service.refusal?_perform hsubject,
      service.refusal?_perform (hsame ▸ hsubject)]

end Run

theorem due_of_record_error {tier : Tier} {query : Json} {error : QueryError}
    (hrecord : Query.record query = .error error) (htruthy : query.isTruthy = true) :
    service.due tier query = [⟨tier.name, Query.shown query, error.message⟩] := by
  rw [due, validate_eq, Tier.check_of_record_error hrecord, htruthy]
  rfl

-- A list is reported by either tier, also where it is only compared with a query that is valid.
def mixed : List Request :=
  [.call (.validate .ql0 (Flat.encrypted "@a").toValue), .call (.parse .ql1 (.arr [])),
    .call (.equate .ql0 (Flat.encrypted "@a").toValue (.arr [])),
    .call (.parse .ql0 (Flat.encrypted "@a").toValue)]

theorem serve_log_mixed :
    (serve ⟨{}, fun _ => true⟩ mixed []).2 =
        [⟨"QL1", "[]", "query should be a string or an object, found array"⟩,
          ⟨"QL0", "[]", "query should be a string or an object, found array"⟩] ∧
      ∃ found, (Request.call (.parse .ql0 (Flat.encrypted "@a").toValue),
        Answer.reply (.parsed (some found))) ∈ (serve ⟨{}, fun _ => true⟩ mixed []).1 := by
  obtain ⟨hlog, _, hparse, _⟩ := serve_log ⟨{}, fun _ => true⟩ mixed []
  have hvalid : due ⟨{}, fun _ => true⟩ .ql0 (Flat.encrypted "@a").toValue = [] := rfl
  have hrecord : Query.record (.arr []) = .error (.notRecord .array false) := rfl
  have hlist : ∀ tier : Tier, due ⟨{}, fun _ => true⟩ tier (.arr []) =
      [⟨tier.name, "[]", "query should be a string or an object, found array"⟩] := by
    intro tier
    rw [due_of_record_error _ hrecord rfl]
    rfl
  refine ⟨?_, ?_⟩
  · rw [hlog]
    simp only [mixed, List.flatMap_cons, List.flatMap_nil, dueFor, hvalid, hlist]
    rfl
  · have hvalidated : (Request.call (.validate .ql0 (Flat.encrypted "@a").toValue),
        Answer.reply .valid) ∈ (serve ⟨{}, fun _ => true⟩ mixed []).1 := List.mem_cons_self
    have hlast : (Request.call (.parse .ql0 (Flat.encrypted "@a").toValue),
        (perform ⟨{}, fun _ => true⟩
          (.call (.parse .ql0 (Flat.encrypted "@a").toValue)) []).1) ∈
          (serve ⟨{}, fun _ => true⟩ mixed []).1 := by
      rw [serve_fst]
      exact List.mem_map.mpr ⟨_, by simp [mixed], rfl⟩
    obtain ⟨found, hfound⟩ := (hparse _ _ _ _ hlast hvalidated).mpr rfl
    exact ⟨found, hfound ▸ hlast⟩

end Service

end FeedFilter
