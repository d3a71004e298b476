import FeedFilter.Proofs.Flat.Text
import FeedFilter.Proofs.Tier.Basic

namespace FeedFilter

namespace Flat

-- A query that has been found is passed on as it is, or refused for its author.
def vet (accepts : String → Bool) (flat : Flat) : Except QueryError Flat :=
  if accepts flat.author then .ok flat else .error (.badFeed flat.author)

section Vet

variable {accepts others : String → Bool} {query : Json} {members : Members}
  {found : Except QueryError Flat} {flat : Flat} {error : QueryError}

theorem bind_vet_eq_ok_iff :
    found >>= vet accepts = .ok flat ↔ found = .ok flat ∧ accepts flat.author = true := by
  constructor
  · intro h
    obtain ⟨other, hfound, hvet⟩ := Except.bind_eq_ok h
    rw [vet] at hvet
    split at hvet
    · next hfeed =>
      cases hvet
      exact ⟨hfound, hfeed⟩
    · cases hvet
  · rintro ⟨rfl, hfeed⟩
    exact if_pos hfeed

-- All errors but those of authors are there before.
theorem bind_vet_eq_error_iff (h : ∀ feed, error ≠ .badFeed feed) :
    found >>= vet accepts = .error error ↔ found = .error error := by
  constructor
  · intro hvetted
    rcases Except.bind_eq_error hvetted with hfound | ⟨other, _, hvet⟩
    · exact hfound
    · rw [vet] at hvet
      split at hvet
      · cases hvet
      · cases hvet
        exact absurd rfl (h _)
  · rintro rfl
    rfl

theorem bind_vet_eq_error_congr (h : ∀ feed, error ≠ .badFeed feed) :
    found >>= vet others = .error error ↔ found >>= vet accepts = .error error :=
  (bind_vet_eq_error_iff h).trans (bind_vet_eq_error_iff h).symm

-- The author comes last, so that the check of authors can be put off to the end.
theorem verdict_eq_bind_vet : verdict accepts flat = verdict (fun _ => true) flat >>= vet accepts := by
  rw [verdict, verdict]
  by_cases hparts : (flat.isPrivate && flat.type.isSome) = true
  · rw [if_pos hparts, if_pos hparts]
    rfl
  · rw [if_neg hparts, if_neg hparts, if_pos rfl]
    rfl

theorem check_eq_bind_vet (accepts : String → Bool) (query : Json) :
    check accepts query = check (fun _ => true) query >>= vet accepts := by
  rw [check, check]
  simp only [ofRecord_eq_verdict, bind_assoc, ← verdict_eq_bind_vet]

theorem migrate_eq_bind_vet (accepts : String → Bool) (query : Json) :
    migrate accepts query = migrate (fun _ => true) query >>= vet accepts := by
  rw [migrate, migrate]
  simp only [bind_assoc]
  refine bind_congr fun members => bind_congr fun _ => bind_congr fun author =>
    bind_congr fun type => ?_
  rw [checkFeed, checkFeed, if_pos rfl]
  by_cases hfeed : accepts author = true
  · rw [if_pos hfeed]
    exact (if_pos hfeed).symm
  · rw [if_neg hfeed]
    exact (if_neg hfeed).symm

-- A check that lets more authors pass changes nothing but what was refused for its author.
theorem bind_vet_eq_of_le (hle : ∀ feed, accepts feed = true → others feed = true)
    (hfound : ∀ feed, found >>= vet accepts ≠ .error (.badFeed feed)) :
    found >>= vet others = found >>= vet accepts := by
  cases hvetted : found >>= vet accepts with
  | ok flat =>
    obtain ⟨hok, hfeed⟩ := bind_vet_eq_ok_iff.mp hvetted
    exact bind_vet_eq_ok_iff.mpr ⟨hok, hle _ hfeed⟩
  | error error =>
    have hne : ∀ feed, error ≠ .badFeed feed := by
      rintro feed rfl
      exact hfound feed hvetted
    exact (bind_vet_eq_error_congr hne).mpr hvetted

theorem check_eq_of_le (hle : ∀ feed, accepts feed = true → others feed = true)
    (hfound : ∀ feed, check accepts query ≠ .error (.badFeed feed)) :
    check others query = check accepts query := by
  rw [check_eq_bind_vet] at hfound
  rw [check_eq_bind_vet others, check_eq_bind_vet accepts]
  exact bind_vet_eq_of_le hle hfound

theorem migrate_eq_of_le (hle : ∀ feed, accepts feed = true → others feed = true)
    (hfound : ∀ feed, migrate accepts query ≠ .error (.badFeed feed)) :
    migrate others query = migrate accepts query := by
  rw [migrate_eq_bind_vet] at hfound
  rw [migrate_eq_bind_vet others, migrate_eq_bind_vet accepts]
  exact bind_vet_eq_of_le hle hfound

end Vet

end Flat

-- The tier that a call is for.
def Call.tier? : Call → Option Tier
  | .validate tier _ => some tier
  | .parse tier _ => some tier
  | .compile tier _ => some tier
  | .stringify tier _ => some tier
  | .equate tier _ _ => some tier
  | .migrate _ => some .ql0
  | .settings => none

namespace Service

variable {service other : Service}

-- A formula is never asked for its authors.
theorem answer_of_ql1 (hdedicated : service.settings.dedicated = other.settings.dedicated)
    {call : Call} (htier : call.tier? = some .ql1) : service.answer call = other.answer call := by
  cases call with
  | validate tier query =>
    cases htier
    rfl
  | parse tier query =>
    cases htier
    rfl
  | compile tier query =>
    cases htier
    simp only [answer, compile, hdedicated]
  | stringify tier query =>
    cases htier
    rfl
  | equate tier left right =>
    cases htier
    rfl
  | migrate query => cases htier
  | settings => cases htier

-- What is asked about one flat query, apart from comparing it.
def flatCalls (query : Json) : List Call :=
  [.validate .ql0 query, .parse .ql0 query, .compile .ql0 query, .stringify .ql0 query]

theorem answer_of_check {query : Json}
    (hdedicated : service.settings.dedicated = other.settings.dedicated)
    (hcheck : Flat.check service.accepts query = Flat.check other.accepts query) :
    ∀ call ∈ flatCalls query, service.answer call = other.answer call := by
  simp only [flatCalls, List.forall_mem_cons]
  refine ⟨?_, ?_, ?_, ?_, nofun⟩
  · simp only [answer, validate, hcheck]
  · simp only [answer, parse, Flat.parse, Query.attempt, hcheck]
  · simp only [answer, compile, hcheck, hdedicated]
  · simp only [answer, stringify, Flat.stringify, hcheck]

end Service

namespace Tier

-- The check of authors can only refuse what would be accepted otherwise, and only for the author;
-- all other errors come before it, and formulas do not know of it. So a service that asks for the
-- sigil alone answers as one that asks for full references wherever this one does not complain of
-- an author, and the errors of the two are the same apart from such complaints.
theorem feedCheck_only_vetoes :
    (∀ accepts query,
      Flat.check accepts query = Flat.check (fun _ => true) query >>= Flat.vet accepts ∧
      Flat.migrate accepts query = Flat.migrate (fun _ => true) query >>= Flat.vet accepts) ∧
    (∀ service other : Service, service.settings.dedicated = other.settings.dedicated →
      ∀ call : Call, call.tier? = some .ql1 → service.answer call = other.answer call) ∧
    (∀ {m : Type → Type} [Monad m] {ν : Type} (engine : Engine m ν) accepts others dedicated query,
      Tier.ql1.compileWith engine accepts dedicated query =
        Tier.ql1.compileWith engine others dedicated query) ∧
    (∀ feed, FeedCheck.ssb.accepts feed = true → FeedCheck.sigil.accepts feed = true) ∧
    ∀ dedicated query,
      ((∀ feed, Flat.check FeedCheck.ssb.accepts query ≠ .error (.badFeed feed)) →
        Flat.check FeedCheck.sigil.accepts query = Flat.check FeedCheck.ssb.accepts query ∧
        ∀ call ∈ Service.flatCalls query,
          (Service.ofSettings ⟨dedicated, .sigil⟩).answer call =
            (Service.ofSettings ⟨dedicated, .ssb⟩).answer call) ∧
      ((∀ feed, Flat.migrate FeedCheck.ssb.accepts query ≠ .error (.badFeed feed)) →
        Flat.migrate FeedCheck.sigil.accepts query = Flat.migrate FeedCheck.ssb.accepts query ∧
        (Service.ofSettings ⟨dedicated, .sigil⟩).answer (.migrate query) =
          (Service.ofSettings ⟨dedicated, .ssb⟩).answer (.migrate query)) ∧
      ∀ error, (∀ feed, error ≠ .badFeed feed) →
        (Flat.check FeedCheck.sigil.accepts query = .error error ↔
          Flat.check FeedCheck.ssb.accepts query = .error error) ∧
        (Flat.migrate FeedCheck.sigil.accepts query = .error error ↔
          Flat.migrate FeedCheck.ssb.accepts query = .error error) := by
  refine ⟨fun accepts query =>
      ⟨Flat.check_eq_bind_vet accepts query, Flat.migrate_eq_bind_vet accepts query⟩,
    fun service other hdedicated call => Service.answer_of_ql1 hdedicated, fun _ _ _ _ _ => rfl,
    FeedRef.hasSigil_of_isReference, ?_⟩
  intro dedicated query
  refine ⟨?_, ?_, ?_⟩
  · intro hfound
    have hcheck := Flat.check_eq_of_le FeedRef.hasSigil_of_isReference hfound
    exact ⟨hcheck, Service.answer_of_check rfl hcheck⟩
  · intro hfound
    have hmigrate := Flat.migrate_eq_of_le FeedRef.hasSigil_of_isReference hfound
    exact ⟨hmigrate, congrArg (fun found => (Service.reply _ found, [])) hmigrate⟩
  · intro error hne
    rw [Flat.check_eq_bind_vet FeedCheck.sigil.accepts, Flat.check_eq_bind_vet FeedCheck.ssb.accepts,
      Flat.migrate_eq_bind_vet FeedCheck.sigil.accepts,
      Flat.migrate_eq_bind_vet FeedCheck.ssb.accepts]
    exact ⟨Flat.bind_vet_eq_error_congr hne, Flat.bind_vet_eq_error_congr hne⟩

def reference : String := "@FCX/tsDLpubCPKKfIrw4gc+SQkHcaD17s7GI6i/ziWY=.ed25519"

-- The private messages of an author who is given by a full reference, and a former record of the
-- author.
def referred : Flat := Flat.encrypted reference

def formerlyReferred : Json := .obj [("author", .str reference), ("type", .str "post")]

-- The two services answer alike about them, and about formulas whatever authors pass. A query that
-- is no record is refused alike.
theorem feedCheck_only_vetoes_referred :
    (∀ feed, Flat.check FeedCheck.ssb.accepts referred.toValue ≠ .error (.badFeed feed)) ∧
      (Service.ofSettings ⟨true, .sigil⟩).answer (.compile .ql0 referred.toValue) =
        (Service.ofSettings ⟨true, .ssb⟩).answer (.compile .ql0 referred.toValue) ∧
      (∀ feed, Flat.migrate FeedCheck.ssb.accepts formerlyReferred ≠ .error (.badFeed feed)) ∧
      (Service.ofSettings ⟨true, .sigil⟩).answer (.migrate formerlyReferred) =
        (Service.ofSettings ⟨true, .ssb⟩).answer (.migrate formerlyReferred) ∧
      Flat.check FeedCheck.sigil.accepts (.arr []) = .error (.notRecord .array false) ∧
      FeedCheck.sigil.accepts reference = true ∧
      (Service.ofSettings ⟨true, .sigil⟩).answer (.parse .ql1 (.arr [])) =
        (Service.mk ⟨true, .ssb⟩ fun _ => false).answer (.parse .ql1 (.arr [])) := by
  have hreference : FeedCheck.ssb.accepts reference = true := by decide +kernel
  have hcheck : Flat.check FeedCheck.ssb.accepts referred.toValue = .ok referred := by
    rw [Flat.check_toValue, Flat.verdict_eq_ok_iff]
    exact ⟨fun _ => rfl, hreference, rfl⟩
  have hmigrate : Flat.migrate FeedCheck.ssb.accepts formerlyReferred =
      .ok (Flat.published reference "post") := by
    rw [Flat.migrate_eq_bind_vet, Flat.bind_vet_eq_ok_iff]
    exact ⟨rfl, hreference⟩
  have hfound : ∀ feed, Flat.check FeedCheck.ssb.accepts referred.toValue ≠
      .error (.badFeed feed) := by
    intro feed hbad
    cases hcheck.symm.trans hbad
  have hformer : ∀ feed, Flat.migrate FeedCheck.ssb.accepts formerlyReferred ≠
      .error (.badFeed feed) := by
    intro feed hbad
    cases hmigrate.symm.trans hbad
  obtain ⟨_, hformula, _, hsigil, hconfigured⟩ := feedCheck_only_vetoes
  refine ⟨hfound, ?_, hformer, ?_, ?_, hsigil _ hreference, hformula _ _ rfl _ rfl⟩
  · exact ((hconfigured true _).1 hfound).2 _ (by simp [Service.flatCalls])
  · exact ((hconfigured true _).2.1 hformer).2
  · exact ((hconfigured true (.arr [])).2.2 (.notRecord .array false) nofun).1.mpr rfl

end Tier

end FeedFilter
