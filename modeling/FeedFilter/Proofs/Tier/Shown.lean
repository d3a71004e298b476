import FeedFilter.Proofs.Json.RoundTrip
import FeedFilter.Proofs.Tier.Interchangeable

namespace FeedFilter.Query

variable {members : Members}

theorem shown_ne_empty (members : Members) : shown (.obj members) ≠ "" := by
  intro h
  have hchars : Layout.compact.value 0 (.obj members) = [] := String.ofList_inj.mp h
  cases members with
  | nil => cases hchars
  | cons member rest => cases hchars

-- The text of an object is read as this object again, if the object is as readers hold it, has no
-- floats, and is not nested too deep.
theorem record_shown (hcanonical : (Json.obj members).canonical = .obj members)
    (hfloat : (Json.obj members).isFloatFree = true)
    (hnest : (Json.obj members).nest ≤ Json.nestingLimit) :
    record (.str (shown (.obj members))) = .ok members := by
  have hread := (Json.read_compact hfloat).1 hnest
  rw [hcanonical] at hread
  exact record_text hread

theorem record_shown_tooDeep (hfloat : (Json.obj members).isFloatFree = true)
    (hnest : Json.nestingLimit < (Json.obj members).nest) :
    ∃ position, record (.str (shown (.obj members))) = .error (.notJson ⟨.tooDeep, position⟩) := by
  obtain ⟨position, hread⟩ := (Json.read_compact hfloat).2 hnest
  exact ⟨position, record_complaint hread (shown_ne_empty members)⟩

end FeedFilter.Query

namespace FeedFilter

theorem Service.parse_congr_shown {tier : Tier} {query other : Json} (service : Service)
    (hrecord : Query.record query = Query.record other)
    (hshown : Query.shown query = Query.shown other) :
    service.parse query tier = service.parse other tier := by
  rw [parse_eq, parse_eq]
  exact Query.attempt_congr_shown (Tier.check_of_record hrecord _) (Query.isTruthy_congr hrecord)
    hshown

-- A report of an object quotes its text.
theorem Service.query_of_mem_parse {tier : Tier} {query : Json} {service : Service}
    {diagnostic : Diagnostic} (h : diagnostic ∈ (service.parse query tier).2) :
    diagnostic.query = Query.shown query := by
  rw [parse_eq, Query.attempt] at h
  repeat' split at h
  · cases h
  · rw [List.mem_singleton.mp h]
  · cases h

namespace Tier

-- An object and its text are the same query, valid or not, so that a report of an object can be
-- replayed from what it quotes. Only the limit of the reader for containers inside each other
-- tells the two apart: beyond it the text alone is refused.
theorem interchangeable_shown {members : Members}
    (hcanonical : (Json.obj members).canonical = .obj members)
    (hfloat : (Json.obj members).isFloatFree = true) :
    ((Json.obj members).nest ≤ 127 →
      (∀ tier : Tier, tier.Interchangeable (.obj members) (.str (Query.shown (.obj members)))) ∧
      (∀ accepts, Flat.migrate accepts (.str (Query.shown (.obj members))) =
        Flat.migrate accepts (.obj members)) ∧
      ∀ (tier : Tier) (service : Service),
        service.parse (.str (Query.shown (.obj members))) tier =
            service.parse (.obj members) tier ∧
          ∀ diagnostic ∈ (service.parse (.obj members) tier).2,
            service.parse (.str diagnostic.query) tier = service.parse (.obj members) tier) ∧
    (127 < (Json.obj members).nest → ∃ position,
      (∀ tier : Tier,
        tier.Refuses (.str (Query.shown (.obj members))) (.notJson ⟨.tooDeep, position⟩)) ∧
      ∀ accepts, Flat.migrate accepts (.str (Query.shown (.obj members))) =
        .error (.notJson ⟨.tooDeep, position⟩)) := by
  constructor
  · intro hnest
    have hrecord : Query.record (.obj members) =
        Query.record (.str (Query.shown (.obj members))) :=
      (Query.record_obj members).trans (Query.record_shown hcanonical hfloat hnest).symm
    have hparse : ∀ (tier : Tier) (service : Service),
        service.parse (.str (Query.shown (.obj members))) tier =
          service.parse (.obj members) tier :=
      fun tier service => service.parse_congr_shown hrecord.symm rfl
    refine ⟨fun tier => interchangeable_of_record hrecord,
      fun accepts => Flat.migrate_of_record hrecord.symm, ?_⟩
    intro tier service
    refine ⟨hparse tier service, ?_⟩
    intro diagnostic hdiagnostic
    rw [Service.query_of_mem_parse hdiagnostic]
    exact hparse tier service
  · intro hnest
    obtain ⟨position, hrecord⟩ := Query.record_shown_tooDeep hfloat hnest
    have htruthy : (Json.str (Query.shown (.obj members))).isTruthy = true := by
      simp [Json.isTruthy, Query.shown_ne_empty]
    refine ⟨position, fun tier => refuses_of_check (check_of_record_error hrecord) htruthy, ?_⟩
    intro accepts
    rw [Flat.migrate, hrecord]
    rfl

-- A combinator without a list is reported, and its text is reported in the same words.
theorem parse_shown_argsNotList :
    (Json.obj [("args", .bool true), ("op", .str "and")]).canonical =
        .obj [("args", .bool true), ("op", .str "and")] ∧
      (Json.obj [("args", .bool true), ("op", .str "and")]).isFloatFree = true ∧
      (Service.ofSettings {}).parse
          (.str (Query.shown (.obj [("args", .bool true), ("op", .str "and")]))) .ql1 =
        (Service.ofSettings {}).parse (.obj [("args", .bool true), ("op", .str "and")]) .ql1 :=
  ⟨rfl, rfl, (((interchangeable_shown rfl rfl).1 (by decide)).2.2 .ql1 _).1⟩

end Tier

end FeedFilter
