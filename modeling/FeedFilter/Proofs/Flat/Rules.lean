import FeedFilter.Proofs.Flat.Record
import FeedFilter.Proofs.Json.Form
import FeedFilter.Service

namespace FeedFilter

-- Of all the rules in a list that are broken only the first is reported.
section Reports

variable {ρ ε α β : Type} {breaks : ρ → ε → Prop} {rule : ρ} {rules others : List ρ} {error : ε}

def Reports (breaks : ρ → ε → Prop) (rules : List ρ) (error : ε) : Prop :=
  ∃ before rule after, rules = before ++ rule :: after ∧
    (∀ earlier ∈ before, ∀ other, ¬breaks earlier other) ∧ breaks rule error

theorem not_reports_nil : ¬Reports breaks [] error := by
  rintro ⟨before, rule, after, h, _⟩
  cases before <;> cases h

theorem reports_cons :
    Reports breaks (rule :: rules) error ↔
      breaks rule error ∨ (∀ other, ¬breaks rule other) ∧ Reports breaks rules error := by
  constructor
  · rintro ⟨before, broken, after, h, hbefore, hbroken⟩
    cases before with
    | nil =>
      cases h
      exact .inl hbroken
    | cons first before =>
      cases h
      obtain ⟨hfirst, hbefore⟩ := List.forall_mem_cons.mp hbefore
      exact .inr ⟨hfirst, before, broken, after, rfl, hbefore, hbroken⟩
  · rintro (hrule | ⟨hrule, before, broken, after, rfl, hbefore, hbroken⟩)
    · exact ⟨[], rule, rules, rfl, nofun, hrule⟩
    · exact ⟨rule :: before, broken, after, rfl, List.forall_mem_cons.mpr ⟨hrule, hbefore⟩, hbroken⟩

theorem reports_append :
    Reports breaks (rules ++ others) error ↔
      Reports breaks rules error ∨
        (∀ rule ∈ rules, ∀ other, ¬breaks rule other) ∧ Reports breaks others error := by
  induction rules with
  | nil => simp [not_reports_nil]
  | cons rule rules ih =>
    rw [List.cons_append, reports_cons, reports_cons, ih, List.forall_mem_cons]
    tauto

-- If any rule is broken there is a first one.
theorem forall_not_reports_iff :
    (∀ error, ¬Reports breaks rules error) ↔ ∀ rule ∈ rules, ∀ error, ¬breaks rule error := by
  induction rules with
  | nil => simp [not_reports_nil]
  | cons rule rules ih =>
    rw [List.forall_mem_cons, ← ih]
    constructor
    · intro h
      have hrule : ∀ error, ¬breaks rule error :=
        fun error hbroken => h error (reports_cons.mpr (.inl hbroken))
      exact ⟨hrule, fun error hrest => h error (reports_cons.mpr (.inr ⟨hrule, hrest⟩))⟩
    · rintro ⟨hrule, hrest⟩ error h
      rcases reports_cons.mp h with hbroken | ⟨_, hreports⟩
      · exact hrule error hbroken
      · exact hrest error hreports

-- A step fails with what is reported of these rules, and with nothing else.
def Decides (breaks : ρ → ε → Prop) (rules : List ρ) (found : Except ε α) : Prop :=
  ∀ error, found = .error error ↔ Reports breaks rules error

namespace Decides

theorem ok_iff {found : Except ε α} (h : Decides breaks rules found) :
    (∃ value, found = .ok value) ↔ ∀ rule ∈ rules, ∀ error, ¬breaks rule error := by
  rw [← forall_not_reports_iff]
  simp only [← h _]
  cases found with
  | error error => simp
  | ok value => simp

-- The rules of a later step count once those of the step before it are kept.
theorem bind {found : Except ε α} {next : α → Except ε β} (h : Decides breaks rules found)
    (hnext : ∀ value, found = .ok value → Decides breaks others (next value)) :
    Decides breaks (rules ++ others) (found >>= next) := by
  intro error
  rw [reports_append, ← h error, ← h.ok_iff]
  cases found with
  | error failure => simp [Bind.bind, Except.bind]
  | ok value => simpa [Bind.bind, Except.bind] using hnext value rfl error

end Decides

end Reports

-- The two ways in which a query gives a record.
def Query.Gives (query : Json) (members : Members) : Prop :=
  query = .obj members ∨ ∃ text, query = .str text ∧ Json.read text = .ok (.obj members)

theorem Query.gives_iff {query : Json} {members : Members} :
    Gives query members ↔ record query = .ok members :=
  record_eq_ok_iff.symm

-- How the values that a field may hold are called in an error.
def FieldForm.wanted : FieldForm → String
  | .text => "a string"
  | .nullable => "a string or null"
  | .flag => "a boolean"

namespace Flat

-- What is asked of a flat query, one thing at a time.
inductive Rule
  | truthy
  | record
  | room
  | present (name : String)
  | formed (name : String) (form : FieldForm)
  | consistent
  | feed
deriving DecidableEq

-- The rules in their order.
def Rule.all : List Rule :=
  [.truthy, .record, .room, .present "author", .formed "author" .text, .present "type",
    .formed "type" .nullable, .present "private", .formed "private" .flag, .consistent, .feed]

-- A rule is broken whether or not others are. There is nothing to say of the fields of a query
-- that gives no record, nor of the form of a field that is absent.
inductive Rule.Broken (accepts : String → Bool) (query : Json) : Rule → QueryError → Prop
  | falsy : query.isTruthy = false → Broken accepts query .truthy (.falsy query.compact)
  | notRecord : (∀ text, query ≠ .str text) → (∀ members, query ≠ .obj members) →
      Broken accepts query .record (.notRecord query.kind false)
  | notJson {text complaint} : query = .str text → Json.read text = .error complaint →
      Broken accepts query .record (.notJson complaint)
  | notObject {text value} : query = .str text → Json.read text = .ok value →
      (∀ members, value ≠ .obj members) → Broken accepts query .record (.notRecord value.kind true)
  | crowded {members} : Query.Gives query members → 3 < (members.map Prod.fst).dedup.length →
      Broken accepts query .room (.tooManyFields 3 (members.map Prod.fst).dedup.length)
  | absent {members name} : Query.Gives query members → members.lookup name = none →
      Broken accepts query (.present name) (.missingField name)
  | misformed {members name form value} : Query.Gives query members →
      members.lookup name = some value → ¬form.Holds value →
      Broken accepts query (.formed name form) (.wrongField name form.wanted)
  | inconsistent {members type} : Query.Gives query members →
      members.lookup "private" = some (.bool true) → members.lookup "type" = some (.str type) →
      Broken accepts query .consistent .privateWithType
  | refused {members author} : Query.Gives query members →
      members.lookup "author" = some (.str author) → accepts author = false →
      Broken accepts query .feed (.badFeed author)

variable {accepts : String → Bool} {query : Json} {members : Members} {error : QueryError}

section Record

theorem broken_truthy_iff :
    Rule.Broken accepts query .truthy error ↔
      query.isTruthy = false ∧ error = .falsy query.compact := by
  constructor
  · rintro ⟨⟩
    exact ⟨‹_›, rfl⟩
  · rintro ⟨h, rfl⟩
    exact .falsy h

theorem broken_record_iff (htruthy : query.isTruthy = true) :
    Rule.Broken accepts query .record error ↔ Query.record query = .error error := by
  unfold Query.record
  rw [if_pos htruthy]
  constructor
  · intro h
    cases h with
    | notRecord htext hobject =>
      split
      · exact absurd rfl (hobject _)
      · exact absurd rfl (htext _)
      · rfl
    | notJson htext hread =>
      subst htext
      simp only [hread]
    | notObject htext hread hobject =>
      subst htext
      simp only [hread]
  · intro h
    split at h
    · cases h
    · split at h
      · cases h
      · next value hobject hread =>
        cases h
        exact .notObject rfl hread hobject
      · next hread =>
        cases h
        exact .notJson rfl hread
    · next hobject htext =>
      cases h
      exact .notRecord htext hobject

theorem decides_record :
    Decides (Rule.Broken accepts query) [.truthy, .record] (Query.record query) := by
  intro error
  rw [reports_cons, reports_cons]
  simp only [not_reports_nil, and_false, or_false, broken_truthy_iff]
  by_cases htruthy : query.isTruthy = true
  · simp [broken_record_iff htruthy, htruthy]
  · unfold Query.record
    simp [htruthy, eq_comm]

end Record

-- The rules of a record can be told from the record.
section Fields

variable (hrecord : Query.record query = .ok members)

include hrecord

theorem broken_room_iff :
    Rule.Broken accepts query .room error ↔ 3 < (members.map Prod.fst).dedup.length ∧
      error = .tooManyFields 3 (members.map Prod.fst).dedup.length := by
  constructor
  · intro h
    cases h with
    | crowded hgives hcount =>
      cases hrecord.symm.trans (Query.gives_iff.mp hgives)
      exact ⟨hcount, rfl⟩
  · rintro ⟨hcount, rfl⟩
    exact .crowded (Query.gives_iff.mpr hrecord) hcount

theorem broken_present_iff {name : String} :
    Rule.Broken accepts query (.present name) error ↔
      members.lookup name = none ∧ error = .missingField name := by
  constructor
  · intro h
    cases h with
    | absent hgives hnone =>
      cases hrecord.symm.trans (Query.gives_iff.mp hgives)
      exact ⟨hnone, rfl⟩
  · rintro ⟨hnone, rfl⟩
    exact .absent (Query.gives_iff.mpr hrecord) hnone

theorem broken_formed_iff {name : String} {form : FieldForm} :
    Rule.Broken accepts query (.formed name form) error ↔
      ∃ value, members.lookup name = some value ∧ ¬form.Holds value ∧
        error = .wrongField name form.wanted := by
  constructor
  · intro h
    cases h with
    | misformed hgives hvalue hform =>
      cases hrecord.symm.trans (Query.gives_iff.mp hgives)
      exact ⟨_, hvalue, hform, rfl⟩
  · rintro ⟨value, hvalue, hform, rfl⟩
    exact .misformed (Query.gives_iff.mpr hrecord) hvalue hform

theorem broken_consistent_iff {flat : Flat}
    (htype : members.lookup "type" = some (Operator.ofNullable flat.type))
    (hprivate : members.lookup "private" = some (.bool flat.isPrivate)) :
    Rule.Broken accepts query .consistent error ↔
      ¬flat.IsConsistent ∧ error = .privateWithType := by
  obtain ⟨author, type, isPrivate⟩ := flat
  constructor
  · intro h
    cases h with
    | inconsistent hgives hflag hname =>
      cases hrecord.symm.trans (Query.gives_iff.mp hgives)
      cases hprivate.symm.trans hflag
      refine ⟨fun hparts => ?_, rfl⟩
      cases hparts rfl
      cases htype.symm.trans hname
  · rintro ⟨hparts, rfl⟩
    simp only [IsConsistent, Classical.not_imp] at hparts
    obtain ⟨rfl, hne⟩ := hparts
    obtain ⟨name, rfl⟩ := Option.ne_none_iff_exists'.mp hne
    exact .inconsistent (Query.gives_iff.mpr hrecord) hprivate htype

theorem broken_feed_iff {author : String}
    (hauthor : members.lookup "author" = some (.str author)) :
    Rule.Broken accepts query .feed error ↔ accepts author = false ∧ error = .badFeed author := by
  constructor
  · intro h
    cases h with
    | refused hgives hother hfeed =>
      cases hrecord.symm.trans (Query.gives_iff.mp hgives)
      cases hauthor.symm.trans hother
      exact ⟨hfeed, rfl⟩
  · rintro ⟨hfeed, rfl⟩
    exact .refused (Query.gives_iff.mpr hrecord) hauthor hfeed

-- Without repeated keys there are as many keys as members.
theorem decides_limitFields (hkeys : (members.map Prod.fst).Nodup) :
    Decides (Rule.Broken accepts query) [.room] (limitFields fieldNames members) := by
  intro error
  have hcount : (members.map Prod.fst).dedup.length = members.length := by
    rw [hkeys.dedup, List.length_map]
  rw [reports_cons, broken_room_iff hrecord, hcount]
  simp only [not_reports_nil, and_false, or_false]
  by_cases hbound : members.length ≤ fieldNames.length
  · rw [limitFields, if_pos hbound]
    have hle : ¬3 < members.length := Nat.not_lt.mpr hbound
    simp [hle]
  · rw [limitFields, if_neg hbound]
    have hlt : 3 < members.length := Nat.lt_of_not_le hbound
    simp [hlt, eq_comm, fieldNames]

-- A field is read by its name, and its form counts only if it is there.
theorem decides_field {α : Type} {found : Except QueryError α} {name : String} {form : FieldForm}
    (h : ∀ error, found = .error error ↔
      (members.lookup name = none ∧ error = .missingField name) ∨
      ∃ value, members.lookup name = some value ∧ ¬form.Holds value ∧
        error = .wrongField name form.wanted) :
    Decides (Rule.Broken accepts query) [.present name, .formed name form] found := by
  intro error
  rw [h, reports_cons, reports_cons, broken_present_iff hrecord, broken_formed_iff hrecord]
  simp only [not_reports_nil, and_false, or_false, broken_present_iff hrecord]
  cases members.lookup name with
  | none => simp
  | some value => simp

theorem decides_textField (name : String) :
    Decides (Rule.Broken accepts query) [.present name, .formed name .text]
      (Query.textField members name) := by
  refine decides_field hrecord fun error => ?_
  rw [Query.textField_eq_error_iff]
  simp [FieldForm.Holds, FieldForm.wanted]

theorem decides_typeField :
    Decides (Rule.Broken accepts query) [.present "type", .formed "type" .nullable]
      (typeField members) := by
  refine decides_field hrecord fun error => ?_
  unfold typeField
  split
  · next h => simp [h, eq_comm]
  · next h => simp [h, FieldForm.Holds]
  · next h => simp [h, FieldForm.Holds]
  · next value hnull htext h =>
    have hform : ¬FieldForm.nullable.Holds value := by
      rintro (rfl | ⟨text, rfl⟩)
      · exact hnull rfl
      · exact htext text rfl
    simp [h, hform, FieldForm.wanted, eq_comm]

theorem decides_privateField :
    Decides (Rule.Broken accepts query) [.present "private", .formed "private" .flag]
      (privateField members) := by
  refine decides_field hrecord fun error => ?_
  unfold privateField
  split
  · next h => simp [h, eq_comm]
  · next h => simp [h, FieldForm.Holds]
  · next value hflag h =>
    have hform : ¬FieldForm.flag.Holds value := by
      rintro ⟨flag, rfl⟩
      exact hflag flag rfl
    simp [h, hform, FieldForm.wanted, eq_comm]

theorem decides_verdict {flat : Flat} (hauthor : members.lookup "author" = some (.str flat.author))
    (htype : members.lookup "type" = some (Operator.ofNullable flat.type))
    (hprivate : members.lookup "private" = some (.bool flat.isPrivate)) :
    Decides (Rule.Broken accepts query) [.consistent, .feed] (verdict accepts flat) := by
  intro error
  rw [verdict_eq_error_iff, reports_cons, reports_cons]
  simp only [not_reports_nil, and_false, or_false, broken_feed_iff hrecord hauthor,
    broken_consistent_iff hrecord htype hprivate]
  by_cases hparts : flat.IsConsistent
  · simp [hparts]
  · simp [hparts]

end Fields

-- Each step of the check goes with rules of its own, so that the rules in their order go with the
-- check.
theorem decides_check (hkeys : ∀ members, query = .obj members → (members.map Prod.fst).Nodup) :
    Decides (Rule.Broken accepts query) Rule.all (check accepts query) := by
  refine Decides.bind decides_record fun members hrecord => ?_
  have hnodup : (members.map Prod.fst).Nodup := by
    rcases Query.record_eq_ok_iff.mp hrecord with hquery | ⟨text, _, hread⟩
    · exact hkeys members hquery
    · exact Members.nodup_of_ascending (Json.ascending_of_read hread)
  rw [ofRecord_eq_verdict]
  refine Decides.bind (decides_limitFields hrecord hnodup) fun _ _ => ?_
  refine Decides.bind (decides_textField hrecord "author") fun author hauthor => ?_
  refine Decides.bind (decides_typeField hrecord) fun type htype => ?_
  refine Decides.bind (decides_privateField hrecord) fun isPrivate hprivate => ?_
  exact decides_verdict hrecord (Query.textField_eq_ok_iff.mp hauthor)
    (typeField_eq_ok_iff.mp htype) (privateField_eq_ok_iff.mp hprivate)

-- Only the number of members and the three that are looked up count.
theorem check_obj_congr {others : Members} (hlength : members.length = others.length)
    (hfields : ∀ name ∈ fieldNames, members.lookup name = others.lookup name) :
    check accepts (.obj members) = check accepts (.obj others) := by
  simp only [fieldNames, List.forall_mem_cons] at hfields
  obtain ⟨hauthor, htype, hprivate, _⟩ := hfields
  rw [check_of_record (Query.record_obj members), check_of_record (Query.record_obj others),
    ofRecord_eq_verdict, ofRecord_eq_verdict]
  simp only [limitFields, Query.textField, typeField, privateField, hlength, hauthor, htype,
    hprivate]

-- A key that is repeated in a text is one field.
theorem gives_of_decode {text : String} {written : Members}
    (h : Json.decode (Outline.written Json.nestingLimit) text = .ok (.obj written)) :
    ∃ members, Query.Gives (.str text) members ∧
      (members.map Prod.fst).dedup.length = (written.map Prod.fst).dedup.length := by
  have hread := Json.read_of_decode h
  have hkeys := Members.nodup_of_ascending (Json.ascending_of_read hread)
  refine ⟨_, .inr ⟨text, rfl, hread⟩, ?_⟩
  rw [hkeys.dedup, List.length_map, Json.length_ordered_canonicalMembers]

-- Whatever else is wrong with a query, it is refused for the first of the rules in their order that
-- it breaks, and it is valid if it breaks none. The number of fields is that of the different keys,
-- also of those that are written, and the names of fields that are not looked up do not count.
theorem validate_eq_refused_iff_reports (service : Service) (query : Json)
    (hkeys : ∀ members, query = .obj members → (members.map Prod.fst).Nodup) :
    (∀ error, service.validate query .ql0 = .refused error ↔
      Reports (Rule.Broken service.accepts query) Rule.all error) ∧
    (service.validate query .ql0 = .valid ↔
      ∀ rule ∈ Rule.all, ∀ error, ¬rule.Broken service.accepts query error) ∧
    (∀ text written, query = .str text →
      Json.decode (Outline.written Json.nestingLimit) text = .ok (.obj written) →
      ∃ members, Query.Gives query members ∧
        (members.map Prod.fst).dedup.length = (written.map Prod.fst).dedup.length) ∧
    ∀ members others : Members, members.length = others.length →
      (∀ name ∈ fieldNames, members.lookup name = others.lookup name) →
      check service.accepts (.obj members) = check service.accepts (.obj others) ∧
        service.validate (.obj members) .ql0 = service.validate (.obj others) .ql0 := by
  have hdecides : Decides (Rule.Broken service.accepts query) Rule.all
      (check service.accepts query) := decides_check hkeys
  refine ⟨?_, ?_, ?_, ?_⟩
  · intro error
    rw [← hdecides error, Service.validate]
    cases check service.accepts query with
    | error failure => simp [Service.reply]
    | ok flat => simp [Service.reply]
  · rw [← hdecides.ok_iff, Service.validate]
    cases check service.accepts query with
    | error failure => simp [Service.reply]
    | ok flat => simp [Service.reply]
  · rintro text written rfl h
    exact gives_of_decode h
  · intro members others hlength hfields
    have hcheck : check service.accepts (.obj members) = check service.accepts (.obj others) :=
      check_obj_congr hlength hfields
    exact ⟨hcheck, by rw [Service.validate, Service.validate, hcheck]⟩

-- The empty string is a type, and that a private query has one is found before its author.
theorem validate_private_empty_type :
    (∀ members, Json.obj [("author", .str "a"), ("private", .bool true), ("type", .str "")] =
        .obj members → (members.map Prod.fst).Nodup) ∧
      Rule.Broken (fun _ => false)
        (.obj [("author", .str "a"), ("private", .bool true), ("type", .str "")]) .feed
        (.badFeed "a") ∧
      Reports (Rule.Broken (fun _ => false)
        (.obj [("author", .str "a"), ("private", .bool true), ("type", .str "")])) Rule.all
        .privateWithType := by
  have hkeys : ∀ members,
      Json.obj [("author", .str "a"), ("private", .bool true), ("type", .str "")] =
        .obj members → (members.map Prod.fst).Nodup := by
    rintro members h
    cases h
    decide
  refine ⟨hkeys, .refused (.inl rfl) rfl rfl, ?_⟩
  exact ((validate_eq_refused_iff_reports ⟨{}, fun _ => false⟩ _ hkeys).1 _).mp rfl

end Flat

end FeedFilter
