import FeedFilter.Proofs.Json.Trimming
import FeedFilter.Proofs.Tier.Canonical
import FeedFilter.Proofs.Tier.Dedicated
import FeedFilter.Proofs.Tier.Session

namespace FeedFilter

theorem FileFailure.textOf_toUTF8 (text : String) : textOf text.toUTF8 = .ok text := by
  rw [textOf, String.fromUTF8?, String.toUTF8_eq_toByteArray, dif_pos text.isValidUTF8]
  rfl

theorem Service.parse_fst (service : Service) (tier : Tier) (query : Json) :
    (service.parse query tier).1 = (tier.check service.accepts query).toOption := by
  rw [parse_eq]
  cases hcheck : tier.check service.accepts query with
  | ok parsed => exact Query.attempt_fst_eq_some_iff.mpr ⟨Tier.isTruthy_of_check hcheck, hcheck⟩
  | error error =>
    rw [Query.attempt, hcheck]
    cases query.isTruthy <;> rfl

namespace CommandLine

-- A command that takes one query, wherever the query comes from.
inductive Command
  | validate (tier : Tier)
  | parse (tier : Tier)
  | compile (tier : Tier) (dedicated : Bool) (format : Format)
  | stringify (tier : Tier)
  | migrate

namespace Command

def on (source : Source) : Command → Action
  | .validate tier => .validate tier source
  | .parse tier => .parse tier source
  | .compile tier dedicated format => .compile tier dedicated format source
  | .stringify tier => .stringify tier source
  | .migrate => .migrate source

-- What comes of a command, without the log.
def execute (settings : Settings) (input : ByteArray) (source : Source) (command : Command) :
    Except Failure String :=
  ((command.on source).execute settings input).1

-- The tier that has to accept the query. A former record is for none of them.
def tier? : Command → Option Tier
  | .validate tier => some tier
  | .parse tier => some tier
  | .compile tier _ _ => some tier
  | .stringify tier => some tier
  | .migrate => none

def call (query : Json) : Command → Call
  | .validate tier => .validate tier query
  | .parse tier => .parse tier query
  | .compile tier _ _ => .compile tier query
  | .stringify tier => .stringify tier query
  | .migrate => .migrate query

-- What is printed for a query. Only parsing prints something for a query that is refused.
def prints (settings : Settings) (query : Json) : Command → Except QueryError String
  | .validate tier =>
    (tier.check settings.feedCheck.accepts query).map fun _ => tier.name ++ " query is valid"
  | .parse tier =>
    .ok ((tier.check settings.feedCheck.accepts query).toOption.elim "null" (·.toJson.indented))
  | .compile tier dedicated format =>
    (tier.compile settings.feedCheck.accepts (settings.dedicated || dedicated) query).map
      format.write
  | .stringify tier => (tier.check settings.feedCheck.accepts query).map Parsed.text
  | .migrate => (Flat.migrate settings.feedCheck.accepts query).map Flat.text

section Execute

variable (settings : Settings) (source : Source) (command : Command)

theorem call_on (input : ByteArray) :
    (command.on source).call input =
      (source.text input).map fun text => command.call (.str text) := by
  cases htext : source.text input with
  | error failure => cases command <;> (simp only [on, Action.call, htext]; rfl)
  | ok text => cases command <;> (simp only [on, Action.call, htext]; rfl)

-- Each command puts out what the check finds in its own way.
theorem output_answer (query : Json) :
    (command.on source).output
        ((Service.ofSettings ((command.on source).adjust settings)).answer (command.call query)).1 =
      (command.prints settings query).mapError .query := by
  cases command with
  | validate tier =>
    simp only [call, Service.answer, Service.validate_eq, Service.ofSettings, on, Action.adjust,
      prints]
    cases tier.check settings.feedCheck.accepts query <;> rfl
  | parse tier =>
    simp only [call, Service.answer, Service.parse_fst, Service.ofSettings, on, Action.adjust,
      prints]
    cases tier.check settings.feedCheck.accepts query <;> rfl
  | compile tier dedicated format =>
    simp only [call, Service.answer, Service.compile_eq, Service.ofSettings, on, Action.adjust,
      prints]
    cases tier.compile settings.feedCheck.accepts (settings.dedicated || dedicated) query <;> rfl
  | stringify tier =>
    simp only [call, Service.answer, Service.stringify_eq, Service.ofSettings, on, Action.adjust,
      prints]
    cases tier.check settings.feedCheck.accepts query <;> rfl
  | migrate =>
    simp only [call, Service.answer, Service.ofSettings, on, Action.adjust, prints]
    cases Flat.migrate settings.feedCheck.accepts query <;> rfl

theorem execute_eq (input : ByteArray) :
    command.execute settings input source =
      source.text input >>= fun text => (command.prints settings (.str text)).mapError .query := by
  rw [execute, Action.execute, call_on]
  cases source.text input with
  | error failure => rfl
  | ok text => exact command.output_answer settings source (.str text)

end Execute

section Congr

variable {settings : Settings} {command : Command} {query other : Json} {output : String}

-- A command of a tier takes nothing from the query but what the check finds.
theorem prints_of_check {tier : Tier} (htier : command.tier? = some tier)
    (h : tier.check settings.feedCheck.accepts query =
      tier.check settings.feedCheck.accepts other) :
    command.prints settings query = command.prints settings other := by
  cases command with
  | validate tier | parse tier | stringify tier =>
    cases htier
    rw [prints, prints, h]
  | compile tier dedicated format =>
    cases htier
    rw [prints, prints, Tier.compile_eq, Tier.compile_eq, h]
  | migrate => cases htier

theorem prints_of_record (h : Query.record query = Query.record other) :
    command.prints settings query = command.prints settings other := by
  cases htier : command.tier? with
  | some tier => exact prints_of_check htier (Tier.check_of_record h _)
  | none =>
    cases command with
    | migrate => rw [prints, prints, Flat.migrate_of_record h]
    | _ => cases htier

-- A command that prints something else than that there is no query has been given a record.
theorem exists_record_of_prints (h : command.prints settings query = .ok output)
    (hparse : ∀ tier, command = .parse tier → output ≠ "null") :
    ∃ members, Query.record query = .ok members := by
  cases hrecord : Query.record query with
  | ok members => exact ⟨members, rfl⟩
  | error error =>
    exfalso
    cases command with
    | parse tier =>
      rw [prints, Tier.check_of_record_error hrecord] at h
      cases h
      exact hparse tier rfl rfl
    | validate tier | stringify tier =>
      rw [prints, Tier.check_of_record_error hrecord] at h
      cases h
    | compile tier dedicated format =>
      rw [prints, Tier.compile_eq, Tier.check_of_record_error hrecord] at h
      cases h
    | migrate =>
      rw [prints, Flat.migrate, hrecord] at h
      cases h

end Congr

end Command

theorem Source.ofOperands?_argument {text : String} (h : text ≠ "-") :
    ofOperands? [text] = some (.argument text) := by
  unfold ofOperands?
  split
  · next hnone => cases hnone
  · next hdash => exact absurd (List.cons.inj hdash).1 h
  · next hone => rw [(List.cons.inj hone).1]
  · next hother => exact absurd rfl (hother text)

open Command (execute_eq)

-- A query that is taken as an argument is taken from the input as well, with the same output. The
-- input is trimmed of more kinds of blanks than a reader passes over, but of a query that is taken
-- nothing else is trimmed than what the reader passes over.
theorem execute_input_of_argument {settings : Settings} {command : Command} {input : ByteArray}
    {text output : String} (htext : text ≠ "-")
    (h : command.execute settings input (.argument text) = .ok output)
    (hparse : ∀ tier, command = .parse tier → output ≠ "null") :
    Source.ofOperands? [text] = some (.argument text) ∧
    (∀ operands, operands = [] ∨ operands = ["-"] →
      ∃ source, Source.ofOperands? operands = some source ∧
        command.execute settings text.toUTF8 source = .ok output) ∧
    ∃ before after, text.toList = before ++ (Text.trimBlanks text).toList ++ after ∧
      ∀ c ∈ before ++ after, Token.isSpacing c = true := by
  rw [execute_eq] at h
  have hprints : command.prints settings (.str text) = .ok output := Except.mapError_eq_ok h
  obtain ⟨members, hrecord⟩ := Command.exists_record_of_prints hprints hparse
  obtain ⟨htrimmed, hends⟩ := Json.read_trimBlanks (Query.record_text_eq_ok_iff.mp hrecord)
  have hsame : Query.record (.str text) = Query.record (.str (Text.trimBlanks text)) :=
    hrecord.trans (Query.record_text htrimmed).symm
  have hinput : command.execute settings text.toUTF8 .input = .ok output := by
    rw [execute_eq, Source.text, FileFailure.textOf_toUTF8]
    rw [Command.prints_of_record hsame] at hprints
    exact congrArg (Except.mapError Failure.query) hprints
  refine ⟨Source.ofOperands?_argument htext, ?_, hends⟩
  rintro operands (rfl | rfl)
  · exact ⟨.input, rfl, hinput⟩
  · exact ⟨.input, rfl, hinput⟩

-- A query with a line break before and after it.
def padded : String :=
  "\n" ++ (Formula.type "post").text ++ "\n"

theorem execute_input_padded :
    padded ≠ "-" ∧
      (Command.stringify .ql1).execute {} .empty (.argument padded) =
        .ok (Formula.type "post").text ∧
      ∃ source, Source.ofOperands? ["-"] = some source ∧
        (Command.stringify .ql1).execute {} padded.toUTF8 source =
          .ok (Formula.type "post").text := by
  have hbreak : '\n' ∈ [' ', '\t', '\n', '\r'] := by decide
  have hspelled : (Formula.type "post").toJson.SpelledBy padded := by
    have hspaced := Spaced.space hbreak (Layout.spaced_value Layout.isSpacing_compact
      (Formula.type "post").toJson 0 rfl (Spaced.space hbreak .nil))
    rw [List.append_nil, ← Formula.toList_text] at hspaced
    simpa [Json.SpelledBy, padded] using hspaced
  have hcheck : Tier.ql1.check (FeedCheck.accepts .ssb) (.str padded) =
      .ok (.formula (.type "post")) :=
    Tier.check_of_spelledBy (congrArg (Except.map Parsed.formula) (Formula.check_toJson _))
      hspelled (by decide)
  have hdash : padded ≠ "-" := by decide
  have hargument : (Command.stringify .ql1).execute {} .empty (.argument padded) =
      .ok (Formula.type "post").text := by
    rw [execute_eq, Source.text]
    simp only [bind, Except.bind, Command.prints, hcheck]
    rfl
  have hparse : ∀ tier, Command.stringify .ql1 = .parse tier →
      (Formula.type "post").text ≠ "null" := by
    intro tier htier
    cases htier
  exact ⟨hdash, hargument, (execute_input_of_argument hdash hargument hparse).2.1 _ (.inr rfl)⟩

end CommandLine

end FeedFilter
