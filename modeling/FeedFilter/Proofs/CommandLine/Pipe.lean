import FeedFilter.Proofs.CommandLine.Input
import FeedFilter.Proofs.Flat.Migrate

namespace FeedFilter

namespace Layout

variable (layout : Layout)

theorem getLast?_members (depth : Nat) (members : Members) :
    (layout.members depth members).getLast? = some '}' := by
  induction members with
  | nil => rw [Layout.members, List.getLast?_append]; rfl
  | cons member rest ih =>
    rw [Layout.members, List.getLast?_append, ih]
    rfl

-- An object is written between braces.
theorem ends_obj (depth : Nat) (members : Members) :
    (layout.value depth (.obj members)).head? = some '{' ∧
      (layout.value depth (.obj members)).getLast? = some '}' := by
  cases members with
  | nil => exact ⟨rfl, rfl⟩
  | cons member rest =>
    refine ⟨rfl, ?_⟩
    rw [Layout.value, List.getLast?_append, getLast?_members]
    rfl

end Layout

namespace CommandLine

-- What is printed ends in a line break, which is trimmed when it is taken in again.
theorem Source.text_printed {chars : List Char} {first last : Char}
    (hfirst : chars.head? = some first) (hlast : chars.getLast? = some last)
    (hblank : Text.isBlank first = false ∧ Text.isBlank last = false) :
    Source.text (String.ofList chars ++ "\n").toUTF8 .input = .ok (String.ofList chars) := by
  have hstart : ∀ c ∈ (chars ++ ['\n']).head?, Text.isBlank c = false := by
    intro c hc
    rw [List.head?_append, hfirst] at hc
    cases hc
    exact hblank.1
  have hend : ∀ c ∈ chars.getLast?, Text.isBlank c = false := by
    intro c hc
    rw [hlast] at hc
    cases hc
    exact hblank.2
  have hbreak : ∀ c ∈ ['\n'], Text.isBlank c = true := List.forall_mem_singleton.mpr (by decide)
  have htext : String.ofList chars ++ "\n" = String.ofList ([] ++ (chars ++ ['\n'])) := by
    rw [List.nil_append, String.ofList_append]
  rw [Source.text, FileFailure.textOf_toUTF8, htext]
  exact congrArg Except.ok (Text.trimBlanks_eq (List.forall_mem_nil _) hstart hend hbreak)

theorem Source.text_printed_toJson (layout : Layout) (parsed : Parsed) :
    Source.text (String.ofList (layout.value 0 parsed.toJson) ++ "\n").toUTF8 .input =
      .ok (String.ofList (layout.value 0 parsed.toJson)) := by
  obtain ⟨members, hmembers⟩ := parsed.toJson_eq_obj
  rw [hmembers]
  obtain ⟨hfirst, hlast⟩ := layout.ends_obj 0 members
  exact text_printed hfirst hlast (by decide)

theorem indented_ne_null (parsed : Parsed) : parsed.toJson.indented ≠ "null" := by
  obtain ⟨members, hmembers⟩ := parsed.toJson_eq_obj
  intro h
  have hchars : Layout.indented.value 0 parsed.toJson = ['n', 'u', 'l', 'l'] :=
    String.ofList_inj.mp h
  have hfirst := (Layout.indented.ends_obj 0 members).1
  rw [← hmembers, hchars] at hfirst
  cases hfirst

namespace Command

variable {settings : Settings} {tier : Tier} {command : Command} {query : Json} {parsed : Parsed}

-- A text without a query stands for no query of either tier.
theorem check_null (tier : Tier) (accepts : String → Bool) :
    ∃ error, tier.check accepts (.str "null") = .error error := by
  have hread : Json.read Json.null.compact = .ok .null := (Json.read_compact rfl).1 (by decide)
  have htext : Json.null.compact = "null" := rfl
  rw [htext] at hread
  have hrecord : Query.record (.str "null") = .error (.notRecord .null true) := by
    rw [Query.record, hread]
    rfl
  exact ⟨_, Tier.check_of_record_error hrecord accepts⟩

variable {source : Source} {input : ByteArray} {text : String}

theorem execute_of_text (htext : source.text input = .ok text) :
    command.execute settings input source =
      (command.prints settings (.str text)).mapError .query := by
  rw [execute_eq, htext]
  rfl

-- What the commands make of a query that is accepted, and of one that is refused.
theorem execute_of_check (htext : source.text input = .ok text)
    (hcheck : tier.check settings.feedCheck.accepts (.str text) = .ok parsed) :
    (validate tier).execute settings input source = .ok (tier.name ++ " query is valid") ∧
      (parse tier).execute settings input source = .ok parsed.toJson.indented ∧
      (stringify tier).execute settings input source = .ok parsed.text := by
  simp only [execute_of_text htext, prints, hcheck]
  exact ⟨rfl, rfl, rfl⟩

theorem execute_of_check_error {error : QueryError} (htext : source.text input = .ok text)
    (hcheck : tier.check settings.feedCheck.accepts (.str text) = .error error) :
    (validate tier).execute settings input source = .error (.query error) ∧
      (parse tier).execute settings input source = .ok "null" := by
  simp only [execute_of_text htext, prints, hcheck]
  exact ⟨rfl, rfl⟩

-- A query that is accepted is the same query once it has been printed.
theorem check_indented (hcheck : tier.check settings.feedCheck.accepts query = .ok parsed)
    (hnest : tier = .ql1 → parsed.toJson.nest ≤ 127) :
    tier.check settings.feedCheck.accepts (.str parsed.toJson.indented) = .ok parsed := by
  refine Tier.check_of_spelledBy hcheck
    (Json.spelledBy_layout Layout.isSpacing_indented parsed.isFloatFree_toJson) ?_
  cases tier with
  | ql0 =>
    obtain ⟨flat, _, rfl⟩ := Except.map_eq_ok hcheck
    have hflat : (Parsed.flat flat).toJson.nest = 1 := flat.nest_toJson
    rw [hflat]
    decide
  | ql1 => exact hnest rfl

theorem execute_indented {piped : Source} {pipedInput : ByteArray}
    (htext : source.text input = .ok text)
    (hcheck : tier.check settings.feedCheck.accepts (.str text) = .ok parsed)
    (hnest : tier = .ql1 → parsed.toJson.nest ≤ 127)
    (hpiped : piped.text pipedInput = .ok parsed.toJson.indented)
    (htier : command.tier? = some tier) :
    command.execute settings pipedInput piped = command.execute settings input source := by
  have hsame := (check_indented hcheck hnest).trans hcheck.symm
  rw [execute_of_text hpiped, execute_of_text htext, prints_of_check htier hsame]

-- A former record is printed as a query that is accepted.
theorem exists_flat_of_execute_migrate {migrated : String} (htext : source.text input = .ok text)
    (h : migrate.execute settings input source = .ok migrated) :
    ∃ flat : Flat, migrated = flat.text ∧
      Tier.ql0.check settings.feedCheck.accepts (.str flat.text) = .ok (.flat flat) := by
  rw [execute_of_text htext] at h
  obtain ⟨flat, hflat, rfl⟩ := Except.map_eq_ok (Except.mapError_eq_ok h)
  obtain ⟨_, author, type, _, _, hfeed, rfl⟩ := Flat.migrate_eq_ok_iff.mp hflat
  exact ⟨_, rfl, congrArg (Except.map Parsed.flat) (Flat.given_published hfeed (.inl rfl))⟩

end Command

variable {source : Source} {input : ByteArray} {text : String}

-- What parsing prints can be parsed, which prints it again, and stands for the query in all other
-- commands. Only a formula that is nested too deep for a reader cannot be taken in again. What is
-- printed for a former record is a query that has this text.
theorem execute_piped (settings : Settings) (tier : Tier) (htext : source.text input = .ok text) :
    (∃ printed, (Command.parse tier).execute settings input source = .ok printed ∧
      Source.text (printed ++ "\n").toUTF8 .input = .ok printed ∧
      (printed = "null" ↔
        ∃ failure, (Command.validate tier).execute settings input source = .error failure) ∧
      (printed ≠ "null" → ∃ parsed, printed = parsed.toJson.indented ∧
        ((Service.ofSettings settings).parse (.str text) tier).1 = some parsed) ∧
      ((∀ parsed, tier = .ql1 →
          ((Service.ofSettings settings).parse (.str text) tier).1 = some parsed →
          parsed.toJson.nest ≤ 127) →
        ∀ piped pipedInput, Source.text pipedInput piped = .ok printed →
          (Command.parse tier).execute settings pipedInput piped = .ok printed ∧
          (printed ≠ "null" → ∀ command : Command, command.tier? = some tier →
            command.execute settings pipedInput piped =
              command.execute settings input source))) ∧
    ∀ migrated, Command.migrate.execute settings input source = .ok migrated →
      Source.text (migrated ++ "\n").toUTF8 .input = .ok migrated ∧
      ∀ piped pipedInput, Source.text pipedInput piped = .ok migrated →
        (Command.validate .ql0).execute settings pipedInput piped = .ok "QL0 query is valid" ∧
        (Command.stringify .ql0).execute settings pipedInput piped = .ok migrated := by
  refine ⟨?_, ?_⟩
  · cases hcheck : tier.check settings.feedCheck.accepts (.str text) with
    | ok parsed =>
      obtain ⟨hvalidate, hparse, -⟩ := Command.execute_of_check htext hcheck
      have hfound : ((Service.ofSettings settings).parse (.str text) tier).1 = some parsed := by
        rw [Service.parse_fst, Service.ofSettings, hcheck]
        rfl
      refine ⟨_, hparse, Source.text_printed_toJson .indented parsed, ?_, ?_, ?_⟩
      · rw [hvalidate]
        refine ⟨fun hnull => absurd hnull (indented_ne_null parsed), ?_⟩
        rintro ⟨failure, hfailure⟩
        cases hfailure
      · exact fun _ => ⟨parsed, rfl, hfound⟩
      · intro hnest piped pipedInput hpiped
        have hsame : ∀ command : Command, command.tier? = some tier →
            command.execute settings pipedInput piped = command.execute settings input source :=
          fun command => Command.execute_indented htext hcheck
            (fun htier => hnest parsed htier hfound) hpiped
        exact ⟨(hsame (.parse tier) rfl).trans hparse, fun _ => hsame⟩
    | error error =>
      obtain ⟨hvalidate, hparse⟩ := Command.execute_of_check_error htext hcheck
      have hnull : Source.text ("null" ++ "\n").toUTF8 .input = .ok "null" :=
        @Source.text_printed ['n', 'u', 'l', 'l'] 'n' 'l' rfl rfl (by decide)
      refine ⟨"null", hparse, hnull, ?_, fun hne => absurd rfl hne, ?_⟩
      · exact ⟨fun _ => ⟨_, hvalidate⟩, fun _ => rfl⟩
      · intro _ piped pipedInput hpiped
        obtain ⟨_, hrefused⟩ := Command.check_null tier settings.feedCheck.accepts
        exact ⟨(Command.execute_of_check_error hpiped hrefused).2, fun hne => absurd rfl hne⟩
  · intro migrated h
    obtain ⟨flat, rfl, hcheck⟩ := Command.exists_flat_of_execute_migrate htext h
    refine ⟨?_, fun piped pipedInput hpiped => ?_⟩
    · rw [Flat.text_eq_compact]
      exact Source.text_printed_toJson .compact (.flat flat)
    · obtain ⟨hvalidate, -, hstringify⟩ := Command.execute_of_check hpiped hcheck
      exact ⟨hvalidate, hstringify⟩

-- The text of a query with an empty list of arguments is printed over several lines, and comes
-- out of the pipe as it was.
theorem execute_piped_empty :
    ∃ printed, (Command.parse .ql1).execute {} .empty (.argument (Formula.and []).text) =
        .ok printed ∧ printed ≠ (Formula.and []).text ∧
      (Command.stringify .ql1).execute {} (printed ++ "\n").toUTF8 .input =
        .ok (Formula.and []).text := by
  have htext : Source.text .empty (.argument (Formula.and []).text) = .ok (Formula.and []).text :=
    rfl
  have hcheck : Tier.ql1.check ({} : Settings).feedCheck.accepts
      (.str (Formula.and []).text) = .ok (.formula (.and [])) :=
    congrArg (Except.map Parsed.formula) (Formula.check_text (by decide))
  obtain ⟨_, hparsed, hstringify⟩ := Command.execute_of_check htext hcheck
  obtain ⟨printed, hparse, hinput, -, -, hpiped⟩ := (execute_piped {} .ql1 htext).1
  cases hparsed.symm.trans hparse
  have hnest : ∀ parsed, Tier.ql1 = .ql1 →
      ((Service.ofSettings {}).parse (.str (Formula.and []).text) .ql1).1 = some parsed →
      parsed.toJson.nest ≤ 127 := by
    intro parsed _ hfound
    rw [Service.parse_fst, Service.ofSettings, hcheck] at hfound
    cases hfound
    decide
  have hsame := (hpiped hnest _ _ hinput).2 (indented_ne_null _) (.stringify .ql1) rfl
  exact ⟨_, hparse, by decide +kernel, hsame.trans hstringify⟩

end CommandLine

end FeedFilter
