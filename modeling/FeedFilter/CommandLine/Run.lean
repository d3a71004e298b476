import FeedFilter.CommandLine.Arguments
import FeedFilter.Service
import FeedFilter.Text.Blank

namespace FeedFilter.CommandLine

-- Why an invocation fails.
inductive Failure
  | settings (path : String) (error : SettingsError)
  | input
  | query (error : QueryError)
deriving DecidableEq, Repr

namespace Failure

def message : Failure → String
  | .settings path _ => "Failed to load config from " ++ path
  | .input => "Failed to read query from stdin"
  | .query error => error.message

-- What lies behind a failure, each cause being the reason of the one before.
def causes : Failure → List String
  | .settings _ error => [error.message, error.reason]
  | .input => [FileFailure.notText.message]
  | .query _ => []

def indented (margin text : String) : String :=
  (text.replace "\n" ("\n" ++ margin))

-- The causes are numbered if there are several.
def causeTexts : List String → List String
  | [] => []
  | [cause] => ["", "Caused by:", "    " ++ indented "    " cause]
  | causes =>
    let numbered := causes.zipIdx.map fun (cause, index) =>
      "    " ++ toString index ++ ": " ++ indented "       " cause
    ["", "Caused by:"] ++ numbered

def texts (failure : Failure) : List String :=
  ("Error: " ++ failure.message) :: causeTexts failure.causes

end Failure

-- What an invocation leaves behind.
structure Outcome where
  exit : Nat
  output : String
  log : List String
deriving DecidableEq, Repr

-- The text of a query. That of the input is taken without the blanks around it.
def Source.text (input : ByteArray) : Source → Except Failure String
  | .argument text => .ok text
  | .input =>
    match FileFailure.textOf input with
    | .ok text => .ok (Text.trimBlanks text)
    | .error _ => .error .input

-- How a tree is put out.
def Format.write : Format → Operator → String
  | .json, tree => tree.toJson.indented
  | .text, tree => tree.text

namespace Action

-- An action asks a service about the query as a text.
def call (input : ByteArray) : Action → Except Failure Call
  | .validate tier query => do return .validate tier (.str (← query.text input))
  | .parse tier query => do return .parse tier (.str (← query.text input))
  | .compile tier _ _ query => do return .compile tier (.str (← query.text input))
  | .stringify tier query => do return .stringify tier (.str (← query.text input))
  | .equals tier left right => .ok (.equate tier (.str left) (.str right))
  | .migrate query => do return .migrate (.str (← query.text input))

-- A dedicated index may be allowed by the settings or by the action.
def adjust (settings : Settings) : Action → Settings
  | .compile _ dedicated _ _ => { settings with dedicated := settings.dedicated || dedicated }
  | _ => settings

def format : Action → Format
  | .compile _ _ format _ => format
  | _ => .json

def tierName : Action → String
  | .validate tier _ => tier.name
  | _ => Tier.ql0.name

-- The output for a reply.
def output (action : Action) : Reply → Except Failure String
  | .valid => .ok (action.tierName ++ " query is valid")
  | .parsed none => .ok "null"
  | .parsed (some query) => .ok query.toJson.indented
  | .compiled operator => .ok (action.format.write operator)
  | .text text => .ok text
  | .equal value => .ok (if value then "true" else "false")
  | .settings settings => .ok settings.text
  | .refused error => .error (.query error)

-- Performs an action under settings, with the input that there is.
def execute (settings : Settings) (input : ByteArray) (action : Action) :
    Except Failure String × List Event :=
  match action.call input with
  | .error failure => (.error failure, [])
  | .ok call =>
    let (reply, events) := (Service.ofSettings (action.adjust settings)).answer call
    (action.output reply, events)

def readsInput : Action → Bool
  | .validate _ query => query = .input
  | .parse _ query => query = .input
  | .compile _ _ _ query => query = .input
  | .stringify _ query => query = .input
  | .equals _ _ _ => false
  | .migrate query => query = .input

end Action

-- The settings of an invocation from the contents of its file.
def settings (path : Option String) (file : Except FileFailure ByteArray) :
    Except Failure Settings × List Event :=
  match path with
  | none => (.ok {}, [])
  | some path => ((Settings.ofFile file).mapError (.settings path), [.loadingSettings path])

-- Performs an invocation with the contents of its settings file and the input.
def perform (file : Except FileFailure ByteArray) (input : ByteArray) (invocation : Invocation) :
    Outcome :=
  let (found, loading) := settings invocation.settingsPath file
  let (result, events) : Except Failure String × List Event :=
    match found with
    | .error failure => (.error failure, loading)
    | .ok settings =>
      let (result, events) := invocation.action.execute settings input
      (result, loading ++ events)
  let log := (events.filter (Event.isShownAt invocation.level)).map Event.line
  match result with
  | .ok output => ⟨0, output ++ "\n", log⟩
  | .error failure => ⟨1, "", log ++ failure.texts⟩

def versionText : String := "feedql 0.1.0"

end FeedFilter.CommandLine
