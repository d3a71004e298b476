import FeedFilter.Query.Diagnostic
import FeedFilter.Text.Quoted

namespace FeedFilter

-- How much an event matters, from the most to the least.
inductive Level
  | error
  | warn
  | info
  | debug
  | trace
deriving DecidableEq, Repr

namespace Level

def all : List Level := [.error, .warn, .info, .debug, .trace]

def name : Level → String
  | .error => "ERROR"
  | .warn => "WARN"
  | .info => "INFO"
  | .debug => "DEBUG"
  | .trace => "TRACE"

def rank : Level → Nat
  | .error => 1
  | .warn => 2
  | .info => 3
  | .debug => 4
  | .trace => 5

-- A level by its rank, which may have a plus sign and leading zeros.
def ofRank? (text : String) : Option Level :=
  let digits := match text.toList with
    | '+' :: rest => rest
    | cs => cs
  if digits ≠ [] ∧ digits.all Char.isDigit then
    all.find? fun level => level.rank = Nat.ofDigitChars 10 digits 0
  else none

-- A level by its rank or its name in any mixture of cases. All other texts stand for the level
-- that is not asked for.
def ofText (text : String) : Level :=
  ((ofRank? text).or (all.find? fun level => level.name = text.map Char.toUpper)).getD .info

end Level

-- What happens while queries are served.
inductive Event
  | loadingSettings (path : String)
  | unusable (diagnostic : Diagnostic)
  | compilingFlat (author : String) (isPrivate dedicated : Bool)
  | compilingFormula (nodes : Nat) (dedicated : Bool)
deriving DecidableEq, Repr

-- A value in the record of an event. A foreign text is quoted in a line.
inductive EventValue
  | foreign (text : String)
  | plain (text : String)
  | flag (value : Bool)
  | count (value : Nat)
deriving DecidableEq, Repr

def EventValue.text : EventValue → String
  | .foreign text => Text.quoted text
  | .plain text => text
  | .flag value => if value then "true" else "false"
  | .count value => toString value

namespace Event

def level : Event → Level
  | .unusable _ => .warn
  | _ => .debug

-- The part of the program that an event comes from.
def target : Event → String
  | .loadingSettings _ => "feedql"
  | .unusable _ => "feedql_core::diagnostics"
  | .compilingFlat _ _ _ => "feedql::ql0"
  | .compilingFormula _ _ => "feedql::ql1"

def message : Event → String
  | .loadingSettings _ => "Loading compiler config"
  | .unusable _ => "Error parsing query"
  | .compilingFlat _ _ _ => "Compiling QL0 query"
  | .compilingFormula _ _ => "Compiling QL1 query"

def values : Event → List (String × EventValue)
  | .loadingSettings path => [("path", .plain path)]
  | .unusable diagnostic =>
    [("tier", .foreign diagnostic.tier), ("query", .foreign diagnostic.query),
      ("error", .foreign diagnostic.error)]
  | .compilingFlat author isPrivate dedicated =>
    [("author", .plain author), ("private", .flag isPrivate), ("dedicated", .flag dedicated)]
  | .compilingFormula nodes dedicated => [("nodes", .count nodes), ("dedicated", .flag dedicated)]

-- The line of an event in a log.
def line (event : Event) : String :=
  let values := event.values.map fun (name, value) => " " ++ name ++ "=" ++ value.text
  event.level.name ++ " " ++ event.target ++ ": " ++ event.message ++ String.join values

def isShownAt (level : Level) (event : Event) : Bool :=
  event.level.rank ≤ level.rank

def diagnostic? : Event → Option Diagnostic
  | .unusable diagnostic => some diagnostic
  | _ => none

end Event

end FeedFilter
