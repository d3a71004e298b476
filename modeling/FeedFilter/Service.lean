import FeedFilter.Event
import FeedFilter.Flat.Check
import FeedFilter.Formula.Check
import FeedFilter.Settings

namespace FeedFilter

-- A query of either tier.
inductive Parsed
  | flat (query : Flat)
  | formula (query : Formula)
deriving DecidableEq

namespace Parsed

def text : Parsed → String
  | .flat query => query.text
  | .formula query => query.text

def toJson : Parsed → Json
  | .flat query => query.toJson
  | .formula query => query.toJson

end Parsed

-- What a service can be asked.
inductive Call
  | validate (tier : Tier) (query : Json)
  | parse (tier : Tier) (query : Json)
  | compile (tier : Tier) (query : Json)
  | stringify (tier : Tier) (query : Json)
  | equate (tier : Tier) (left right : Json)
  | migrate (query : Json)
  | settings

inductive Reply
  | valid
  | parsed (query : Option Parsed)
  | compiled (operator : Operator)
  | text (text : String)
  | equal (value : Bool)
  | settings (settings : Settings)
  | refused (error : QueryError)

-- The settings, and the check of authors, which is that of the settings or one of its own.
structure Service where
  settings : Settings
  accepts : String → Bool

namespace Service

def ofSettings (settings : Settings) : Service :=
  ⟨settings, settings.feedCheck.accepts⟩

def reply {α : Type} (make : α → Reply) : Except QueryError α → Reply
  | .ok value => make value
  | .error error => .refused error

def validate (service : Service) (query : Json) : Tier → Reply
  | .ql0 => reply (fun _ => .valid) (Flat.check service.accepts query)
  | .ql1 => reply (fun _ => .valid) (Formula.check query)

def parse (service : Service) (query : Json) : Tier → Option Parsed × List Diagnostic
  | .ql0 => let (found, reports) := Flat.parse service.accepts query; (found.map .flat, reports)
  | .ql1 => let (found, reports) := Formula.parse query; (found.map .formula, reports)

def stringify (service : Service) (query : Json) : Tier → Reply
  | .ql0 => reply .text (Flat.stringify service.accepts query)
  | .ql1 => reply .text (Formula.stringify query)

-- Compiling leaves a trace only if the query is accepted.
def compile (service : Service) (query : Json) : Tier → Reply × List Event
  | .ql0 =>
    let dedicated := service.settings.dedicated
    match Flat.check service.accepts query with
    | .ok flat =>
      (.compiled (flat.operator dedicated), [.compilingFlat flat.author flat.isPrivate dedicated])
    | .error error => (.refused error, [])
  | .ql1 =>
    let dedicated := service.settings.dedicated
    match Formula.check query with
    | .ok formula =>
      (.compiled (formula.operator dedicated), [.compilingFormula formula.nodeCount dedicated])
    | .error error => (.refused error, [])

def equate (service : Service) (left right : Json) : Tier → Reply × List Diagnostic
  | .ql0 => let (equal, reports) := Flat.equate service.accepts left right; (.equal equal, reports)
  | .ql1 => (reply .equal (Formula.equate left right), [])

-- The reply to a call, and what happened meanwhile in order.
def answer (service : Service) : Call → Reply × List Event
  | .validate tier query => (service.validate query tier, [])
  | .parse tier query =>
    let (found, reports) := service.parse query tier
    (.parsed found, reports.map .unusable)
  | .compile tier query => service.compile query tier
  | .stringify tier query => (service.stringify query tier, [])
  | .equate tier left right =>
    let (equal, reports) := service.equate left right tier
    (equal, reports.map .unusable)
  | .migrate query => (reply (fun flat => .text flat.text) (Flat.migrate service.accepts query), [])
  | .settings => (.settings service.settings, [])

end Service

end FeedFilter
