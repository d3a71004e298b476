import FeedFilter.Flat.Basic
import FeedFilter.Query.Diagnostic

namespace FeedFilter.Flat

open Query (textField)

def fieldNames : List String := ["author", "type", "private"]

-- The fields of a record from before there were private messages.
def formerFieldNames : List String := ["author", "type"]

def typeField (members : Members) : Except QueryError (Option String) :=
  match members.lookup "type" with
  | none => .error (.missingField "type")
  | some .null => .ok none
  | some (.str type) => .ok (some type)
  | some _ => .error (.wrongField "type" "a string or null")

def privateField (members : Members) : Except QueryError Bool :=
  match members.lookup "private" with
  | none => .error (.missingField "private")
  | some (.bool isPrivate) => .ok isPrivate
  | some _ => .error (.wrongField "private" "a boolean")

def limitFields (names : List String) (members : Members) : Except QueryError Unit :=
  if members.length ≤ names.length then .ok ()
  else .error (.tooManyFields names.length members.length)

def checkFeed (accepts : String → Bool) (feed : String) : Except QueryError Unit :=
  if accepts feed then .ok () else .error (.badFeed feed)

-- The query of a record. It is enough to bound the number of fields, for three are looked up.
def ofRecord (accepts : String → Bool) (members : Members) : Except QueryError Flat := do
  limitFields fieldNames members
  let author ← textField members "author"
  let type ← typeField members
  let isPrivate ← privateField members
  if isPrivate && type.isSome then .error .privateWithType
  checkFeed accepts author
  return ⟨author, type, isPrivate⟩

def check (accepts : String → Bool) (query : Json) : Except QueryError Flat := do
  ofRecord accepts (← Query.record query)

-- The query that a former record stands for: it asked for public messages of a type.
def migrate (accepts : String → Bool) (query : Json) : Except QueryError Flat := do
  let members ← Query.record query
  limitFields formerFieldNames members
  let author ← textField members "author"
  let type ← textField members "type"
  checkFeed accepts author
  return published author type

def parse (accepts : String → Bool) (query : Json) : Option Flat × List Diagnostic :=
  Query.attempt .ql0 (check accepts) query

def stringify (accepts : String → Bool) (query : Json) : Except QueryError String :=
  (check accepts query).map text

-- Queries are compared as far as they can be read; one that cannot is equal to nothing.
def equate (accepts : String → Bool) (left right : Json) : Bool × List Diagnostic :=
  let first := parse accepts left
  let second := parse accepts right
  (first.1.isSome && first.1 = second.1, first.2 ++ second.2)

variable {m : Type → Type} [Monad m] {ν : Type}

-- Compiles a query for an engine, of which nothing is asked if the query is refused.
def compileWith (engine : Engine m ν) (accepts : String → Bool) (dedicated : Bool) (query : Json) :
    Except QueryError (m ν) :=
  (check accepts query).map (lower engine dedicated)

def compile (accepts : String → Bool) (dedicated : Bool) (query : Json) :
    Except QueryError Operator :=
  (check accepts query).map (operator dedicated)

end FeedFilter.Flat
