import FeedFilter.Json.Printer
import FeedFilter.Operator.Engine

namespace FeedFilter

-- A query for the messages of one author: the public ones of one type, or of no type, or the
-- private ones.
structure Flat where
  author : String
  type : Option String
  isPrivate : Bool
deriving DecidableEq, Repr

namespace Flat

def published (author type : String) : Flat := ⟨author, some type, false⟩

def encrypted (author : String) : Flat := ⟨author, none, true⟩

-- Whether the parts go together: private messages have no type to ask for.
def IsConsistent (flat : Flat) : Prop :=
  flat.isPrivate = true → flat.type = none

-- The record of a query with its fields in their canonical order.
def toJson (flat : Flat) : Json :=
  .obj [("author", .str flat.author), ("type", Operator.ofNullable flat.type),
    ("private", .bool flat.isPrivate)]

-- The record as readers hold it.
def toValue (flat : Flat) : Json :=
  flat.toJson.canonical

-- The canonical text of a query: equal queries have equal texts.
def text (flat : Flat) : String :=
  r#"{"author":"# ++ String.ofList (literalChars flat.author)
    ++ r#","type":"# ++ (flat.type.elim "null" fun type => String.ofList (literalChars type))
    ++ r#","private":"# ++ (if flat.isPrivate then "true" else "false") ++ r"}"

variable {m : Type → Type} [Monad m] {ν : Type}

-- Builds a query in an engine: a conjunction that begins with the author and ends with privacy.
def lower (engine : Engine m ν) (dedicated : Bool) (flat : Flat) : m ν := do
  let author ← engine.author flat.author dedicated
  if flat.isPrivate then
    let privacy ← engine.isPrivate
    engine.and [author, privacy]
  else
    let type ← engine.type flat.type dedicated
    let privacy ← engine.isPublic
    engine.and [author, type, privacy]

def operator (dedicated : Bool) (flat : Flat) : Operator :=
  (flat.lower Operator.engine dedicated).run

example : (published "@a" r#"say "hi""#).text
    = r#"{"author":"@a","type":"say \"hi\"","private":false}"# := by decide +kernel

end Flat

end FeedFilter
