import FeedFilter.Json.Printer
import FeedFilter.Operator.Engine

namespace FeedFilter

-- A query for messages by any combination of types and authors.
inductive Formula
  | and (args : List Formula)
  | or (args : List Formula)
  | type (name : String)
  | author (feed : String)

namespace Formula

mutual

def nodeCount : Formula → Nat
  | .and args => 1 + nodeCountAll args
  | .or args => 1 + nodeCountAll args
  | .type _ => 1
  | .author _ => 1

def nodeCountAll : List Formula → Nat
  | [] => 0
  | arg :: rest => arg.nodeCount + nodeCountAll rest

end

mutual

-- The record of a query with its fields in their canonical order.
def toJson : Formula → Json
  | .and args => .obj [("op", .str "and"), ("args", .arr (toJsonAll args))]
  | .or args => .obj [("op", .str "or"), ("args", .arr (toJsonAll args))]
  | .type name => .obj [("op", .str "type"), ("string", .str name)]
  | .author feed => .obj [("op", .str "author"), ("feed", .str feed)]

def toJsonAll : List Formula → List Json
  | [] => []
  | arg :: rest => arg.toJson :: toJsonAll rest

end

def combinatorText (op args : String) : String :=
  r#"{"op":""# ++ op ++ r#"","args":["# ++ args ++ r"]}"

def leafText (op field value : String) : String :=
  r#"{"op":""# ++ op ++ r#"",""# ++ field ++ r#"":"# ++ String.ofList (literalChars value) ++ r"}"

mutual

-- The canonical text of a query: equal queries have equal texts.
def text : Formula → String
  | .and args => combinatorText "and" (textOf args)
  | .or args => combinatorText "or" (textOf args)
  | .type name => leafText "type" "string" name
  | .author feed => leafText "author" "feed" feed

def textOf : List Formula → String
  | [] => ""
  | arg :: rest => arg.text ++ textAfter rest

def textAfter : List Formula → String
  | [] => ""
  | arg :: rest => "," ++ arg.text ++ textAfter rest

end

section

variable {m : Type → Type} [Monad m] {ν : Type}

mutual

-- Builds a query in an engine: the arguments from left to right, then the node itself.
def lower (engine : Engine m ν) (dedicated : Bool) : Formula → m ν
  | .and args => do engine.and (← lowerAll engine dedicated args)
  | .or args => do engine.or (← lowerAll engine dedicated args)
  | .type name => engine.type (some name) dedicated
  | .author feed => engine.author feed dedicated

def lowerAll (engine : Engine m ν) (dedicated : Bool) : List Formula → m (List ν)
  | [] => pure []
  | arg :: rest => do
    let node ← lower engine dedicated arg
    let nodes ← lowerAll engine dedicated rest
    return node :: nodes

end

end

def operator (dedicated : Bool) (formula : Formula) : Operator :=
  (formula.lower Operator.engine dedicated).run

mutual

def same : Formula → Formula → Bool
  | .and args, .and others => sameAll args others
  | .or args, .or others => sameAll args others
  | .type name, .type other => name = other
  | .author feed, .author other => feed = other
  | _, _ => false

def sameAll : List Formula → List Formula → Bool
  | [], [] => true
  | arg :: rest, other :: others => same arg other && sameAll rest others
  | _, _ => false

end

mutual

theorem same_iff : ∀ a b : Formula, same a b = true ↔ a = b
  | .and args, b => by cases b <;> simp [same, sameAll_iff args]
  | .or args, b => by cases b <;> simp [same, sameAll_iff args]
  | .type _, b => by cases b <;> simp [same]
  | .author _, b => by cases b <;> simp [same]

theorem sameAll_iff : ∀ xs ys : List Formula, sameAll xs ys = true ↔ xs = ys
  | [], ys => by cases ys <;> simp [sameAll]
  | arg :: rest, ys => by
    cases ys with
    | nil => simp [sameAll]
    | cons other others => simp [sameAll, same_iff arg other, sameAll_iff rest others]

end

instance : DecidableEq Formula := fun a b => decidable_of_iff _ (same_iff a b)

end Formula

end FeedFilter
