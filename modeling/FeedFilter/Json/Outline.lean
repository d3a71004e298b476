import FeedFilter.Json.Token

namespace FeedFilter

-- Why a list or an object does not go on where a comma or the closing bracket should stand.
inductive Gap
  | missing
  | unexpected (place : Nat)
  | trailingComma (place : Nat)
deriving DecidableEq, Repr

mutual

-- The structure of a text from a place on, as far as it can be followed. What a reader makes of
-- it, and so which fault comes first, depends on the form that the reader asks for.
--
-- A token that opens nothing is a scalar, whether it is a value or not.
inductive Outline
  | scalar (token : Token)
  | list (start : Nat) (items : Items)
  | object (start : Nat) (fields : Fields)
  | broken (fault : Fault)

-- The rest of a list. An item remembers where it begins, unless the text has ended.
inductive Items
  | close
  | stuck (gap : Gap)
  | item (start : Option Nat) (value : Outline) (more : Items)

-- The rest of an object. A field remembers the token after its key, which should be a colon, and
-- where the token after its value begins, unless the text has ended. Without a token `noKey` is
-- the end of the text after a comma.
inductive Fields
  | close (place : Nat)
  | stuck (gap : Gap)
  | noKey (found : Option Token)
  | field (key : Token) (colon : Option Token) (value : Outline) (next : Option Nat)
      (more : Fields)

end

def Gap.inList : Gap → Fault
  | .missing => .atEnd .endInList
  | .unexpected place => .upon .noCommaInList place
  | .trailingComma place => .upon .trailingComma place

def Gap.inObject : Gap → Fault
  | .missing => .atEnd .endInObject
  | .unexpected place => .upon .noCommaInObject place
  | .trailingComma place => .upon .trailingComma place

def Token.startOf (rest : List Token) : Option Nat :=
  rest.head?.map Token.start

def Lexeme.isCloseList : Lexeme → Bool
  | .closeList => true
  | _ => false

def Lexeme.isCloseObject : Lexeme → Bool
  | .closeObject => true
  | _ => false

-- How a list or an object goes on: with the closing bracket, with another part, or not at all.
inductive Step
  | close (place : Nat) (rest : List Token)
  | part (rest : List Token)
  | stuck (gap : Gap)

namespace Step

-- The step after the opening bracket.
def first (closes : Lexeme → Bool) (all : List Token) : Step :=
  match all with
  | [] => .stuck .missing
  | token :: rest => if closes token.lexeme then .close token.start rest else .part all

-- The step after a comma. A part has to follow, even if there is no text left for it.
def afterComma (closes : Lexeme → Bool) (all : List Token) : Step :=
  match all with
  | [] => .part []
  | token :: _ =>
    if closes token.lexeme then .stuck (.trailingComma token.start) else .part all

-- The step after a part.
def next (closes : Lexeme → Bool) (all : List Token) : Step :=
  match all with
  | [] => .stuck .missing
  | token :: rest =>
    if closes token.lexeme then .close token.start rest
    else
      match token.lexeme with
      | .comma => afterComma closes rest
      | _ => .stuck (.unexpected token.start)

end Step

-- The tokens after the colon that has to follow a key.
def Token.afterColon : List Token → Except Fault (List Token)
  | [] => .error (.atEnd .endInObject)
  | token :: rest =>
    match token.lexeme with
    | .colon => .ok rest
    | _ => .error (.upon .noColon token.start)

mutual

-- Follows the value at the head of the tokens and gives back the tokens after it. Each step takes
-- one unit of fuel, and no token costs more than two steps.
def Outline.take (fuel : Nat) (all : List Token) : Outline × List Token :=
  match fuel, all with
  | _, [] => (.broken (.atEnd .endInValue), [])
  | 0, _ :: _ => (.broken (.atEnd .tooDeep), [])
  | fuel + 1, token :: rest =>
    match token.lexeme with
    | .openList =>
      let items := Items.ofStep fuel (Step.first Lexeme.isCloseList rest)
      (.list token.start items.1, items.2)
    | .openObject =>
      let fields := Fields.ofStep fuel (Step.first Lexeme.isCloseObject rest)
      (.object token.start fields.1, fields.2)
    | _ => (.scalar token, rest)

-- Follows a list from a step on.
def Items.ofStep (fuel : Nat) (step : Step) : Items × List Token :=
  match fuel, step with
  | _, .close _ rest => (.close, rest)
  | _, .stuck gap => (.stuck gap, [])
  | 0, .part _ => (.stuck .missing, [])
  | fuel + 1, .part all =>
    let value := Outline.take fuel all
    let more := Items.ofStep fuel (Step.next Lexeme.isCloseList value.2)
    (.item (Token.startOf all) value.1 more.1, more.2)

-- Follows an object from a step on.
def Fields.ofStep (fuel : Nat) (step : Step) : Fields × List Token :=
  match fuel, step with
  | _, .close place rest => (.close place, rest)
  | _, .stuck gap => (.stuck gap, [])
  | 0, .part _ => (.stuck .missing, [])
  | _ + 1, .part [] => (.noKey none, [])
  | fuel + 1, .part (key :: after) =>
    match key.lexeme with
    | .string _ =>
      let value : Outline × List Token :=
        match Token.afterColon after with
        | .ok rest => Outline.take fuel rest
        | .error fault => (.broken fault, [])
      let more := Fields.ofStep fuel (Step.next Lexeme.isCloseObject value.2)
      (.field key after.head? value.1 (Token.startOf value.2) more.1, more.2)
    | _ => (.noKey (some key), [])

end

-- The outline of a text and the tokens after its value.
def Outline.ofText (text : String) : Outline × List Token :=
  let all := tokens 0 text.toList
  Outline.take (2 * all.length) all

-- A value is the whole of a text only if no token follows it.
def Token.refuseMore {α : Type} (rest : List Token) (value : α) : Except Fault α :=
  match rest with
  | [] => .ok value
  | token :: _ => .error (.upon .trailingCharacters token.start)

end FeedFilter
