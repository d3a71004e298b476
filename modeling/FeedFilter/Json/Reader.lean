import FeedFilter.Json.Basic
import FeedFilter.Json.Outline

namespace FeedFilter

namespace Token

-- The value that a token is by itself.
def value (token : Token) : Except Fault Json :=
  match token.lexeme with
  | .null => .ok .null
  | .bool value => .ok (.bool value)
  | .number reading => reading.needed.map .num
  | .string reading => reading.needed.map .str
  | .misspelt fault => .error fault
  | _ => .error (.upon .noValue token.start)

-- The text of a key.
def name (token : Token) : Except Fault String :=
  match token.lexeme with
  | .string reading => reading.needed
  | _ => .error (.upon .noKey token.start)

-- Where a key should stand there is another token, or the text ends after a comma.
def noKeyFault : Option Token → Fault
  | none => .atEnd .endInValue
  | some token => .upon .noKey token.start

end Token

mutual

-- The value as it is written, with `levels` containers at most inside each other.
def Outline.written (levels : Nat) : Outline → Except Fault Json
  | .scalar token => token.value
  | .broken fault => .error fault
  | .list start items =>
    match levels with
    | 0 => .error (.upon .tooDeep start)
    | inner + 1 => (items.written inner).map .arr
  | .object start fields =>
    match levels with
    | 0 => .error (.upon .tooDeep start)
    | inner + 1 => (fields.written inner).map .obj

def Items.written (levels : Nat) : Items → Except Fault (List Json)
  | .close => .ok []
  | .stuck gap => .error gap.inList
  | .item _ value more => do
    let value ← value.written levels
    let more ← more.written levels
    return value :: more

def Fields.written (levels : Nat) : Fields → Except Fault (List (String × Json))
  | .close _ => .ok []
  | .stuck gap => .error gap.inObject
  | .noKey found => .error (Token.noKeyFault found)
  | .field key _ value _ more => do
    let name ← key.name
    let value ← value.written levels
    let more ← more.written levels
    return (name, value) :: more

end

namespace Json

-- Reads a whole text in a form: the faults of its value come before what stands after it.
def decode {α : Type} (form : Outline → Except Fault α) (text : String) : Except Complaint α :=
  let outline := Outline.ofText text
  (form outline.1 >>= Token.refuseMore outline.2).mapError (Fault.report text)

-- The number of containers that may stand inside each other in one text.
def nestingLimit : Nat := 127

-- The value that a text writes, in the form in which readers hold values.
def readWithin (levels : Nat) (text : String) : Except Complaint Json :=
  (decode (Outline.written levels) text).map canonical

def read (text : String) : Except Complaint Json :=
  readWithin nestingLimit text

-- Reads a text whose values may be nested to any depth.
def readDeep (text : String) : Except Complaint Json :=
  readWithin text.utf8ByteSize text

end Json

end FeedFilter
