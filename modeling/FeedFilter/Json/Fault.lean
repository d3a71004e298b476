import FeedFilter.Text.Quoted

namespace FeedFilter

-- A value that is well written but not of the form that was asked for.
inductive Mismatch
  | kind (found wanted : String)
  | unknownField (name : String) (known : List String)
  | repeatedField (name : String)
  | missingField (name : String)
  | unknownVariant (name : String) (known : List String)
  | length (wanted : String)
deriving DecidableEq, Repr

-- Why a text cannot be read.
inductive Cause
  | endInValue
  | endInList
  | endInObject
  | endInString
  | noValue
  | noKeyword
  | tooDeep
  | trailingComma
  | noCommaInList
  | noCommaInObject
  | noKey
  | noColon
  | trailingCharacters
  | controlCharacter
  | badEscape
  | loneSurrogate
  | halfPair
  | badNumber
  | outOfRange
  | mismatch (found : Mismatch)
deriving DecidableEq, Repr

-- A text can end too early, be no JSON, or be JSON of the wrong form.
inductive Cause.Category
  | ended
  | malformed
  | mismatched
deriving DecidableEq, Repr

def Cause.category : Cause → Cause.Category
  | .endInValue => .ended
  | .endInList => .ended
  | .endInObject => .ended
  | .endInString => .ended
  | .mismatch _ => .mismatched
  | _ => .malformed

namespace Mismatch

def ticked (name : String) : String :=
  "`" ++ name ++ "`"

-- Two alternatives are joined by a word, more are listed.
def alternatives : List String → String
  | [] => "there are none"
  | [name] => "expected " ++ ticked name
  | [first, second] => "expected " ++ ticked first ++ " or " ++ ticked second
  | names => "expected one of " ++ ", ".intercalate (names.map ticked)

def message : Mismatch → String
  | .kind found wanted => "invalid type: " ++ found ++ ", expected " ++ wanted
  | .unknownField name known => "unknown field " ++ ticked name ++ ", " ++ alternatives known
  | .repeatedField name => "duplicate field " ++ ticked name
  | .missingField name => "missing field " ++ ticked name
  | .unknownVariant name known => "unknown variant " ++ ticked name ++ ", " ++ alternatives known
  | .length wanted => "invalid length, expected " ++ wanted

end Mismatch

def Cause.message : Cause → String
  | .endInValue => "EOF while parsing a value"
  | .endInList => "EOF while parsing a list"
  | .endInObject => "EOF while parsing an object"
  | .endInString => "EOF while parsing a string"
  | .noValue => "expected value"
  | .noKeyword => "expected ident"
  | .tooDeep => "recursion limit exceeded"
  | .trailingComma => "trailing comma"
  | .noCommaInList => "expected `,` or `]`"
  | .noCommaInObject => r"expected `,` or `}`"
  | .noKey => "key must be a string"
  | .noColon => "expected `:`"
  | .trailingCharacters => "trailing characters"
  | .controlCharacter => "control character (\\u0000-\\u001F) found while parsing a string"
  | .badEscape => "invalid escape"
  | .loneSurrogate => "lone leading surrogate in hex escape"
  | .halfPair => "unexpected end of hex escape"
  | .badNumber => "invalid number"
  | .outOfRange => "number out of range"
  | .mismatch found => found.message

-- A cause and the number of bytes up to its place; without a number the place is the end.
structure Fault where
  cause : Cause
  place : Option Nat
deriving DecidableEq, Repr

namespace Fault

-- The fault at the end of the text.
def atEnd (cause : Cause) : Fault := ⟨cause, none⟩

-- The fault whose place is the boundary before the given byte.
def before (cause : Cause) (byte : Nat) : Fault := ⟨cause, some byte⟩

-- The fault whose place lies just after the given byte, which is the first of what is not
-- understood.
def upon (cause : Cause) (byte : Nat) : Fault := ⟨cause, some (byte + 1)⟩

def mismatch (found : Mismatch) (byte : Nat) : Fault := ⟨.mismatch found, some byte⟩

end Fault

-- A place in a text for people: lines count from 1, columns count the bytes of the line before
-- the place.
structure Position where
  line : Nat
  column : Nat
deriving DecidableEq, Repr

namespace Position

-- The position after `bytes` more bytes of the characters; past their end it is the end.
def advance (position : Position) (bytes : Nat) : List Char → Position
  | [] => position
  | c :: rest =>
    if c.utf8Size ≤ bytes then
      let next : Position :=
        if c = '\n' then ⟨position.line + 1, 0⟩ else ⟨position.line, position.column + c.utf8Size⟩
      next.advance (bytes - c.utf8Size) rest
    else ⟨position.line, position.column + bytes⟩

def ofPlace (text : String) (place : Option Nat) : Position :=
  (⟨1, 0⟩ : Position).advance (place.getD text.utf8ByteSize) text.toList

end Position

-- A fault as it is reported for a text.
structure Complaint where
  cause : Cause
  position : Position
deriving DecidableEq, Repr

def Fault.report (text : String) (fault : Fault) : Complaint :=
  ⟨fault.cause, .ofPlace text fault.place⟩

def Complaint.message (complaint : Complaint) : String :=
  complaint.cause.message ++ " at line " ++ toString complaint.position.line
    ++ " column " ++ toString complaint.position.column

example : Position.ofPlace "é\nab" (some 4) = ⟨2, 1⟩ ∧ Position.ofPlace "é\nab" none = ⟨2, 2⟩ := by
  decide +kernel

end FeedFilter
