import FeedFilter.Json.Printer
import FeedFilter.Json.Reader

namespace FeedFilter

namespace Token

def ticked (kind text : String) : String :=
  kind ++ " `" ++ text ++ "`"

-- The fault of a token where something else was wanted. A value is read to its end before it is
-- refused, so that its own faults come first.
def mismatch (wanted : String) (token : Token) : Fault :=
  let refuse := fun (found : String) => Fault.mismatch (.kind found wanted) token.stop
  match token.lexeme with
  | .null => refuse "null"
  | .bool value => refuse (ticked "boolean" (if value then "true" else "false"))
  | .number reading =>
    match reading.needed with
    | .error fault => fault
    | .ok (.int value inRange) => refuse (ticked "integer" (Number.int value inRange).text)
    | .ok (.float value) => refuse (ticked "floating point" (Number.float value).text)
  | .string reading =>
    match reading.needed with
    | .error fault => fault
    | .ok text => refuse ("string " ++ Text.quoted text)
  | .misspelt fault => fault
  | .openList => .mismatch (.kind "sequence" wanted) token.start
  | .openObject => .mismatch (.kind "map" wanted) token.start
  | _ => .upon .noValue token.start

-- Passes over a token whose value is not wanted.
def skip (token : Token) : Except Fault Unit :=
  match token.lexeme with
  | .null => .ok ()
  | .bool _ => .ok ()
  | .number reading => reading.skipped.elim (.ok ()) .error
  | .string reading => reading.skipped.elim (.ok ()) .error
  | .misspelt fault => .error fault
  | _ => .error (.upon .noValue token.start)

end Token

namespace Outline

-- The fault of a value where something else was wanted. A list or an object is refused at its
-- opening bracket.
def mismatch (wanted : String) : Outline → Fault
  | .scalar token => token.mismatch wanted
  | .list start _ => .mismatch (.kind "sequence" wanted) start
  | .object start _ => .mismatch (.kind "map" wanted) start
  | .broken fault => fault

def readNull (wanted : String) (outline : Outline) : Except Fault Unit :=
  match outline with
  | .scalar ⟨_, .null, _⟩ => .ok ()
  | _ => .error (outline.mismatch wanted)

def readFlag (outline : Outline) : Except Fault Bool :=
  match outline with
  | .scalar ⟨_, .bool value, _⟩ => .ok value
  | _ => .error (outline.mismatch "a boolean")

def readText (outline : Outline) : Except Fault String :=
  match outline with
  | .scalar ⟨_, .string reading, _⟩ => reading.needed
  | _ => .error (outline.mismatch "a string")

def readNullable (outline : Outline) : Except Fault (Option String) :=
  match outline with
  | .scalar ⟨_, .null, _⟩ => .ok none
  | _ => outline.readText.map some

end Outline

mutual

-- Passes over a value that is not wanted: neither its depth nor the meaning of its literals and
-- numerals counts.
def Outline.skip : Outline → Except Fault Unit
  | .scalar token => token.skip
  | .list _ items => items.skip
  | .object _ fields => fields.skip
  | .broken fault => .error fault

def Items.skip : Items → Except Fault Unit
  | .close => .ok ()
  | .stuck gap => .error gap.inList
  | .item _ value more => do
    value.skip
    more.skip

def Fields.skip : Fields → Except Fault Unit
  | .close _ => .ok ()
  | .stuck gap => .error gap.inObject
  | .noKey found => .error (Token.noKeyFault found)
  | .field key _ value _ more => do
    key.skip
    value.skip
    more.skip

end

-- Nothing may follow the last item that a form has a place for.
def Items.finish : Items → Except Fault Unit
  | .close => .ok ()
  | .stuck .missing => .error (.atEnd .endInList)
  | .stuck (.unexpected place) => .error (.upon .trailingCharacters place)
  | .stuck (.trailingComma place) => .error (.upon .trailingComma place)
  | .item (some start) _ _ => .error (.upon .trailingCharacters start)
  | .item none _ _ => .error (.atEnd .trailingCharacters)

-- A name among those known, by its place in their list.
def Token.variant (known : List String) (name : String) (place : Nat) : Except Fault String :=
  if known.contains name then .ok name else .error (.mismatch (.unknownVariant name known) place)

-- The name of a variant that is given as a string.
def Outline.readVariant (known : List String) (outline : Outline) : Except Fault String :=
  match outline with
  | .scalar ⟨_, .string reading, stop⟩ => do Token.variant known (← reading.needed) stop
  | _ => .error (outline.mismatch "variant identifier")

-- The fault of an object that should begin with the name of a variant. An empty one lacks a value.
def Fields.noVariant : Fields → Fault
  | .close place => .upon .noValue place
  | .stuck gap => gap.inObject
  | .noKey found => Token.noKeyFault found
  | .field key _ _ _ _ => Token.noKeyFault (some key)

-- An object that names a variant has no second key. What follows the first value is told by its
-- beginning.
def Fields.finish (next : Option Nat) (more : Fields) : Except Fault Unit :=
  match more, next with
  | .close _, _ => .ok ()
  | _, none => .error (.atEnd .endInObject)
  | _, some place => .error (.before .noValue place)

-- What a field of a record may hold.
inductive FieldForm
  | text
  | nullable
  | flag
deriving DecidableEq, Repr

-- The named fields of a record in order.
abbrev Form := List (String × FieldForm)

def FieldForm.read (form : FieldForm) (outline : Outline) : Except Fault Json :=
  match form with
  | .text => outline.readText.map .str
  | .nullable => outline.readNullable.map fun text => text.elim .null .str
  | .flag => outline.readFlag.map .bool

namespace Form

-- The values of the fields in order. A field that may be null may also be absent.
def complete (found : Members) (place : Nat) : Form → Except Fault (List Json)
  | [] => .ok []
  | (name, form) :: rest => do
    let value ←
      match found.lookup name, form with
      | some value, _ => .ok value
      | none, .nullable => .ok .null
      | none, _ => .error (.mismatch (.missingField name) place)
    let values ← complete found place rest
    return value :: values

-- Reads a record whose fields stand under their names, in any order. Other fields are passed over.
def ofFields (form : Form) (found : Members) : Fields → Except Fault (List Json)
  | .close place => form.complete found place
  | .stuck gap => .error gap.inObject
  | .noKey key => .error (Token.noKeyFault key)
  | .field key _ outline _ more => do
    let name ← key.name
    match form.lookup name with
    | none => do
      outline.skip
      ofFields form found more
    | some field =>
      if (found.lookup name).isSome then .error (.mismatch (.repeatedField name) key.stop)
      else do
        let value ← field.read outline
        ofFields form ((name, value) :: found) more

-- Reads a record whose fields stand in order, without names.
def ofItems : Form → Items → Except Fault (List Json)
  | [], items => items.finish.map fun _ => []
  | (name, _) :: _, .close => .error ⟨.mismatch (.length ("more with " ++ name)), none⟩
  | _ :: _, .stuck gap => .error gap.inList
  | (_, form) :: rest, .item _ outline more => do
    let value ← form.read outline
    let values ← ofItems rest more
    return value :: values

-- Reads a record in either of the two ways.
def read (form : Form) (wanted : String) (levels : Nat) (outline : Outline) :
    Except Fault (List Json) :=
  match levels, outline with
  | 0, .object start _ => .error (.upon .tooDeep start)
  | 0, .list start _ => .error (.upon .tooDeep start)
  | _ + 1, .object _ fields => form.ofFields [] fields
  | _ + 1, .list _ items => form.ofItems items
  | _, _ => .error (outline.mismatch wanted)

end Form

end FeedFilter
