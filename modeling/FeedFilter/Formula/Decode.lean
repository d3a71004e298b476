import FeedFilter.Formula.Basic
import FeedFilter.Json.Form

namespace FeedFilter

def Formula.operatorNames : List String := ["and", "or", "type", "author"]

-- Reads an object that tells by `op` what it is. A bad operator counts at once, all other fields
-- only after the whole object has been read.
def Fields.tagged (levels : Nat) (seen : Bool) : Fields → Except Fault (List (String × Json))
  | .close _ => .ok []
  | .stuck gap => .error gap.inObject
  | .noKey found => .error (Token.noKeyFault found)
  | .field key _ value _ more => do
    let name ← key.name
    let value ←
      if name = "op" then
        if seen then .error (.mismatch (.repeatedField name) key.stop)
        else (value.readVariant Formula.operatorNames).map .str
      else value.written levels
    let rest ← more.tagged levels (seen || name = "op")
    return (name, value) :: rest

-- Reads a list whose first item is the operator.
def Items.tagged (levels : Nat) : Items → Except Fault (List Json)
  | .close => .error ⟨.mismatch (.missingField "op"), none⟩
  | .stuck gap => .error gap.inList
  | .item _ value more => do
    let op ← value.readVariant Formula.operatorNames
    let rest ← more.written levels
    return .str op :: rest

def Outline.tagged (levels : Nat) (outline : Outline) : Except Fault Json :=
  match levels, outline with
  | 0, .object start _ => .error (.upon .tooDeep start)
  | 0, .list start _ => .error (.upon .tooDeep start)
  | inner + 1, .object _ fields => (fields.tagged inner false).map .obj
  | inner + 1, .list _ items => (items.tagged inner).map .arr
  | _, _ => .error (outline.mismatch "a formula")

namespace Formula

-- An operator inside a query that has been read may also be told by its number.
def operatorName? : Json → Option String
  | .str name => if operatorNames.contains name then some name else none
  | .num (.int number _) => if number < 0 then none else operatorNames[number.toNat]?
  | _ => none

-- The value of the one member with a name.
def sole? (members : Members) (name : String) : Option Json :=
  match members.filter (·.1 = name) with
  | [member] => some member.2
  | _ => none

def leaf? (op : String) (value : Json) : Option Formula :=
  match op, value with
  | "type", .str name => some (.type name)
  | "author", .str feed => some (.author feed)
  | _, _ => none

def combine? (op : String) (args : Option (List Formula)) : Option Formula :=
  match op with
  | "and" => args.map .and
  | "or" => args.map .or
  | _ => none

mutual

-- A formula from a value as it is written: fields that do not belong to its operator are ignored,
-- and none of those that do may be repeated.
def ofWritten : Json → Option Formula
  | .obj members => do
    let op ← operatorName? (← sole? members "op")
    match op with
    | "type" => leaf? op (← sole? members "string")
    | "author" => leaf? op (← sole? members "feed")
    | _ => do
      let _ ← sole? members "args"
      combine? op (argsOf members)
  | .arr [op, .arr args] => do combine? (← operatorName? op) (ofWrittenAll args)
  | .arr [op, value] => do leaf? (← operatorName? op) value
  | _ => none

def ofWrittenAll : List Json → Option (List Formula)
  | [] => some []
  | item :: rest => do
    let first ← ofWritten item
    let others ← ofWrittenAll rest
    return first :: others

-- The arguments in the first member with their name.
def argsOf : List (String × Json) → Option (List Formula)
  | [] => none
  | (name, .arr items) :: rest => if name = "args" then ofWrittenAll items else argsOf rest
  | (name, _) :: rest => if name = "args" then none else argsOf rest

end

def ofOutline (levels : Nat) (outline : Outline) : Except Fault Formula := do
  let value ← outline.tagged levels
  match ofWritten value with
  | some formula => .ok formula
  | none => .error (outline.mismatch "a formula")

-- Reads a query back from its record.
def decode (text : String) : Except Complaint Formula :=
  Json.decode (ofOutline Json.nestingLimit) text

end Formula

end FeedFilter
