import FeedFilter.Json.Form
import FeedFilter.Operator.Basic

namespace FeedFilter.Operator

def variantNames : List String :=
  ["And", "Or", "AuthorPredicate", "TypePredicate", "IsPrivate", "IsPublic"]

def authorForm : Form := [("feed_id", .text), ("dedicated", .flag)]

def typeForm : Form := [("value", .nullable), ("dedicated", .flag)]

def readAuthor (levels : Nat) (outline : Outline) : Except Fault Operator := do
  match ← authorForm.read "an author predicate" levels outline with
  | [.str feed, .bool dedicated] => .ok (.author feed dedicated)
  | _ => .error (outline.mismatch "an author predicate")

def readType (levels : Nat) (outline : Outline) : Except Fault Operator := do
  match ← typeForm.read "a type predicate" levels outline with
  | [.null, .bool dedicated] => .ok (.type none dedicated)
  | [.str name, .bool dedicated] => .ok (.type (some name) dedicated)
  | _ => .error (outline.mismatch "a type predicate")

-- A node without parts is named by a string.
def readName (token : Token) : Except Fault Operator :=
  match token.lexeme with
  | .string reading => do
    match ← Token.variant variantNames (← reading.needed) token.stop with
    | "IsPrivate" => .ok .isPrivate
    | "IsPublic" => .ok .isPublic
    | _ => .error (.mismatch (.kind "unit variant" "struct variant") token.stop)
  | _ => .error (.upon .noValue token.start)

mutual

-- Reads a tree back from its JSON.
def ofOutline (levels : Nat) : Outline → Except Fault Operator
  | .scalar token => readName token
  | .broken fault => .error fault
  | .list start _ => .error (.upon .noValue start)
  | .object start fields =>
    match levels with
    | 0 => .error (.upon .tooDeep start)
    | inner + 1 => ofFields inner fields

-- Reads the node of an object, whose only key is the name of the node.
def ofFields (levels : Nat) : Fields → Except Fault Operator
  | .field key _ value next more => do
    let operator ←
      match ← Token.variant variantNames (← key.name) key.stop with
      | "And" => (childrenOf levels value).map .and
      | "Or" => (childrenOf levels value).map .or
      | "AuthorPredicate" => readAuthor levels value
      | "TypePredicate" => readType levels value
      | "IsPrivate" => (value.readNull "unit").map fun _ => .isPrivate
      | _ => (value.readNull "unit").map fun _ => .isPublic
    more.finish next
    return operator
  | .close place => .error (Fields.noVariant (.close place))
  | .stuck gap => .error (Fields.noVariant (.stuck gap))
  | .noKey found => .error (Fields.noVariant (.noKey found))

-- Reads the parts of a combinator, which are its children alone.
def childrenOf (levels : Nat) : Outline → Except Fault (List Operator)
  | .object start fields =>
    match levels with
    | 0 => .error (.upon .tooDeep start)
    | inner + 1 => childrenIn inner none fields
  | .list start items =>
    match levels, items with
    | 0, _ => .error (.upon .tooDeep start)
    | _ + 1, .close => .error ⟨.mismatch (.length "children"), none⟩
    | _ + 1, .stuck gap => .error gap.inList
    | inner + 1, .item _ value more => do
      let children ← listOf inner value
      more.finish
      return children
  | .scalar token => .error (token.mismatch "a combinator")
  | .broken fault => .error fault

def childrenIn (levels : Nat) (seen : Option (List Operator)) :
    Fields → Except Fault (List Operator)
  | .close place =>
    match seen with
    | some children => .ok children
    | none => .error (.mismatch (.missingField "children") place)
  | .stuck gap => .error gap.inObject
  | .noKey found => .error (Token.noKeyFault found)
  | .field key _ value _ more => do
    let name ← key.name
    if name = "children" then
      if seen.isSome then .error (.mismatch (.repeatedField name) key.stop)
      else do
        let children ← listOf levels value
        childrenIn levels (some children) more
    else do
      value.skip
      childrenIn levels seen more

-- Reads a list of trees.
def listOf (levels : Nat) : Outline → Except Fault (List Operator)
  | .list start items =>
    match levels with
    | 0 => .error (.upon .tooDeep start)
    | inner + 1 => itemsOf inner items
  | .object start _ => .error (.mismatch (.kind "map" "a sequence") start)
  | .scalar token => .error (token.mismatch "a sequence")
  | .broken fault => .error fault

def itemsOf (levels : Nat) : Items → Except Fault (List Operator)
  | .close => .ok []
  | .stuck gap => .error gap.inList
  | .item _ value more => do
    let first ← ofOutline levels value
    let others ← itemsOf levels more
    return first :: others

end

def decode (text : String) : Except Complaint Operator :=
  Json.decode (ofOutline Json.nestingLimit) text

end FeedFilter.Operator
