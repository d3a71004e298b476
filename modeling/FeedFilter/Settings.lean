import FeedFilter.FeedRef
import FeedFilter.Json.Form

namespace FeedFilter

-- How the author of a flat query is checked: as a full feed reference, or for its sigil only.
inductive FeedCheck
  | ssb
  | sigil
deriving DecidableEq, Repr

namespace FeedCheck

def name : FeedCheck → String
  | .ssb => "ssb"
  | .sigil => "sigil"

def names : List String := ["ssb", "sigil"]

def ofName (name : String) : FeedCheck :=
  if name = "sigil" then .sigil else .ssb

def accepts : FeedCheck → String → Bool
  | .ssb => FeedRef.isReference
  | .sigil => FeedRef.hasSigil

-- Reads a check from its name, or from an object with the name as its key.
def ofOutline (levels : Nat) (outline : Outline) : Except Fault FeedCheck :=
  match levels, outline with
  | _, .scalar ⟨_, .string reading, stop⟩ => do
    return ofName (← Token.variant names (← reading.needed) stop)
  | _, .scalar token => .error (.upon .noValue token.start)
  | _, .list start _ => .error (.upon .noValue start)
  | _, .broken fault => .error fault
  | 0, .object start _ => .error (.upon .tooDeep start)
  | _ + 1, .object _ (.field key _ value next more) => do
    let check ← Token.variant names (← key.name) key.stop
    value.readNull "unit"
    more.finish next
    return ofName check
  | _ + 1, .object _ fields => .error fields.noVariant

end FeedCheck

-- What a service is set to. The defaults allow the least.
structure Settings where
  dedicated : Bool := false
  feedCheck : FeedCheck := .ssb
deriving DecidableEq, Repr

namespace Settings

def fieldNames : List String := ["dedicated", "feed_id_check"]

def toJson (settings : Settings) : Json :=
  .obj [("dedicated", .bool settings.dedicated), ("feed_id_check", .str settings.feedCheck.name)]

def text (settings : Settings) : String :=
  settings.toJson.compact

-- The place at which a field that must not be there is reported: where the text goes on after its
-- key, and behind the closing bracket if that is how it goes on.
def placeAfter (colon : Option Token) : Option Nat :=
  colon.map fun token => if token.lexeme.isCloseObject then token.stop else token.start

-- Reads the fields in any order, each at most once and no others.
def ofFields (levels : Nat) (dedicated : Option Bool) (feedCheck : Option FeedCheck) :
    Fields → Except Fault Settings
  | .close _ => .ok ⟨dedicated.getD false, feedCheck.getD .ssb⟩
  | .stuck gap => .error gap.inObject
  | .noKey found => .error (Token.noKeyFault found)
  | .field key colon value _ more => do
    let name ← key.name
    if name = "dedicated" then
      if dedicated.isSome then .error ⟨.mismatch (.repeatedField name), placeAfter colon⟩
      else do
        let flag ← value.readFlag
        ofFields levels (some flag) feedCheck more
    else if name = "feed_id_check" then
      if feedCheck.isSome then .error ⟨.mismatch (.repeatedField name), placeAfter colon⟩
      else do
        let check ← FeedCheck.ofOutline levels value
        ofFields levels dedicated (some check) more
    else .error ⟨.mismatch (.unknownField name fieldNames), placeAfter colon⟩

-- Reads the values of the fields in order; the last ones may be left out.
def ofItems (levels : Nat) : Items → Except Fault Settings
  | .close => .ok {}
  | .stuck gap => .error gap.inList
  | .item _ first more => do
    let dedicated ← first.readFlag
    match more with
    | .close => .ok { dedicated }
    | .stuck gap => .error gap.inList
    | .item _ second more => do
      let feedCheck ← FeedCheck.ofOutline levels second
      more.finish
      return { dedicated, feedCheck }

def ofOutline (levels : Nat) (outline : Outline) : Except Fault Settings :=
  match levels, outline with
  | 0, .object start _ => .error (.upon .tooDeep start)
  | 0, .list start _ => .error (.upon .tooDeep start)
  | inner + 1, .object _ fields => ofFields inner none none fields
  | inner + 1, .list _ items => ofItems inner items
  | _, _ => .error (outline.mismatch "struct CompilerConfig")

def decode (text : String) : Except Complaint Settings :=
  Json.decode (ofOutline Json.nestingLimit) text

end Settings

-- Why a file cannot be read as text.
inductive FileFailure
  | notFound
  | forbidden
  | notDirectory
  | isDirectory
  | nameTooLong
  | notText
  | other (reason : String)
deriving DecidableEq, Repr

def FileFailure.message : FileFailure → String
  | .notFound => "No such file or directory (os error 2)"
  | .forbidden => "Permission denied (os error 13)"
  | .notDirectory => "Not a directory (os error 20)"
  | .isDirectory => "Is a directory (os error 21)"
  | .nameTooLong => "File name too long (os error 36)"
  | .notText => "stream did not contain valid UTF-8"
  | .other reason => reason

inductive SettingsError
  | file (failure : FileFailure)
  | text (complaint : Complaint)
deriving DecidableEq, Repr

namespace SettingsError

def reason : SettingsError → String
  | .file failure => failure.message
  | .text complaint => complaint.message

def message : SettingsError → String
  | .file failure => "IO error: " ++ failure.message
  | .text complaint => "Parse error: " ++ complaint.message

end SettingsError

-- The text of a file or of standard input, given as bytes.
def FileFailure.textOf (bytes : ByteArray) : Except FileFailure String :=
  match String.fromUTF8? bytes with
  | some text => .ok text
  | none => .error .notText

-- Settings from the contents of a file.
def Settings.ofFile (contents : Except FileFailure ByteArray) : Except SettingsError Settings :=
  match contents >>= FileFailure.textOf with
  | .error failure => .error (.file failure)
  | .ok text => (decode text).mapError .text

end FeedFilter
