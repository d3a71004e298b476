import FeedFilter.Decimal.Shortest
import FeedFilter.Json.Basic

namespace FeedFilter

namespace Number

-- A decimal in positional notation while its point lies within or close to its digits, which
-- means from 1e-5 up to below 1e16, and in exponent notation beyond. Positional notation has at
-- least one digit after the point.
def scaledChars (value : Decimal.Scaled) : List Char :=
  let digits := Nat.toDigits 10 value.digits
  let point : Int := digits.length + value.exponent
  if 0 ≤ value.exponent && point ≤ 16 then
    digits ++ List.replicate value.exponent.toNat '0' ++ ['.', '0']
  else if 0 < point && point ≤ 16 then
    digits.take point.toNat ++ '.' :: digits.drop point.toNat
  else if -5 < point && point ≤ 0 then
    '0' :: '.' :: List.replicate (-point).toNat '0' ++ digits
  else
    let exponent := point - 1
    let fraction := if digits.length = 1 then [] else '.' :: digits.drop 1
    let sign := if exponent < 0 then '-' else '+'
    digits.take 1 ++ fraction ++ 'e' :: sign :: Nat.toDigits 10 exponent.natAbs

-- A finite float by its bits, of which the highest is its sign.
def floatChars (bits : Nat) : List Char :=
  let magnitude := bits % Nat.pow 2 63
  let chars := if magnitude = 0 then ['0', '.', '0'] else scaledChars (Decimal.shortest magnitude)
  if magnitude < bits then '-' :: chars else chars

def intChars (value : Int) : List Char :=
  if value < 0 then '-' :: Nat.toDigits 10 value.natAbs else Nat.toDigits 10 value.natAbs

def chars : Number → List Char
  | .int value _ => intChars value
  | .float value => floatChars value.toBits.toNat

def text (number : Number) : String :=
  String.ofList number.chars

end Number

-- A string literal escapes the quote, the backslash and the control characters below the space.
def escapedChar (c : Char) : List Char :=
  if c = '"' then ['\\', '"']
  else if c = '\\' then ['\\', '\\']
  else if c = '\x08' then ['\\', 'b']
  else if c = '\x0c' then ['\\', 'f']
  else if c = '\n' then ['\\', 'n']
  else if c = '\r' then ['\\', 'r']
  else if c = '\t' then ['\\', 't']
  else if c < ' ' then
    ['\\', 'u', '0', '0', Nat.digitChar (c.toNat / 16), Nat.digitChar (c.toNat % 16)]
  else [c]

def literalChars (text : String) : List Char :=
  '"' :: text.toList.flatMap escapedChar ++ ['"']

-- The blanks of a written value: `gap` stands before an item and before a closing bracket that is
-- not the first thing in its container, at the given depth, and `colon` after a colon.
structure Layout where
  gap : Nat → List Char
  colon : List Char

namespace Layout

def compact : Layout := ⟨fun _ => [], []⟩

-- One item a line, two spaces a level.
def indented : Layout := ⟨fun depth => '\n' :: List.replicate (2 * depth) ' ', [' ']⟩

mutual

def value (layout : Layout) (depth : Nat) : Json → List Char
  | .null => ['n', 'u', 'l', 'l']
  | .bool true => ['t', 'r', 'u', 'e']
  | .bool false => ['f', 'a', 'l', 's', 'e']
  | .num number => number.chars
  | .str text => literalChars text
  | .arr items =>
    match items with
    | [] => ['[', ']']
    | item :: rest =>
      '[' :: layout.gap (depth + 1) ++ layout.value (depth + 1) item ++ layout.items depth rest
  | .obj members =>
    match members with
    | [] => ['{', '}']
    | (key, item) :: rest =>
      '{' :: layout.gap (depth + 1) ++ literalChars key ++ ':' :: layout.colon
        ++ layout.value (depth + 1) item ++ layout.members depth rest

-- What follows the first item of a list, to the end of the list.
def items (layout : Layout) (depth : Nat) : List Json → List Char
  | [] => layout.gap depth ++ [']']
  | item :: rest =>
    ',' :: layout.gap (depth + 1) ++ layout.value (depth + 1) item ++ layout.items depth rest

-- What follows the first member of an object, to the end of the object.
def members (layout : Layout) (depth : Nat) : List (String × Json) → List Char
  | [] => layout.gap depth ++ ['}']
  | (key, item) :: rest =>
    ',' :: layout.gap (depth + 1) ++ literalChars key ++ ':' :: layout.colon
      ++ layout.value (depth + 1) item ++ layout.members depth rest

end

end Layout

namespace Json

def compact (json : Json) : String :=
  String.ofList (Layout.compact.value 0 json)

def indented (json : Json) : String :=
  String.ofList (Layout.indented.value 0 json)

end Json

example : Json.compact (.obj [("a", .arr [.null, .bool true]), ("b", .str "\n")])
    = r#"{"a":[null,true],"b":"\n"}"# := by decide +kernel

example : Json.indented (.arr [.arr [], .str ""]) = "[\n  [],\n  \"\"\n]" := by decide +kernel

-- One tenth of a thousandth, ten to the fifteenth and ten to the sixteenth.
example : Number.floatChars 0x3F1A36E2EB1C432D = ['0', '.', '0', '0', '0', '1'] := by
  decide +kernel

example : Number.floatChars 0x430C6BF526340000
    = ['1'] ++ List.replicate 15 '0' ++ ['.', '0'] := by decide +kernel

example : Number.floatChars 0xC341C37937E08000 = ['-', '1', 'e', '+', '1', '6'] := by
  decide +kernel

end FeedFilter
