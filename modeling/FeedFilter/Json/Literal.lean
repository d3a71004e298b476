import FeedFilter.Fallible
import FeedFilter.Json.Fault
import FeedFilter.Text.Bytes

namespace FeedFilter.Literal

open FeedFilter.Text (bytes bytes_cons bytes_nil length_le_bytes)

def hexValue? (c : Char) : Option Nat :=
  if '0' ≤ c ∧ c ≤ '9' then some (c.toNat - 48)
  else if 'a' ≤ c ∧ c ≤ 'f' then some (c.toNat - 87)
  else if 'A' ≤ c ∧ c ≤ 'F' then some (c.toNat - 55)
  else none

-- The 16-bit unit that four hexadecimal digits denote.
def unit? (a b c d : Char) : Option Nat := do
  let a ← hexValue? a
  let b ← hexValue? b
  let c ← hexValue? c
  let d ← hexValue? d
  return ((a * 16 + b) * 16 + c) * 16 + d

def isHigh (unit : Nat) : Bool := 0xD800 ≤ unit && unit < 0xDC00

def isLow (unit : Nat) : Bool := 0xDC00 ≤ unit && unit < 0xE000

-- The character beyond the first plane that a high and a low unit stand for together.
def pair (high low : Nat) : Char :=
  Char.ofNat (0x10000 + (high - 0xD800) * 0x400 + (low - 0xDC00))

-- What the character after a backslash stands for, unless it begins a unit.
def escape? : Char → Option Char
  | '"' => some '"'
  | '\\' => some '\\'
  | '/' => some '/'
  | 'b' => some '\x08'
  | 'f' => some '\x0c'
  | 'n' => some '\n'
  | 'r' => some '\r'
  | 't' => some '\t'
  | _ => none

-- A unit that begins at `place` takes four bytes, whatever characters they belong to.
def unitFault (place : Nat) (rest : List Char) : Fault :=
  if bytes rest < 4 then .atEnd .endInString
  else .before .badEscape (place + 4)

-- The text of a literal, the place after its closing quote and the characters from there on.
abbrev Reading := List Char × Nat × List Char

def Reading.push (c : Char) (reading : Reading) : Reading :=
  (c :: reading.1, reading.2)

-- Reads a literal from after its opening quote, which is at `place`. A high unit that has been
-- read waits in `high` for its low one, which must come next.
def read (high : Option Nat) (place : Nat) : List Char → Except Fault Reading
  | [] => .error (.atEnd .endInString)
  | ['\\'] => .error (.atEnd .endInString)
  | '\\' :: 'u' :: a :: b :: c :: d :: rest =>
    match unit? a b c d with
    | none => .error (unitFault (place + 2) (a :: b :: c :: d :: rest))
    | some unit =>
      match high with
      | none =>
        if isHigh unit then read (some unit) (place + 6) rest
        else if isLow unit then .error (.before .loneSurrogate (place + 6))
        else (read none (place + 6) rest).map (.push (Char.ofNat unit))
      | some first =>
        if isLow unit then (read none (place + 6) rest).map (.push (pair first unit))
        else .error (.before .loneSurrogate (place + 6))
  | '\\' :: 'u' :: rest => .error (unitFault (place + 2) rest)
  | '\\' :: c :: rest =>
    if high.isSome then .error (.before .halfPair (place + 2))
    else
      match escape? c with
      | none => .error (.before .badEscape (place + 2))
      | some meant => (read none (place + 2) rest).map (.push meant)
  | c :: rest =>
    if high.isSome then .error (.before .halfPair (place + 1))
    else if c = '"' then .ok ([], place + 1, rest)
    else if c < ' ' then .error (.before .controlCharacter (place + 1))
    else (read none (place + c.utf8Size) rest).map (.push c)

-- Finds the end of a literal whose text is not wanted. Units need not pair up for that.
def skip (place : Nat) : List Char → Except Fault (Nat × List Char)
  | [] => .error (.atEnd .endInString)
  | ['\\'] => .error (.atEnd .endInString)
  | '\\' :: 'u' :: a :: b :: c :: d :: rest =>
    if (unit? a b c d).isSome then skip (place + 6) rest
    else .error (unitFault (place + 2) (a :: b :: c :: d :: rest))
  | '\\' :: 'u' :: rest => .error (unitFault (place + 2) rest)
  | '\\' :: c :: rest =>
    if (escape? c).isSome then skip (place + 2) rest
    else .error (.before .badEscape (place + 2))
  | c :: rest =>
    if c = '"' then .ok (place + 1, rest)
    else if c < ' ' then .error (.before .controlCharacter (place + 1))
    else skip (place + c.utf8Size) rest

theorem utf8Size_of_escape {c meant : Char} (h : escape? c = some meant) : meant.utf8Size = 1 := by
  unfold escape? at h
  split at h <;> cases h <;> rfl

-- A literal is longer than its text: an escape is never shorter than the character it stands
-- for, and the closing quote is no part of the text.
theorem bytes_read {high : Option Nat} {place : Nat} {cs : List Char} {reading : Reading}
    (h : read high place cs = .ok reading) :
    bytes reading.1 + bytes reading.2.2 < bytes cs := by
  fun_induction read high place cs generalizing reading
  case case4 a b c d rest unit hunit hhigh ih =>
    have := ih h
    simp only [bytes_cons]
    omega
  case case6 a b c d rest unit hunit hhigh hlow ih =>
    obtain ⟨found, hfound, rfl⟩ := Except.map_eq_ok h
    have := ih hfound
    have := length_le_bytes [a, b, c, d]
    have := (Char.ofNat unit).utf8Size_le_four
    simp only [Reading.push, bytes_cons, bytes_nil, List.length_cons, List.length_nil] at *
    omega
  case case7 a b c d rest unit hunit first hlow ih =>
    obtain ⟨found, hfound, rfl⟩ := Except.map_eq_ok h
    have := ih hfound
    have := length_le_bytes [a, b, c, d]
    have := (pair first unit).utf8Size_le_four
    simp only [Reading.push, bytes_cons, bytes_nil, List.length_cons, List.length_nil] at *
    omega
  case case12 c rest _ _ _ meant hmeant ih =>
    obtain ⟨found, hfound, rfl⟩ := Except.map_eq_ok h
    have := ih hfound
    have := utf8Size_of_escape hmeant
    have := c.utf8Size_pos
    have := Char.utf8Size_pos '\\'
    simp only [Reading.push, bytes_cons] at *
    omega
  case case14 rest _ _ _ _ _ =>
    cases h
    simp only [bytes_cons, bytes_nil]
    have := Char.utf8Size_pos '"'
    omega
  case case16 c rest _ _ _ _ _ _ _ ih =>
    obtain ⟨found, hfound, rfl⟩ := Except.map_eq_ok h
    have := ih hfound
    simp only [Reading.push, bytes_cons] at *
    omega
  all_goals cases h

theorem bytes_skip {place : Nat} {cs : List Char} {found : Nat × List Char}
    (h : skip place cs = .ok found) : bytes found.2 < bytes cs := by
  fun_induction skip place cs
  case case3 a b c d rest _ ih =>
    have := ih h
    simp only [bytes_cons]
    omega
  case case6 c rest _ _ _ ih =>
    have := ih h
    simp only [bytes_cons]
    omega
  case case8 rest _ _ _ _ =>
    cases h
    simp only [bytes_cons]
    have := Char.utf8Size_pos '"'
    omega
  case case10 c rest _ _ _ _ _ _ ih =>
    have := ih h
    simp only [bytes_cons]
    omega
  all_goals cases h

example : read none 1 ['\\', 'u', 'd', '8', '3', 'd', '\\', 'u', 'D', 'E', '0', '0', '"', ' ']
    = .ok (['😀'], 14, [' ']) := by rfl

-- A high unit on its own is no text, but the literal can still be skipped.
example : read none 1 ['\\', 'u', 'd', '8', '3', 'd', '"'] = .error (.before .halfPair 8)
    ∧ skip 1 ['\\', 'u', 'd', '8', '3', 'd', '"'] = .ok (8, []) := by exact ⟨rfl, rfl⟩

end FeedFilter.Literal
