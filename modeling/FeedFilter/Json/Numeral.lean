import FeedFilter.Json.Basic
import FeedFilter.Json.Fault
import FeedFilter.Text.Bytes

namespace FeedFilter

-- A numeral by its parts: the digits before the point, those after it, and those of the exponent
-- with its sign. A part that is not there has no digits.
structure Numeral where
  negative : Bool
  whole : List Char
  fraction : List Char
  shrinking : Bool
  exponent : List Char
deriving DecidableEq, Repr

namespace Numeral

open FeedFilter.Text (bytes bytes_cons bytes_dropWhile_le)

def digitValue (c : Char) : Nat :=
  c.toNat - '0'.toNat

def isDigitFirst : List Char → Bool
  | [] => false
  | c :: _ => c.isDigit

-- What a numeral lacks at `place`: more text, or a digit where something else stands.
def lack (place : Nat) : List Char → Fault
  | [] => .atEnd .endInValue
  | _ :: _ => .upon .badNumber place

-- The digits up to the first other character; there has to be one.
def scanDigits (place : Nat) (cs : List Char) : Except Fault (List Char × List Char) :=
  if isDigitFirst cs then .ok (cs.takeWhile Char.isDigit, cs.dropWhile Char.isDigit)
  else .error (lack place cs)

-- The digits before the point: a zero on its own or any that begin otherwise.
def scanWhole (place : Nat) (cs : List Char) : Except Fault (List Char × List Char) :=
  match cs with
  | '0' :: rest =>
    if isDigitFirst rest then .error (.upon .badNumber (place + 1)) else .ok (['0'], rest)
  | _ => scanDigits place cs

def scanFraction (place : Nat) (cs : List Char) : Except Fault (List Char × List Char) :=
  match cs with
  | '.' :: rest => scanDigits (place + 1) rest
  | _ => .ok ([], cs)

-- A sign before the digits of an exponent: whether it is a minus, and how long it is.
def scanSign : List Char → Bool × Nat × List Char
  | '-' :: rest => (true, 1, rest)
  | '+' :: rest => (false, 1, rest)
  | cs => (false, 0, cs)

-- The exponent: its sign, the length of its mark and sign, and its digits.
def scanExponent (place : Nat) (cs : List Char) :
    Except Fault (Bool × Nat × List Char × List Char) :=
  match cs with
  | c :: rest =>
    if c = 'e' ∨ c = 'E' then
      let (shrinking, width, digits) := scanSign rest
      (scanDigits (place + 1 + width) digits).map fun found => (shrinking, 1 + width, found)
    else .ok (false, 0, [], cs)
  | [] => .ok (false, 0, [], [])

-- Reads a numeral that begins at `place`, and gives the place after it and the characters there.
def scan (place : Nat) (cs : List Char) : Except Fault (Numeral × Nat × List Char) := do
  let negative := cs.head? = some '-'
  let cs := if negative then cs.drop 1 else cs
  let place := if negative then place + 1 else place
  let (whole, cs) ← scanWhole place cs
  let place := place + whole.length
  let (fraction, cs) ← scanFraction place cs
  let place := if fraction = [] then place else place + 1 + fraction.length
  let (shrinking, mark, exponent, cs) ← scanExponent place cs
  return (⟨negative, whole, fraction, shrinking, exponent⟩, place + mark + exponent.length, cs)

theorem bytes_scanDigits {place : Nat} {cs : List Char} {found : List Char × List Char}
    (h : scanDigits place cs = .ok found) : bytes found.2 < bytes cs := by
  cases cs with
  | nil => simp [scanDigits, isDigitFirst] at h
  | cons c rest =>
    unfold scanDigits at h
    split at h
    case isFalse => cases h
    case isTrue hdigit =>
      cases h
      have hc : c.isDigit = true := hdigit
      have := c.utf8Size_pos
      have := bytes_dropWhile_le Char.isDigit rest
      simp only [List.dropWhile_cons, hc, if_true, bytes_cons]
      omega

theorem bytes_scanWhole {place : Nat} {cs : List Char} {found : List Char × List Char}
    (h : scanWhole place cs = .ok found) : bytes found.2 < bytes cs := by
  unfold scanWhole at h
  split at h
  case h_1 rest =>
    split at h <;> cases h
    simp only [bytes_cons]
    have := Char.utf8Size_pos '0'
    omega
  case h_2 => exact bytes_scanDigits h

theorem bytes_scanFraction {place : Nat} {cs : List Char} {found : List Char × List Char}
    (h : scanFraction place cs = .ok found) : bytes found.2 ≤ bytes cs := by
  unfold scanFraction at h
  split at h
  case h_1 rest =>
    have := bytes_scanDigits h
    simp only [bytes_cons]
    omega
  case h_2 => cases h; exact Nat.le_refl _

theorem bytes_scanSign (cs : List Char) : bytes (scanSign cs).2.2 ≤ bytes cs := by
  unfold scanSign
  split <;> simp

theorem bytes_scanExponent {place : Nat} {cs : List Char}
    {found : Bool × Nat × List Char × List Char}
    (h : scanExponent place cs = .ok found) : bytes found.2.2.2 ≤ bytes cs := by
  unfold scanExponent at h
  split at h
  case h_1 c rest =>
    split at h
    case isTrue =>
      have hsign := bytes_scanSign rest
      cases hdigits : scanDigits (place + 1 + (scanSign rest).2.1) (scanSign rest).2.2 with
      | error fault => simp [hdigits, Except.map] at h
      | ok digits =>
        simp only [hdigits, Except.map, Except.ok.injEq] at h
        subst h
        have := bytes_scanDigits hdigits
        simp only [bytes_cons]
        omega
    case isFalse => cases h; exact Nat.le_refl _
  case h_2 => cases h; exact Nat.le_refl _

-- A numeral is not empty.
theorem bytes_scan {place : Nat} {cs : List Char} {found : Numeral × Nat × List Char}
    (h : scan place cs = .ok found) : bytes found.2.2 < bytes cs := by
  have hdrop : bytes (if cs.head? = some '-' then cs.drop 1 else cs) ≤ bytes cs := by
    split
    · cases cs <;> simp
    · exact Nat.le_refl _
  simp only [scan, bind, Except.bind, pure, Except.pure] at h
  split at h
  · cases h
  · next whole hwhole =>
    split at h
    · cases h
    · next fraction hfraction =>
      split at h
      · cases h
      · next exponent hexponent =>
        cases h
        exact Nat.lt_of_le_of_lt (bytes_scanExponent hexponent)
          (Nat.lt_of_le_of_lt (bytes_scanFraction hfraction)
            (Nat.lt_of_lt_of_le (bytes_scanWhole hwhole) hdrop))

-- Takes digits on as long as the number of them fits 64 bits, and gives back those left over.
def absorb (found : Nat) : List Char → Nat × List Char
  | [] => (found, [])
  | c :: rest =>
    let next := found * 10 + digitValue c
    if next < Nat.pow 2 64 then absorb next rest else (found, c :: rest)

-- The value of exponent digits. It has to fit 32 bits with a sign; otherwise the number of digits
-- after the first that is too many is given.
def exponentValue (found : Nat) : List Char → Except Nat Nat
  | [] => .ok found
  | c :: rest =>
    let next := found * 10 + digitValue c
    if next < Nat.pow 2 31 then exponentValue next rest else .error rest.length

def powerOfTen (exponent : Nat) : Float :=
  Float.ofScientific 1 false exponent

-- Divides by a power of ten, in steps that a float can hold.
def shrink (value : Float) (exponent : Nat) : Float :=
  if exponent ≤ 308 then value / powerOfTen exponent
  else if value == 0 then value
  else shrink (value / powerOfTen 308) (exponent - 308)
termination_by exponent

-- The float next to `significand * 10 ^ exponent`, up to the rounding of each step; none if it is
-- too great.
def toFloat? (significand : Nat) (exponent : Int) : Option Float :=
  let value := significand.toUInt64.toFloat
  if exponent < 0 then some (shrink value exponent.natAbs)
  else if exponent ≤ 308 then
    let product := value * powerOfTen exponent.natAbs
    if product.isInf then none else some product
  else if significand = 0 then some value
  else none

def signed (numeral : Numeral) (value : Float) : Number :=
  .float (if numeral.negative then -value else value)

-- The number as a float. Digits that do not fit 64 bits together with those before them are
-- dropped; those before the point still count as a power of ten. Numbers that are too great are
-- refused with the number of characters after the one that shows it.
def floatValue (numeral : Numeral) : Except Nat Number :=
  let (whole, dropped) := absorb 0 numeral.whole
  let (significand, unused) := absorb whole numeral.fraction
  let scale : Int := (dropped.length : Int) - ((numeral.fraction.length - unused.length : Nat) : Int)
  match exponentValue 0 numeral.exponent with
  | .error left =>
    if significand ≠ 0 && !numeral.shrinking then .error left
    else .ok (numeral.signed 0)
  | .ok exponent =>
    match toFloat? significand (if numeral.shrinking then scale - exponent else scale + exponent) with
    | none => .error 0
    | some value => .ok (numeral.signed value)

def wholeValue (digits : List Char) : Nat :=
  Nat.ofDigitChars 10 digits 0

-- The number: an integer if there are no more than digits before the point and it fits 64 bits,
-- else a float. Zero with a minus sign is a float, for only floats have such a zero.
def value (numeral : Numeral) : Except Nat Number :=
  let magnitude : Int := wholeValue numeral.whole
  let integer : Int := if numeral.negative then -magnitude else magnitude
  if numeral.fraction = [] ∧ numeral.exponent = [] ∧ ¬(numeral.negative ∧ integer = 0) then
    if inRange : Number.InRange integer then .ok (.int integer inRange)
    else numeral.floatValue
  else numeral.floatValue

end Numeral

end FeedFilter
