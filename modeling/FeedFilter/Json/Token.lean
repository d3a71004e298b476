import FeedFilter.Json.Literal
import FeedFilter.Json.Numeral

namespace FeedFilter

open FeedFilter.Text (bytes bytes_cons bytes_nil utf8ByteSize_ofList)

-- What a literal or a numeral says to a reader that needs it, and the fault that stops even a
-- reader that only passes over it.
structure Reading (α : Type) where
  needed : Except Fault α
  skipped : Option Fault

inductive Lexeme
  | openList
  | closeList
  | openObject
  | closeObject
  | comma
  | colon
  | null
  | bool (value : Bool)
  | number (reading : Reading Number)
  | string (reading : Reading String)
  | misspelt (fault : Fault)
  | stray

-- A lexeme with the numbers of bytes up to its first and past its last byte.
structure Token where
  start : Nat
  lexeme : Lexeme
  stop : Nat

namespace Token

def isSpacing (c : Char) : Bool :=
  c = ' ' || c = '\t' || c = '\n' || c = '\r'

-- The characters after the rest of a keyword. The first wrong byte is consumed.
def afterKeyword (place : Nat) : List Char → List Char → Except Fault (List Char)
  | [], cs => .ok cs
  | _ :: _, [] => .error (.atEnd .endInValue)
  | expected :: word, c :: cs =>
    if c = expected then afterKeyword (place + 1) word cs else .error (.upon .noKeyword place)

-- A keyword by its first byte, which stands at `place`, and the rest of its spelling. After a
-- token that is not understood nothing more is looked at.
def ofKeyword (place : Nat) (lexeme : Lexeme) (word cs : List Char) : Token × List Char :=
  match afterKeyword (place + 1) word cs with
  | .ok rest => (⟨place, lexeme, place + 1 + word.length⟩, rest)
  | .error fault => (⟨place, .misspelt fault, place⟩, [])

-- The literal whose opening quote stands at `place`.
def ofLiteral (place : Nat) (cs : List Char) : Token × List Char :=
  match Literal.read none (place + 1) cs with
  | .ok (text, stop, rest) => (⟨place, .string ⟨.ok (String.ofList text), none⟩, stop⟩, rest)
  | .error fault =>
    match Literal.skip (place + 1) cs with
    | .ok (stop, rest) => (⟨place, .string ⟨.error fault, none⟩, stop⟩, rest)
    | .error skipped => (⟨place, .string ⟨.error fault, some skipped⟩, place⟩, [])

-- The numeral that begins at `place`. To a reader that passes over it, one that ends too early is
-- no different from any other bad one.
def ofNumeral (place : Nat) (cs : List Char) : Token × List Char :=
  match Numeral.scan place cs with
  | .ok (numeral, stop, rest) =>
    let needed := numeral.value.mapError fun left => .before .outOfRange (stop - left)
    (⟨place, .number ⟨needed, none⟩, stop⟩, rest)
  | .error fault =>
    (⟨place, .number ⟨.error fault, some { fault with cause := .badNumber }⟩, place⟩, [])

def ofMark (place : Nat) (lexeme : Lexeme) (cs : List Char) : Token × List Char :=
  (⟨place, lexeme, place + 1⟩, cs)

-- The token that begins with a character at `place`, and the characters after it.
def first (place : Nat) (c : Char) (cs : List Char) : Token × List Char :=
  if c = '[' then ofMark place .openList cs
  else if c = ']' then ofMark place .closeList cs
  else if c = '{' then ofMark place .openObject cs
  else if c = '}' then ofMark place .closeObject cs
  else if c = ',' then ofMark place .comma cs
  else if c = ':' then ofMark place .colon cs
  else if c = '"' then ofLiteral place cs
  else if c = '-' ∨ c.isDigit then ofNumeral place (c :: cs)
  else if c = 'n' then ofKeyword place .null ['u', 'l', 'l'] cs
  else if c = 't' then ofKeyword place (.bool true) ['r', 'u', 'e'] cs
  else if c = 'f' then ofKeyword place (.bool false) ['a', 'l', 's', 'e'] cs
  else (⟨place, .stray, place⟩, [])

-- How a token goes on from its first character.
inductive FirstView (place : Nat) (c : Char) (cs : List Char) : Token × List Char → Prop
  | openList (hc : c = '[') : FirstView place c cs (ofMark place .openList cs)
  | closeList (hc : c = ']') : FirstView place c cs (ofMark place .closeList cs)
  | openObject (hc : c = '{') : FirstView place c cs (ofMark place .openObject cs)
  | closeObject (hc : c = '}') : FirstView place c cs (ofMark place .closeObject cs)
  | comma (hc : c = ',') : FirstView place c cs (ofMark place .comma cs)
  | colon (hc : c = ':') : FirstView place c cs (ofMark place .colon cs)
  | literal (hc : c = '"') : FirstView place c cs (ofLiteral place cs)
  | numeral (hc : c = '-' ∨ c.isDigit = true) : FirstView place c cs (ofNumeral place (c :: cs))
  | null (hc : c = 'n') : FirstView place c cs (ofKeyword place .null ['u', 'l', 'l'] cs)
  | true (hc : c = 't') : FirstView place c cs (ofKeyword place (.bool true) ['r', 'u', 'e'] cs)
  | false (hc : c = 'f') :
      FirstView place c cs (ofKeyword place (.bool false) ['a', 'l', 's', 'e'] cs)
  | stray : FirstView place c cs (⟨place, .stray, place⟩, [])

theorem firstView (place : Nat) (c : Char) (cs : List Char) :
    FirstView place c cs (first place c cs) := by
  unfold first
  refine iteInduction .openList fun _ => ?_
  refine iteInduction .closeList fun _ => ?_
  refine iteInduction .openObject fun _ => ?_
  refine iteInduction .closeObject fun _ => ?_
  refine iteInduction .comma fun _ => ?_
  refine iteInduction .colon fun _ => ?_
  refine iteInduction .literal fun _ => ?_
  refine iteInduction .numeral fun _ => ?_
  refine iteInduction .null fun _ => ?_
  refine iteInduction .true fun _ => ?_
  exact iteInduction .false fun _ => .stray

-- The least number of bytes that a token takes: those of its text and two quotes for a literal
-- that can be read, and one for every other.
def weight (token : Token) : Nat :=
  match token.lexeme with
  | .string ⟨.ok text, _⟩ => text.utf8ByteSize + 2
  | _ => 1

theorem bytes_afterKeyword {place : Nat} {word cs rest : List Char}
    (h : afterKeyword place word cs = .ok rest) : bytes rest ≤ bytes cs := by
  fun_induction afterKeyword place word cs
  case case1 => cases h; exact Nat.le_refl _
  case case3 place word expected cs ih =>
    have := ih h
    simp only [bytes_cons]
    omega
  all_goals cases h

theorem weight_eq_one {token : Token} (h : ∀ reading, token.lexeme ≠ .string reading) :
    token.weight = 1 := by
  unfold weight
  split
  · next text skipped hlexeme => exact absurd hlexeme (h _)
  · rfl

theorem weight_ofMark {place : Nat} {lexeme : Lexeme} {cs : List Char}
    (h : ∀ reading, lexeme ≠ .string reading) :
    (ofMark place lexeme cs).1.weight + bytes (ofMark place lexeme cs).2 ≤ bytes cs + 1 := by
  have hweight : (ofMark place lexeme cs).1.weight = 1 := weight_eq_one h
  rw [hweight]
  exact Nat.le_of_eq (Nat.add_comm 1 (bytes cs))

theorem weight_ofKeyword {place : Nat} {lexeme : Lexeme} {word cs : List Char}
    (h : ∀ reading, lexeme ≠ .string reading) :
    (ofKeyword place lexeme word cs).1.weight + bytes (ofKeyword place lexeme word cs).2
      ≤ bytes cs + 1 := by
  unfold ofKeyword
  split
  · next rest hrest =>
    have hbytes := bytes_afterKeyword hrest
    have hweight : weight ⟨place, lexeme, place + 1 + word.length⟩ = 1 := weight_eq_one h
    simp only [hweight]
    omega
  · simp [weight]

theorem weight_ofLiteral (place : Nat) (cs : List Char) :
    (ofLiteral place cs).1.weight + bytes (ofLiteral place cs).2 ≤ bytes cs + 1 := by
  unfold ofLiteral
  split
  · next text stop rest hread =>
    have := Literal.bytes_read hread
    simp only [weight, utf8ByteSize_ofList] at this ⊢
    omega
  · split
    · next stop rest hskip =>
      have := Literal.bytes_skip hskip
      simp only [weight] at this ⊢
      omega
    · simp [weight]

theorem weight_ofNumeral (place : Nat) (c : Char) (cs : List Char) :
    (ofNumeral place (c :: cs)).1.weight + bytes (ofNumeral place (c :: cs)).2
      ≤ bytes (c :: cs) := by
  unfold ofNumeral
  split
  · next numeral stop rest hscan =>
    have := Numeral.bytes_scan hscan
    simp only [weight] at this ⊢
    omega
  · have := c.utf8Size_pos
    simp only [weight, bytes_nil, bytes_cons]
    omega

-- A token weighs no more than the bytes it takes from the text.
theorem weight_first (place : Nat) (c : Char) (cs : List Char) :
    (first place c cs).1.weight + bytes (first place c cs).2 ≤ bytes (c :: cs) := by
  have hroom : bytes cs + 1 ≤ bytes (c :: cs) := by
    have hpos := c.utf8Size_pos
    rw [bytes_cons]
    omega
  have hview := firstView place c cs
  generalize first place c cs = found at hview ⊢
  cases hview with
  | openList | closeList | openObject | closeObject | comma | colon =>
    exact Nat.le_trans (weight_ofMark (by intro reading h; cases h)) hroom
  | literal => exact Nat.le_trans (weight_ofLiteral place cs) hroom
  | numeral => exact weight_ofNumeral place c cs
  | null | true | false =>
    exact Nat.le_trans (weight_ofKeyword (by intro reading h; cases h)) hroom
  | stray =>
    simp only [weight, bytes_nil]
    omega

theorem weight_pos (token : Token) : 0 < token.weight := by
  unfold weight
  split <;> omega

end Token

-- The tokens of a text whose first character stands at `place`.
def tokens (place : Nat) (cs : List Char) : List Token :=
  match cs with
  | [] => []
  | c :: rest =>
    if Token.isSpacing c then tokens (place + 1) rest
    else (Token.first place c rest).1 ::
      tokens (Token.first place c rest).1.stop (Token.first place c rest).2
termination_by bytes cs
decreasing_by
  · have := c.utf8Size_pos
    simp only [bytes_cons]
    omega
  · have := Token.weight_first place c rest
    have := Token.weight_pos (Token.first place c rest).1
    omega

namespace Token

def weights : List Token → Nat
  | [] => 0
  | token :: rest => token.weight + weights rest

theorem weights_cons (token : Token) (rest : List Token) :
    weights (token :: rest) = token.weight + weights rest := rfl

theorem weights_tokens (place : Nat) (cs : List Char) : weights (tokens place cs) ≤ bytes cs := by
  fun_induction tokens place cs with
  | case1 => simp [weights]
  | case2 place c rest h ih =>
    simp only [bytes_cons]
    omega
  | case3 place c rest h ih =>
    have := weight_first place c rest
    rw [weights_cons]
    omega

end Token

end FeedFilter
