import FeedFilter.Json.Token
import FeedFilter.Proofs.Json.Literal
import FeedFilter.Proofs.Json.Numeral

namespace FeedFilter

-- A string and a number that can be read.
def Lexeme.ofText (text : String) : Lexeme := .string ⟨.ok text, none⟩

def Lexeme.ofNumber (number : Number) : Lexeme := .number ⟨.ok number, none⟩

namespace Token

theorem afterKeyword_append (place : Nat) (word cs : List Char) :
    afterKeyword place word (word ++ cs) = .ok cs := by
  induction word generalizing place with
  | nil => rfl
  | cons c word ih => rw [List.cons_append, afterKeyword, if_pos rfl, ih]

theorem ofKeyword_append (place : Nat) (lexeme : Lexeme) (word cs : List Char) :
    ofKeyword place lexeme word (word ++ cs) = (⟨place, lexeme, place + 1 + word.length⟩, cs) := by
  rw [ofKeyword, afterKeyword_append]

theorem ofLiteral_spelling {text cs : List Char} (h : Literal.Spelling text cs) (place : Nat)
    (rest : List Char) :
    ∃ stop, ofLiteral place (cs ++ '"' :: rest) =
      (⟨place, .ofText (String.ofList text), stop⟩, rest) := by
  obtain ⟨stop, hstop⟩ := Literal.read_spelling h rest (place + 1)
  refine ⟨stop, ?_⟩
  rw [ofLiteral, hstop]
  rfl

theorem ofNumeral_spelling {numeral : Numeral} {number : Number} {cs rest : List Char}
    (hvalue : numeral.value = .ok number) (h : Numeral.Spelling numeral cs)
    (hends : Numeral.Ends rest) (place : Nat) :
    ∃ stop, ofNumeral place (cs ++ rest) = (⟨place, .ofNumber number, stop⟩, rest) := by
  obtain ⟨stop, hstop⟩ := Numeral.scan_spelling h hends place
  refine ⟨stop, ?_⟩
  rw [ofNumeral, hstop]
  simp only [hvalue]
  rfl

theorem ne_of_numeral {c mark : Char} (h : c = '-' ∨ c.isDigit = true)
    (hmark : mark ≠ '-' ∧ mark.isDigit = false) : c ≠ mark := by
  rintro rfl
  rcases h with h | h
  · exact hmark.1 h
  · rw [hmark.2] at h
    cases h

theorem first_numeral (place : Nat) {c : Char} (cs : List Char) (h : c = '-' ∨ c.isDigit = true) :
    first place c cs = ofNumeral place (c :: cs) := by
  have hne : ∀ {mark : Char}, mark ≠ '-' ∧ mark.isDigit = false → c ≠ mark := ne_of_numeral h
  rw [first, if_neg (hne (by decide)), if_neg (hne (by decide)), if_neg (hne (by decide)),
    if_neg (hne (by decide)), if_neg (hne (by decide)), if_neg (hne (by decide)),
    if_neg (hne (by decide)), if_pos h]

theorem isSpacing_numeral {c : Char} (h : c = '-' ∨ c.isDigit = true) : isSpacing c = false := by
  have hne : ∀ {mark : Char}, mark ≠ '-' ∧ mark.isDigit = false → c ≠ mark := ne_of_numeral h
  simp only [isSpacing, Bool.or_eq_false_iff, decide_eq_false_iff_not]
  exact ⟨⟨⟨hne (by decide), hne (by decide)⟩, hne (by decide)⟩, hne (by decide)⟩

theorem isSpacing_iff_mem {c : Char} :
    isSpacing c = true ↔ c ∈ [' ', '\t', '\n', '\r'] := by
  simp [isSpacing, or_assoc]

end Token

-- The characters have these lexemes, wherever in a text they stand.
def Lexes (cs : List Char) (lexemes : List Lexeme) : Prop :=
  ∀ place, (tokens place cs).map Token.lexeme = lexemes

namespace Lexes

variable {cs rest : List Char} {lexemes : List Lexeme}

theorem nil : Lexes [] [] := by
  intro place
  rw [tokens]
  rfl

theorem space {c : Char} (hc : Token.isSpacing c = true) (h : Lexes cs lexemes) :
    Lexes (c :: cs) lexemes := by
  intro place
  rw [tokens, if_pos hc]
  exact h (place + 1)

theorem cons {c : Char} {lexeme : Lexeme} (hc : Token.isSpacing c = false)
    (hfirst : ∀ place, ∃ start stop, Token.first place c cs = (⟨start, lexeme, stop⟩, rest))
    (h : Lexes rest lexemes) : Lexes (c :: cs) (lexeme :: lexemes) := by
  intro place
  obtain ⟨start, stop, hplace⟩ := hfirst place
  rw [tokens, if_neg (by simp [hc]), hplace, List.map_cons, h stop]

end Lexes

-- The ways to write one lexeme.
inductive Lexeme.Spelling : Lexeme → List Char → Prop
  | openList : Spelling .openList ['[']
  | closeList : Spelling .closeList [']']
  | openObject : Spelling .openObject ['{']
  | closeObject : Spelling .closeObject ['}']
  | comma : Spelling .comma [',']
  | colon : Spelling .colon [':']
  | null : Spelling .null ['n', 'u', 'l', 'l']
  | true : Spelling (.bool Bool.true) ['t', 'r', 'u', 'e']
  | false : Spelling (.bool Bool.false) ['f', 'a', 'l', 's', 'e']
  | text {text cs : List Char} (h : Literal.Spelling text cs) :
      Spelling (.ofText (String.ofList text)) ('"' :: (cs ++ ['"']))
  | number {numeral : Numeral} {number : Number} {cs : List Char}
      (hvalue : numeral.value = .ok number) (h : Numeral.Spelling numeral cs) :
      Spelling (.ofNumber number) cs

-- A printer escapes a text in one of the ways in which it can be written.
theorem Lexeme.spelling_literalChars (text : String) :
    Spelling (.ofText text) (literalChars text) := by
  have h := Spelling.text (Literal.spelling_escaped text.toList)
  rwa [String.ofList_toList] at h

theorem Lexeme.spelling_intChars (value : Int) (inRange : Number.InRange value) :
    Spelling (.ofNumber (.int value inRange)) (Number.intChars value) :=
  .number (Numeral.value_ofInt value inRange) (Numeral.spelling_ofInt value)

def Lexeme.isNumber : Lexeme → Bool
  | .number _ => true
  | _ => false

-- However a lexeme is written, it is found. What follows a number must not go on with it.
theorem Lexes.spelling {lexeme : Lexeme} {chars cs : List Char} {lexemes : List Lexeme}
    (h : lexeme.Spelling chars) (hends : lexeme.isNumber = true → Numeral.Ends cs)
    (hrest : Lexes cs lexemes) : Lexes (chars ++ cs) (lexeme :: lexemes) := by
  cases h with
  | openList | closeList | openObject | closeObject | comma | colon =>
    exact cons rfl (fun _ => ⟨_, _, rfl⟩) hrest
  | null =>
    exact cons rfl (fun place => ⟨_, _, Token.ofKeyword_append place .null ['u', 'l', 'l'] cs⟩) hrest
  | true =>
    exact cons rfl
      (fun place => ⟨_, _, Token.ofKeyword_append place (.bool Bool.true) ['r', 'u', 'e'] cs⟩) hrest
  | false =>
    exact cons rfl
      (fun place => ⟨_, _, Token.ofKeyword_append place (.bool Bool.false) ['a', 'l', 's', 'e'] cs⟩)
      hrest
  | text hspelling =>
    rw [List.cons_append, List.append_assoc, List.singleton_append]
    exact cons rfl (fun place => ⟨place, Token.ofLiteral_spelling hspelling place cs⟩) hrest
  | number hvalue hspelling =>
    have hscan := Token.ofNumeral_spelling hvalue hspelling (hends rfl)
    obtain ⟨c, digits, rfl, hc⟩ := hspelling.eq_cons
    refine cons (Token.isSpacing_numeral hc) (fun place => ?_) hrest
    obtain ⟨stop, hstop⟩ := hscan place
    exact ⟨place, stop, (Token.first_numeral place (digits ++ cs) hc).trans hstop⟩

end FeedFilter
