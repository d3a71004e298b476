import FeedFilter.Proofs.Json.Outline
import Mathlib.Data.List.Chain

namespace FeedFilter

-- The characters are these lexemes one after the other, with any spacing before, between and
-- after them.
inductive Spaced : List Lexeme → List Char → Prop
  | nil : Spaced [] []
  | space {c : Char} {lexemes : List Lexeme} {cs : List Char}
      (hc : c ∈ [' ', '\t', '\n', '\r']) (h : Spaced lexemes cs) : Spaced lexemes (c :: cs)
  | lexeme {lexeme : Lexeme} {chars : List Char} {lexemes : List Lexeme} {cs : List Char}
      (hfirst : lexeme.Spelling chars) (h : Spaced lexemes cs) :
      Spaced (lexeme :: lexemes) (chars ++ cs)

-- A text for a value: its lexemes in any of their spellings, spaced in any way.
def Json.SpelledBy (json : Json) (text : String) : Prop :=
  Spaced json.lexemes text.toList

-- The lexemes that stand between values and after them.
def Lexeme.isSeparator : Lexeme → Bool
  | .comma => true
  | .closeList => true
  | .closeObject => true
  | _ => false

-- What stands after a number, if anything does, keeps it from running on.
def Lexeme.Separated (lexemes : List Lexeme) : Prop :=
  lexemes.IsChain fun lexeme next => lexeme.isNumber = true → next.isSeparator = true

namespace Spaced

variable {cs : List Char} {lexemes : List Lexeme}

theorem ends_of_spelling {lexeme : Lexeme} {chars : List Char} (h : lexeme.Spelling chars)
    (hseparator : lexeme.isSeparator = true) (rest : List Char) :
    Numeral.Ends (chars ++ rest) := by
  cases h with
  | comma | closeList | closeObject => exact Numeral.ends_cons rest (by decide)
  | _ => cases hseparator

theorem ends (h : Spaced lexemes cs)
    (hseparator : ∀ lexeme ∈ lexemes.head?, lexeme.isSeparator = true) : Numeral.Ends cs := by
  induction h with
  | nil => exact Numeral.ends_nil
  | @space c _ cs hc _ _ =>
    simp only [List.mem_cons, List.not_mem_nil, or_false] at hc
    rcases hc with rfl | rfl | rfl | rfl
    all_goals exact Numeral.ends_cons cs (by decide)
  | @lexeme lexeme _ _ cs hfirst _ _ =>
    exact ends_of_spelling hfirst (hseparator lexeme rfl) cs

-- However lexemes are written and spaced, they are found.
theorem lexes (h : Spaced lexemes cs) (hseparated : Lexeme.Separated lexemes) :
    Lexes cs lexemes := by
  induction h with
  | nil => exact Lexes.nil
  | space hc _ ih => exact Lexes.space (Token.isSpacing_iff_mem.mpr hc) (ih hseparated)
  | lexeme hfirst hrest ih =>
    obtain ⟨hnext, htail⟩ := List.isChain_cons.mp hseparated
    refine Lexes.spelling hfirst (fun hnumber => ?_) (ih htail)
    exact hrest.ends fun next hmem => hnext next hmem hnumber

theorem blank {gap : List Char} (hgap : ∀ c ∈ gap, Token.isSpacing c = true)
    (h : Spaced lexemes cs) : Spaced lexemes (gap ++ cs) := by
  induction gap with
  | nil => exact h
  | cons c gap ih =>
    have hrest := ih fun other hother => hgap other (List.mem_cons_of_mem c hother)
    exact .space (Token.isSpacing_iff_mem.mp (hgap c (by simp))) hrest

end Spaced

namespace Lexeme

-- Lexemes before which a number may stand.
def Closing (lexemes : List Lexeme) : Prop :=
  Separated lexemes ∧ ∀ lexeme ∈ lexemes.head?, lexeme.isSeparator = true

theorem Separated.cons {lexeme : Lexeme} {lexemes : List Lexeme} (h : Separated lexemes)
    (hlexeme : lexeme.isNumber = false) : Separated (lexeme :: lexemes) :=
  List.isChain_cons.mpr ⟨fun _ _ hnumber => absurd (hlexeme.symm.trans hnumber) nofun, h⟩

theorem Closing.nil : Closing [] := by
  refine ⟨List.isChain_nil, fun first hfirst => ?_⟩
  cases hfirst

theorem Closing.cons {lexeme : Lexeme} {lexemes : List Lexeme} (h : Separated lexemes)
    (hlexeme : lexeme.isSeparator = true) : Closing (lexeme :: lexemes) := by
  refine ⟨h.cons ?_, fun first hfirst => ?_⟩
  · cases lexeme with
    | number => cases hlexeme
    | _ => rfl
  · cases hfirst
    exact hlexeme

end Lexeme

namespace Json

open Lexeme (Separated Closing)

mutual

-- A value, the items after another and the members after another keep numbers apart, for each of
-- them ends before a separator.
theorem separated_lexemes : ∀ (json : Json) {after : List Lexeme}, Closing after →
    Separated (json.lexemes ++ after)
  | .null, after, h => h.1.cons rfl
  | .bool _, after, h => h.1.cons rfl
  | .num _, after, h => List.isChain_cons.mpr ⟨fun next hmem _ => h.2 next hmem, h.1⟩
  | .str _, after, h => h.1.cons rfl
  | .arr [], after, h => (h.1.cons rfl).cons rfl
  | .arr (item :: items), after, h => by
    simp only [lexemes, List.cons_append, List.append_assoc]
    exact (separated_lexemes item (closing_lexemesItems items h.1)).cons rfl
  | .obj [], after, h => (h.1.cons rfl).cons rfl
  | .obj ((_, item) :: members), after, h => by
    simp only [lexemes, List.cons_append, List.append_assoc]
    exact (((separated_lexemes item (closing_lexemesMembers members h.1)).cons rfl).cons rfl).cons rfl

theorem closing_lexemesItems : ∀ (items : List Json) {after : List Lexeme}, Separated after →
    Closing (lexemesItems items ++ after)
  | [], after, h => Closing.cons h rfl
  | item :: items, after, h => by
    simp only [lexemesItems, List.cons_append, List.append_assoc]
    exact Closing.cons (separated_lexemes item (closing_lexemesItems items h)) rfl

theorem closing_lexemesMembers : ∀ (members : Members) {after : List Lexeme}, Separated after →
    Closing (lexemesMembers members ++ after)
  | [], after, h => Closing.cons h rfl
  | (_, item) :: members, after, h => by
    simp only [lexemesMembers, List.cons_append, List.append_assoc]
    exact Closing.cons
      (((separated_lexemes item (closing_lexemesMembers members h)).cons rfl).cons rfl) rfl

end

theorem lexes_of_spelledBy {json : Json} {text : String} (h : json.SpelledBy text) :
    Lexes text.toList json.lexemes := by
  have hseparated := json.separated_lexemes Closing.nil
  rw [List.append_nil] at hseparated
  exact Spaced.lexes h hseparated

-- A text for a value is read as the value, as far as it is not nested too deep.
theorem read_of_spelledBy {json : Json} {text : String} (h : json.SpelledBy text) :
    (json.nest ≤ nestingLimit → read text = .ok json.canonical) ∧
      (nestingLimit < json.nest → ∃ position, read text = .error ⟨.tooDeep, position⟩) :=
  readWithin_of_lexes (lexes_of_spelledBy h) nestingLimit

end Json

end FeedFilter
