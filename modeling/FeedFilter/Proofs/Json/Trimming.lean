import FeedFilter.Proofs.Json.Reading
import FeedFilter.Text.Blank

namespace FeedFilter

open Text (isBlank trimBlanks)

namespace Text

variable {before core after : List Char}

theorem dropWhile_isBlank_append (hbefore : ∀ c ∈ before, isBlank c = true)
    (hafter : ∀ c ∈ after.head?, isBlank c = false) :
    (before ++ after).dropWhile isBlank = after := by
  rw [List.dropWhile_append_of_pos hbefore]
  cases after with
  | nil => rfl
  | cons c rest => rw [List.dropWhile_cons, hafter c rfl, if_neg Bool.false_ne_true]

theorem trimBlanks_eq (hbefore : ∀ c ∈ before, isBlank c = true)
    (hfirst : ∀ c ∈ (core ++ after).head?, isBlank c = false)
    (hlast : ∀ c ∈ core.getLast?, isBlank c = false) (hafter : ∀ c ∈ after, isBlank c = true) :
    trimBlanks (String.ofList (before ++ (core ++ after))) = String.ofList core := by
  have hback : ∀ c ∈ after.reverse, isBlank c = true := by
    simpa using hafter
  have hend : ∀ c ∈ core.reverse.head?, isBlank c = false := by
    rwa [List.head?_reverse]
  rw [trimBlanks, String.toList_ofList, dropWhile_isBlank_append hbefore hfirst,
    List.reverse_append, dropWhile_isBlank_append hback hend, List.reverse_reverse]

end Text

theorem Token.isBlank_of_isSpacing {c : Char} (h : isSpacing c = true) : isBlank c = true := by
  rw [isSpacing_iff_mem] at h
  simp only [List.mem_cons, List.not_mem_nil, or_false] at h
  rcases h with rfl | rfl | rfl | rfl <;> decide

theorem isBlank_of_isDigit {c : Char} (h : c.isDigit = true) : isBlank c = false := by
  have hrange : 48 ≤ c.toNat ∧ c.toNat ≤ 57 := by
    simpa [Char.isDigit, UInt32.le_iff_toNat_le] using h
  rw [Bool.eq_false_iff]
  intro hblank
  obtain ⟨range, hmem, hbounds⟩ := (Text.Ranges.contains_iff _ _).mp hblank
  simp only [Text.blankRanges, List.mem_cons, List.not_mem_nil, or_false] at hmem
  obtain ⟨first, last⟩ := range
  simp only [Prod.mk.injEq] at hmem hbounds
  omega

namespace Numeral

def EndsInDigit (cs : List Char) : Prop :=
  ∃ c ∈ cs.getLast?, c.isDigit = true

theorem EndsInDigit.append {cs : List Char} (h : EndsInDigit cs) (front : List Char) :
    EndsInDigit (front ++ cs) := by
  obtain ⟨c, hc, hdigit⟩ := h
  refine ⟨c, ?_, hdigit⟩
  rw [List.getLast?_append, Option.mem_def.mp hc]
  rfl

theorem AreDigits.endsInDigit {digits : List Char} (h : AreDigits digits) : EndsInDigit digits := by
  obtain ⟨hne, hdigits⟩ := h
  exact ⟨_, List.getLast?_eq_some_getLast hne, hdigits _ (List.getLast_mem hne)⟩

-- A numeral ends in a digit, whichever of its parts are there.
theorem Spelling.endsInDigit {numeral : Numeral} {cs : List Char} (h : Spelling numeral cs) :
    EndsInDigit cs := by
  cases h with
  | @parts negative _ whole _ fractionChars _ _ hwhole hfraction hexponent =>
    cases hexponent with
    | @present mark _ sign _ _ _ hdigits =>
      have hexponent := (hdigits.endsInDigit.append sign).append [mark]
      exact ((hexponent.append fractionChars).append whole).append (signChars negative)
    | absent =>
      cases hfraction with
      | present hdigits =>
        rw [List.append_nil]
        exact ((hdigits.endsInDigit.append ['.']).append whole).append (signChars negative)
      | absent =>
        rw [List.append_nil, List.append_nil]
        exact hwhole.1.endsInDigit.append (signChars negative)

end Numeral

namespace Spaced

variable {lexeme : Lexeme} {chars cs : List Char} {lexemes : List Lexeme}

theorem head_of_spelling (h : lexeme.Spelling chars) :
    ∃ c ∈ chars.head?, isBlank c = false := by
  cases h with
  | number hvalue hspelling =>
    obtain ⟨c, rest, rfl, hc⟩ := hspelling.eq_cons
    refine ⟨c, rfl, ?_⟩
    obtain rfl | hc := hc
    · decide
    · exact isBlank_of_isDigit hc
  | _ => exact ⟨_, rfl, by decide⟩

theorem last_of_spelling (h : lexeme.Spelling chars) :
    ∃ c ∈ chars.getLast?, isBlank c = false := by
  cases h with
  | text hspelling =>
    refine ⟨'"', ?_, by decide⟩
    rw [← List.cons_append, List.getLast?_append]
    rfl
  | number hvalue hspelling =>
    obtain ⟨c, hc, hdigit⟩ := hspelling.endsInDigit
    exact ⟨c, hc, isBlank_of_isDigit hdigit⟩
  | _ => exact ⟨_, rfl, by decide⟩

-- What stands before the first lexeme is spacing, and so is what stands after the last one. No
-- lexeme begins or ends with a blank of any kind.
theorem front (h : Spaced lexemes cs) :
    ∃ before core, cs = before ++ core ∧ (∀ c ∈ before, Token.isSpacing c = true) ∧
      Spaced lexemes core ∧ ∀ c ∈ core.head?, isBlank c = false := by
  induction h with
  | nil => exact ⟨[], [], rfl, nofun, .nil, nofun⟩
  | @space c _ _ hc _ ih =>
    obtain ⟨before, core, rfl, hbefore, hcore, hfirst⟩ := ih
    refine ⟨c :: before, core, rfl, ?_, hcore, hfirst⟩
    exact List.forall_mem_cons.mpr ⟨Token.isSpacing_iff_mem.mpr hc, hbefore⟩
  | @lexeme _ chars _ cs hspelling hrest _ =>
    refine ⟨[], chars ++ cs, rfl, nofun, .lexeme hspelling hrest, ?_⟩
    obtain ⟨first, hfirst, hblank⟩ := head_of_spelling hspelling
    intro c hc
    rw [List.head?_append, Option.mem_def.mp hfirst] at hc
    cases hc
    exact hblank

theorem back (h : Spaced lexemes cs) :
    ∃ core after, cs = core ++ after ∧ (∀ c ∈ after, Token.isSpacing c = true) ∧
      Spaced lexemes core ∧ ∀ c ∈ core.getLast?, isBlank c = false := by
  induction h with
  | nil => exact ⟨[], [], rfl, nofun, .nil, nofun⟩
  | @space c _ _ hc _ ih =>
    obtain ⟨core, after, rfl, hafter, hcore, hlast⟩ := ih
    cases core with
    | nil =>
      refine ⟨[], c :: after, rfl, ?_, hcore, nofun⟩
      exact List.forall_mem_cons.mpr ⟨Token.isSpacing_iff_mem.mpr hc, hafter⟩
    | cons next core => exact ⟨c :: next :: core, after, rfl, hafter, .space hc hcore, hlast⟩
  | @lexeme _ chars _ _ hspelling _ ih =>
    obtain ⟨core, after, rfl, hafter, hcore, hlast⟩ := ih
    refine ⟨chars ++ core, after, (List.append_assoc _ _ _).symm, hafter,
      .lexeme hspelling hcore, ?_⟩
    obtain ⟨last, hmem, hblank⟩ := last_of_spelling hspelling
    intro c hc
    rw [List.getLast?_append, Option.mem_def.mp hmem] at hc
    cases hend : core.getLast? with
    | none =>
      rw [hend] at hc
      cases hc
      exact hblank
    | some found =>
      rw [hend] at hc
      cases hc
      exact hlast _ hend

end Spaced

namespace Json

variable {json value : Json} {text : String}

-- All that is trimmed from a text for a value is spacing, though other characters are blank as
-- well, and what is left is a text for the value.
theorem spelledBy_trimBlanks (h : json.SpelledBy text) :
    json.SpelledBy (trimBlanks text) ∧
      ∃ before after, text.toList = before ++ (trimBlanks text).toList ++ after ∧
        ∀ c ∈ before ++ after, Token.isSpacing c = true := by
  obtain ⟨before, rest, htext, hbefore, hrest, hfirst⟩ := Spaced.front h
  obtain ⟨core, after, rfl, hafter, hcore, hlast⟩ := hrest.back
  have htrim : trimBlanks text = String.ofList core := by
    rw [← String.ofList_toList (s := text), htext]
    exact Text.trimBlanks_eq (fun c hc => Token.isBlank_of_isSpacing (hbefore c hc)) hfirst hlast
      fun c hc => Token.isBlank_of_isSpacing (hafter c hc)
  rw [htrim, SpelledBy, String.toList_ofList]
  refine ⟨hcore, before, after, by rw [htext, List.append_assoc], ?_⟩
  intro c hc
  exact (List.mem_append.mp hc).elim (hbefore c) (hafter c)

theorem read_trimBlanks (h : read text = .ok value) :
    read (trimBlanks text) = .ok value ∧
      ∃ before after, text.toList = before ++ (trimBlanks text).toList ++ after ∧
        ∀ c ∈ before ++ after, Token.isSpacing c = true := by
  obtain ⟨json, hspelled, hnest, rfl⟩ := read_eq_ok_iff.mp h
  obtain ⟨htrimmed, hends⟩ := spelledBy_trimBlanks hspelled
  exact ⟨read_eq_ok_iff.mpr ⟨json, htrimmed, hnest, rfl⟩, hends⟩

end Json

end FeedFilter
