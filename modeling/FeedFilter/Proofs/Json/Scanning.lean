import FeedFilter.Proofs.Json.Spelling

namespace FeedFilter

namespace Literal

-- The ways to write a text after a unit that may wait for its other half.
def SpellingAfter : Option Nat → List Char → List Char → Prop
  | none, text, cs => Spelling text cs
  | some high, text, cs => ∃ a b c d low rest written, unit? a b c d = some low ∧
      isLow low = true ∧ text = pair high low :: rest ∧
      cs = '\\' :: 'u' :: a :: b :: c :: d :: written ∧ Spelling rest written

-- What is read between quotes was written there in one of the ways to write it.
theorem spellingAfter_of_read {high : Option Nat} {place : Nat} {cs : List Char}
    {reading : Reading} (h : read high place cs = .ok reading) :
    ∃ written, cs = written ++ '"' :: reading.2.2 ∧ SpellingAfter high reading.1 written := by
  fun_induction read high place cs generalizing reading
  case case4 a b c d rest unit hunit hhigh ih =>
    obtain ⟨written, rfl, _, _, _, _, low, text, spelt, hlow, hisLow, htext, rfl, hspelt⟩ := ih h
    rw [htext]
    exact ⟨_, rfl, Spelling.units hunit hhigh hlow hisLow hspelt⟩
  case case6 a b c d rest unit hunit hhigh hlow ih =>
    obtain ⟨found, hfound, rfl⟩ := Except.map_eq_ok h
    obtain ⟨written, rfl, hspelt⟩ := ih hfound
    have hplain := Bool.eq_false_iff.mpr hhigh
    exact ⟨_, rfl, Spelling.unit hunit hplain (Bool.eq_false_iff.mpr hlow) hspelt⟩
  case case7 a b c d rest unit hunit first hlow ih =>
    obtain ⟨found, hfound, rfl⟩ := Except.map_eq_ok h
    obtain ⟨written, rfl, hspelt⟩ := ih hfound
    exact ⟨_, rfl, _, _, _, _, _, _, _, hunit, hlow, rfl, rfl, hspelt⟩
  case case12 high _ c rest _ _ hhigh meant hmeant ih =>
    obtain ⟨found, hfound, rfl⟩ := Except.map_eq_ok h
    obtain ⟨written, rfl, hspelt⟩ := ih hfound
    cases Option.not_isSome_iff_eq_none.mp hhigh
    exact ⟨_, rfl, Spelling.escape hmeant hspelt⟩
  case case14 high _ rest hhigh _ _ _ _ =>
    cases h
    cases Option.not_isSome_iff_eq_none.mp hhigh
    exact ⟨[], rfl, Spelling.nil⟩
  case case16 high _ c rest hend _ _ hescape hhigh hquote hcontrol ih =>
    obtain ⟨found, hfound, rfl⟩ := Except.map_eq_ok h
    obtain ⟨written, rfl, hspelt⟩ := ih hfound
    cases Option.not_isSome_iff_eq_none.mp hhigh
    have hslash : c ≠ '\\' := by
      cases written with
      | nil => exact fun hc => hescape '"' _ hc rfl
      | cons next _ => exact fun hc => hescape next _ hc rfl
    exact ⟨c :: written, rfl, Spelling.plain hquote hslash hcontrol hspelt⟩
  all_goals cases h

theorem spelling_of_read {place stop : Nat} {cs text rest : List Char}
    (h : read none place cs = .ok (text, stop, rest)) :
    ∃ written, cs = written ++ '"' :: rest ∧ Spelling text written :=
  spellingAfter_of_read h

end Literal

namespace Numeral

theorem areDigits_of_scanDigits {place : Nat} {cs digits rest : List Char}
    (h : scanDigits place cs = .ok (digits, rest)) : AreDigits digits ∧ cs = digits ++ rest := by
  unfold scanDigits at h
  split at h
  case isFalse => cases h
  case isTrue hdigit =>
    cases h
    refine ⟨⟨?_, fun c hc => ?_⟩, List.takeWhile_append_dropWhile.symm⟩
    · cases cs with
      | nil => cases hdigit
      | cons c cs =>
        have hc : c.isDigit = true := hdigit
        rw [List.takeWhile_cons, if_pos hc]
        exact List.cons_ne_nil _ _
    · exact List.all_eq_true.mp List.all_takeWhile c hc

theorem isWhole_of_scanWhole {place : Nat} {cs whole rest : List Char}
    (h : scanWhole place cs = .ok (whole, rest)) : IsWhole whole ∧ cs = whole ++ rest := by
  unfold scanWhole at h
  split at h
  case h_1 tail =>
    split at h <;> cases h
    exact ⟨⟨⟨nofun, List.forall_mem_singleton.mpr rfl⟩, fun _ => rfl⟩, rfl⟩
  case h_2 hzero =>
    obtain ⟨hdigits, rfl⟩ := areDigits_of_scanDigits h
    obtain ⟨c, digits, rfl, _⟩ := hdigits.eq_cons
    refine ⟨⟨hdigits, fun hhead => ?_⟩, rfl⟩
    cases hhead
    exact absurd rfl (hzero (digits ++ rest))

theorem spelling_of_scanFraction {place : Nat} {cs fraction rest : List Char}
    (h : scanFraction place cs = .ok (fraction, rest)) :
    ∃ written, FractionSpelling fraction written ∧ cs = written ++ rest := by
  unfold scanFraction at h
  split at h
  case h_1 tail =>
    obtain ⟨hdigits, rfl⟩ := areDigits_of_scanDigits h
    exact ⟨_, .present hdigits, rfl⟩
  case h_2 =>
    cases h
    exact ⟨[], .absent, rfl⟩

theorem spelling_scanSign (cs : List Char) :
    ∃ sign, SignSpelling (scanSign cs).1 sign ∧ cs = sign ++ (scanSign cs).2.2 := by
  unfold scanSign
  split
  · exact ⟨['-'], .minus, rfl⟩
  · exact ⟨['+'], .plus, rfl⟩
  · exact ⟨[], .absent, rfl⟩

theorem spelling_of_scanExponent {place width : Nat} {shrinking : Bool}
    {cs exponent rest : List Char}
    (h : scanExponent place cs = .ok (shrinking, width, exponent, rest)) :
    ∃ written, ExponentSpelling shrinking exponent written ∧ cs = written ++ rest := by
  unfold scanExponent at h
  split at h
  case h_2 =>
    cases h
    exact ⟨[], .absent, rfl⟩
  case h_1 mark tail =>
    split at h
    case isFalse =>
      cases h
      exact ⟨[], .absent, rfl⟩
    case isTrue hmark =>
      obtain ⟨sign, hsign, htail⟩ := spelling_scanSign tail
      generalize scanSign tail = found at h hsign htail
      obtain ⟨⟨digits, left⟩, hdigits, hfound⟩ := Except.map_eq_ok h
      cases hfound
      obtain ⟨hexponent, hrest⟩ := areDigits_of_scanDigits hdigits
      refine ⟨_, .present hmark hsign hexponent, ?_⟩
      rw [htail, hrest, List.cons_append, List.append_assoc]

theorem eq_signChars_append (cs : List Char) :
    cs = signChars (cs.head? = some '-') ++ (if cs.head? = some '-' then cs.drop 1 else cs) := by
  cases cs with
  | nil => rfl
  | cons c cs =>
    by_cases hc : c = '-'
    · subst hc
      rfl
    · simp [signChars, hc]

-- What is read as a numeral was written as one.
theorem spelling_of_scan {place stop : Nat} {numeral : Numeral} {cs rest : List Char}
    (h : scan place cs = .ok (numeral, stop, rest)) :
    ∃ written, Spelling numeral written ∧ cs = written ++ rest := by
  obtain ⟨⟨whole, afterWhole⟩, hwhole, h⟩ := Except.bind_eq_ok h
  obtain ⟨⟨fraction, afterFraction⟩, hfraction, h⟩ := Except.bind_eq_ok h
  obtain ⟨⟨shrinking, width, exponent, afterExponent⟩, hexponent, h⟩ := Except.bind_eq_ok h
  cases h
  obtain ⟨hisWhole, hunsigned⟩ := isWhole_of_scanWhole hwhole
  obtain ⟨fractionChars, hfractionSpelling, rfl⟩ := spelling_of_scanFraction hfraction
  obtain ⟨exponentChars, hexponentSpelling, rfl⟩ := spelling_of_scanExponent hexponent
  refine ⟨_, .parts _ hisWhole hfractionSpelling hexponentSpelling, ?_⟩
  have hsigned := eq_signChars_append cs
  rw [hunsigned] at hsigned
  rw [List.append_assoc, List.append_assoc, List.append_assoc]
  exact hsigned

end Numeral

-- The lexemes that stand for something, also where no value could begin with them.
def Lexeme.isClear : Lexeme → Bool
  | .number reading => reading.needed.isOk
  | .string reading => reading.needed.isOk
  | .misspelt _ => false
  | .stray => false
  | _ => true

namespace Token

theorem eq_append_of_afterKeyword {place : Nat} {word cs rest : List Char}
    (h : afterKeyword place word cs = .ok rest) : cs = word ++ rest := by
  fun_induction afterKeyword place word cs with
  | case1 => cases h; rfl
  | case2 => cases h
  | case3 place expected word cs ih => rw [ih h, List.cons_append]
  | case4 => cases h

variable {place : Nat} {c : Char} {cs : List Char}

-- The characters of a token that stands for something are one of its spellings, and those after it
-- are left.
def Spelt (cs : List Char) (found : Token × List Char) : Prop :=
  found.1.lexeme.isClear = true →
    ∃ written, found.1.lexeme.Spelling written ∧ cs = written ++ found.2

theorem spelt_ofKeyword {lexeme : Lexeme} {word : List Char}
    (h : lexeme.Spelling (c :: word)) : Spelt (c :: cs) (ofKeyword place lexeme word cs) := by
  intro hclear
  unfold ofKeyword at hclear ⊢
  split
  · next rest hrest =>
    rw [eq_append_of_afterKeyword hrest]
    exact ⟨_, h, rfl⟩
  · next fault hfault =>
    rw [hfault] at hclear
    cases hclear

theorem spelt_ofLiteral : Spelt ('"' :: cs) (ofLiteral place cs) := by
  intro hclear
  unfold ofLiteral at hclear ⊢
  split
  · next text stop rest hread =>
    obtain ⟨written, rfl, hspelling⟩ := Literal.spelling_of_read hread
    refine ⟨_, .text hspelling, ?_⟩
    rw [List.cons_append, List.append_assoc]
    rfl
  · next fault hread =>
    simp only [hread] at hclear
    split at hclear
    · cases hclear
    · cases hclear

theorem spelt_ofNumeral : Spelt (c :: cs) (ofNumeral place (c :: cs)) := by
  intro hclear
  unfold ofNumeral at hclear ⊢
  split
  · next numeral stop rest hscan =>
    simp only [hscan] at hclear
    obtain ⟨written, hspelling, hchars⟩ := Numeral.spelling_of_scan hscan
    cases hvalue : numeral.value with
    | error left =>
      simp only [hvalue] at hclear
      cases hclear
    | ok number => exact ⟨written, .number hvalue hspelling, hchars⟩
  · next fault hscan =>
    simp only [hscan] at hclear
    cases hclear

theorem spelt_ofMark {lexeme : Lexeme} (h : lexeme.Spelling [c]) :
    Spelt (c :: cs) (ofMark place lexeme cs) :=
  fun _ => ⟨[c], h, rfl⟩

theorem spelt_first : Spelt (c :: cs) (first place c cs) := by
  have hview := firstView place c cs
  generalize first place c cs = found at hview ⊢
  cases hview with
  | openList hc => exact hc ▸ spelt_ofMark .openList
  | closeList hc => exact hc ▸ spelt_ofMark .closeList
  | openObject hc => exact hc ▸ spelt_ofMark .openObject
  | closeObject hc => exact hc ▸ spelt_ofMark .closeObject
  | comma hc => exact hc ▸ spelt_ofMark .comma
  | colon hc => exact hc ▸ spelt_ofMark .colon
  | literal hc => exact hc ▸ spelt_ofLiteral
  | numeral => exact spelt_ofNumeral
  | null hc => exact hc ▸ spelt_ofKeyword .null
  | true hc => exact hc ▸ spelt_ofKeyword .true
  | false hc => exact hc ▸ spelt_ofKeyword .false
  | stray =>
    intro hclear
    cases hclear

end Token

-- If all tokens of a text stand for something, the text is made up of them.
theorem spaced_tokens (place : Nat) (cs : List Char)
    (h : ∀ token ∈ tokens place cs, token.lexeme.isClear = true) :
    Spaced ((tokens place cs).map Token.lexeme) cs := by
  fun_induction tokens place cs with
  | case1 => exact .nil
  | case2 place c rest hc ih => exact .space (Token.isSpacing_iff_mem.mp hc) (ih h)
  | case3 place c rest hc ih =>
    rw [List.forall_mem_cons] at h
    obtain ⟨written, hspelling, hchars⟩ := Token.spelt_first h.1
    rw [hchars]
    exact .lexeme hspelling (ih h.2)

theorem exists_spelling_of_mem_tokens {place : Nat} {cs : List Char} {token : Token}
    (h : token ∈ tokens place cs) (hclear : token.lexeme.isClear = true) :
    ∃ written, token.lexeme.Spelling written := by
  fun_induction tokens place cs with
  | case1 => cases h
  | case2 place c rest hc ih => exact ih h
  | case3 place c rest hc ih =>
    obtain rfl | hrest := List.mem_cons.mp h
    · obtain ⟨written, hspelling, -⟩ := Token.spelt_first hclear
      exact ⟨written, hspelling⟩
    · exact ih hrest

end FeedFilter
