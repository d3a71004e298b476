import FeedFilter.Json.Numeral
import FeedFilter.Json.Printer

namespace FeedFilter

namespace Numeral

-- The characters after a numeral that do not go on with it.
def Ends (rest : List Char) : Prop :=
  ∀ c ∈ rest.head?, c.isDigit = false ∧ c ≠ '.' ∧ c ≠ 'e' ∧ c ≠ 'E'

theorem ends_nil : Ends [] := by
  intro c hc
  cases hc

theorem ends_cons {c : Char} (rest : List Char)
    (h : c.isDigit = false ∧ c ≠ '.' ∧ c ≠ 'e' ∧ c ≠ 'E') : Ends (c :: rest) := by
  intro first hfirst
  cases hfirst
  exact h

theorem isDigitFirst_of_ends {rest : List Char} (h : Ends rest) : isDigitFirst rest = false := by
  cases rest with
  | nil => rfl
  | cons c rest => exact (h c rfl).1

-- Digits, of which there is at least one.
def AreDigits (digits : List Char) : Prop :=
  digits ≠ [] ∧ ∀ c ∈ digits, c.isDigit = true

-- The digits before the point: a zero in front of others is not allowed.
def IsWhole (digits : List Char) : Prop :=
  AreDigits digits ∧ (digits.head? = some '0' → digits = ['0'])

-- The ways to write the digits after the point. The point is there only if they are.
inductive FractionSpelling : List Char → List Char → Prop
  | absent : FractionSpelling [] []
  | present {digits : List Char} (hdigits : AreDigits digits) :
      FractionSpelling digits ('.' :: digits)

-- Whether a sign before the digits of an exponent is a minus.
inductive SignSpelling : Bool → List Char → Prop
  | absent : SignSpelling false []
  | plus : SignSpelling false ['+']
  | minus : SignSpelling true ['-']

inductive ExponentSpelling : Bool → List Char → List Char → Prop
  | absent : ExponentSpelling false [] []
  | present {mark : Char} {shrinking : Bool} {sign digits : List Char}
      (hmark : mark = 'e' ∨ mark = 'E') (hsign : SignSpelling shrinking sign)
      (hdigits : AreDigits digits) : ExponentSpelling shrinking digits (mark :: (sign ++ digits))

def signChars (negative : Bool) : List Char :=
  if negative then ['-'] else []

-- The ways to write a numeral: its parts one after the other.
inductive Spelling : Numeral → List Char → Prop
  | parts (negative : Bool) {shrinking : Bool}
      {whole fraction fractionChars exponent exponentChars : List Char} (hwhole : IsWhole whole)
      (hfraction : FractionSpelling fraction fractionChars)
      (hexponent : ExponentSpelling shrinking exponent exponentChars) :
      Spelling ⟨negative, whole, fraction, shrinking, exponent⟩
        (signChars negative ++ (whole ++ (fractionChars ++ exponentChars)))

theorem AreDigits.eq_cons {digits : List Char} (h : AreDigits digits) :
    ∃ c rest, digits = c :: rest ∧ c.isDigit = true := by
  obtain ⟨hne, hdigits⟩ := h
  cases digits with
  | nil => exact absurd rfl hne
  | cons c rest => exact ⟨c, rest, rfl, hdigits c (by simp)⟩

theorem ne_of_isDigit {c mark : Char} (hc : c.isDigit = true) (hmark : mark.isDigit = false) :
    c ≠ mark := by
  rintro rfl
  rw [hmark] at hc
  cases hc

section Scan

variable {rest : List Char}

theorem scanDigits_append {digits : List Char} (hdigits : AreDigits digits) (place : Nat)
    (hrest : isDigitFirst rest = false) :
    scanDigits place (digits ++ rest) = .ok (digits, rest) := by
  have hfirst : isDigitFirst (digits ++ rest) = true := by
    obtain ⟨c, tail, rfl, hc⟩ := hdigits.eq_cons
    exact hc
  have htake : rest.takeWhile Char.isDigit = [] ∧ rest.dropWhile Char.isDigit = rest := by
    cases rest with
    | nil => exact ⟨rfl, rfl⟩
    | cons c rest =>
      have hc : c.isDigit = false := hrest
      simp [hc]
  rw [scanDigits, if_pos hfirst, List.takeWhile_append_of_pos hdigits.2,
    List.dropWhile_append_of_pos hdigits.2, htake.1, htake.2, List.append_nil]

theorem scanWhole_append {whole : List Char} (hwhole : IsWhole whole) (place : Nat)
    (hrest : isDigitFirst rest = false) :
    scanWhole place (whole ++ rest) = .ok (whole, rest) := by
  by_cases hzero : whole = ['0']
  · subst hzero
    simp [scanWhole, hrest]
  · have hscan := scanDigits_append hwhole.1 place hrest
    obtain ⟨c, digits, rfl, _⟩ := hwhole.1.eq_cons
    rw [List.cons_append] at hscan ⊢
    rw [scanWhole]
    · exact hscan
    · intro tail htail
      obtain ⟨rfl, _⟩ := List.cons.inj htail
      exact hzero (hwhole.2 rfl)

theorem scanFraction_spelling {fraction fractionChars : List Char}
    (h : FractionSpelling fraction fractionChars) (place : Nat) (hdigit : isDigitFirst rest = false)
    (hpoint : rest.head? ≠ some '.') :
    scanFraction place (fractionChars ++ rest) = .ok (fraction, rest) := by
  cases h with
  | absent =>
    rw [List.nil_append]
    unfold scanFraction
    split
    · exact absurd rfl hpoint
    · rfl
  | present hdigits => exact scanDigits_append hdigits (place + 1) hdigit

theorem scanSign_spelling {shrinking : Bool} {sign digits : List Char}
    (hsign : SignSpelling shrinking sign) (hdigits : AreDigits digits) :
    scanSign (sign ++ (digits ++ rest)) = (shrinking, sign.length, digits ++ rest) := by
  cases hsign with
  | absent =>
    obtain ⟨c, tail, rfl, hc⟩ := hdigits.eq_cons
    rw [List.nil_append, List.cons_append]
    unfold scanSign
    split
    · next heq => exact absurd (List.cons.inj heq).1 (ne_of_isDigit hc rfl)
    · next heq => exact absurd (List.cons.inj heq).1 (ne_of_isDigit hc rfl)
    · rfl
  | plus => rfl
  | minus => rfl

theorem scanExponent_spelling {shrinking : Bool} {exponent exponentChars : List Char}
    (h : ExponentSpelling shrinking exponent exponentChars) (place : Nat) (hends : Ends rest) :
    ∃ width, scanExponent place (exponentChars ++ rest) =
      .ok (shrinking, width, exponent, rest) := by
  cases h with
  | absent =>
    refine ⟨0, ?_⟩
    cases rest with
    | nil => rfl
    | cons c rest =>
      obtain ⟨_, _, hsmall, hgreat⟩ := hends c rfl
      rw [List.nil_append, scanExponent, if_neg (by simp [hsmall, hgreat])]
  | @present mark _ sign _ hmark hsign hdigits =>
    refine ⟨1 + sign.length, ?_⟩
    rw [List.cons_append, List.append_assoc, scanExponent, if_pos hmark,
      scanSign_spelling hsign hdigits]
    simp only [scanDigits_append hdigits _ (isDigitFirst_of_ends hends)]
    rfl

-- An exponent begins with its mark, so it ends the digits before it and is no point.
theorem ExponentSpelling.separates {shrinking : Bool} {exponent exponentChars : List Char}
    (h : ExponentSpelling shrinking exponent exponentChars) (hends : Ends rest) :
    isDigitFirst (exponentChars ++ rest) = false ∧
      (exponentChars ++ rest).head? ≠ some '.' := by
  cases h with
  | absent =>
    refine ⟨isDigitFirst_of_ends hends, fun hpoint => ?_⟩
    exact (hends '.' hpoint).2.1 rfl
  | present hmark hsign hdigits =>
    rcases hmark with rfl | rfl
    · exact ⟨rfl, by simp⟩
    · exact ⟨rfl, by simp⟩

theorem FractionSpelling.separates {fraction fractionChars : List Char}
    (h : FractionSpelling fraction fractionChars) (hrest : isDigitFirst rest = false) :
    isDigitFirst (fractionChars ++ rest) = false := by
  cases h with
  | absent => exact hrest
  | present => rfl

-- Only a sign is a minus in front of digits.
theorem head_signed {whole : List Char} (hwhole : IsWhole whole) (negative : Bool)
    (tail : List Char) :
    (signChars negative ++ (whole ++ tail)).head? = some '-' ↔ negative = true := by
  cases negative with
  | true => simp [signChars]
  | false =>
    obtain ⟨c, digits, rfl, hc⟩ := hwhole.1.eq_cons
    have hminus : c ≠ '-' := ne_of_isDigit hc rfl
    simp [signChars, hminus]

-- However a numeral is written, it is read, if what follows does not go on with it.
theorem scan_spelling {numeral : Numeral} {cs : List Char} (h : Spelling numeral cs)
    (hends : Ends rest) (place : Nat) : ∃ stop, scan place (cs ++ rest) = .ok (numeral, stop, rest) := by
  obtain ⟨negative, hwhole, hfraction, hexponent⟩ := h
  obtain ⟨hdigit, hpoint⟩ := hexponent.separates hends
  have hwholeScan := fun place => scanWhole_append hwhole place (hfraction.separates hdigit)
  have hfractionScan := fun place => scanFraction_spelling hfraction place hdigit hpoint
  have hsign := head_signed hwhole negative
  have hdrop : ∀ tail : List Char,
      (if negative then (signChars negative ++ tail).drop 1 else signChars negative ++ tail) =
        tail := by
    intro tail
    cases negative <;> rfl
  simp only [List.append_assoc, scan, hsign, Bool.decide_eq_true, hdrop, hwholeScan, bind,
    Except.bind, hfractionScan]
  obtain ⟨width, hexponentScan⟩ := scanExponent_spelling hexponent _ hends
  rw [hexponentScan]
  exact ⟨_, rfl⟩

end Scan

theorem isDigit_toDigits (n : Nat) : ∀ c ∈ Nat.toDigits 10 n, c.isDigit = true :=
  fun _ hc => Nat.isDigit_of_mem_toDigits (by decide) (by decide) hc

theorem digitChar_ne_zero : ∀ digit, digit < 10 → 0 < digit → Nat.digitChar digit ≠ '0' := by
  decide

-- Only zero is written with a zero in front.
theorem head_toDigits_ne_zero (n : Nat) (h : 0 < n) : (Nat.toDigits 10 n).head? ≠ some '0' := by
  induction n using Nat.strongRecOn with
  | _ n ih =>
    by_cases hn : n < 10
    · rw [Nat.toDigits_of_lt_base hn]
      simpa using digitChar_ne_zero n hn h
    · rw [Nat.toDigits_of_base_le (by decide) (by omega),
        List.head?_append, Option.or_of_isSome (by simp)]
      exact ih (n / 10) (by omega) (by omega)

theorem isWhole_toDigits (n : Nat) : IsWhole (Nat.toDigits 10 n) := by
  refine ⟨⟨Nat.toDigits_ne_nil, isDigit_toDigits n⟩, ?_⟩
  intro hzero
  by_cases hn : n = 0
  · subst hn
    rfl
  · exact absurd hzero (head_toDigits_ne_zero n (by omega))

-- The numeral of an integer.
def ofInt (value : Int) : Numeral :=
  ⟨value < 0, Nat.toDigits 10 value.natAbs, [], false, []⟩

theorem spelling_ofInt (value : Int) : Spelling (ofInt value) (Number.intChars value) := by
  have h := Spelling.parts (decide (value < 0)) (isWhole_toDigits value.natAbs) .absent .absent
  simp only [signChars, List.append_nil, decide_eq_true_eq] at h
  rw [Number.intChars]
  by_cases hneg : value < 0
  · rw [if_pos hneg] at h ⊢
    exact h
  · rw [if_neg hneg] at h ⊢
    exact h

-- The digits of an integer that fits are read back as this integer, and never as a float.
theorem value_ofInt (value : Int) (inRange : Number.InRange value) :
    (ofInt value).value = .ok (.int value inRange) := by
  have hwhole : wholeValue (Nat.toDigits 10 value.natAbs) = value.natAbs :=
    Nat.ofDigitChars_ten_toDigits
  have hsigned : (if value < 0 then -(value.natAbs : Int) else value.natAbs) = value := by
    split <;> omega
  have hzero : ¬(value < 0 ∧ value = 0) := by omega
  simp only [Numeral.value, ofInt, hwhole, decide_eq_true_eq, hsigned, hzero, not_false_eq_true,
    and_self, if_true]
  rw [dif_pos inRange]

theorem Spelling.eq_cons {numeral : Numeral} {cs : List Char} (h : Spelling numeral cs) :
    ∃ c rest, cs = c :: rest ∧ (c = '-' ∨ c.isDigit = true) := by
  obtain ⟨negative, hwhole, _, _⟩ := h
  cases negative with
  | true => exact ⟨'-', _, rfl, .inl rfl⟩
  | false =>
    obtain ⟨c, digits, rfl, hc⟩ := hwhole.1.eq_cons
    exact ⟨c, _, rfl, .inr hc⟩

end Numeral

end FeedFilter
