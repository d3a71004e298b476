import FeedFilter.Json.Literal
import FeedFilter.Json.Printer

namespace FeedFilter.Literal

-- The ways to write a text between quotes: a character stands for itself, or an escape of two
-- characters, a unit, or two units that belong together stand for it.
inductive Spelling : List Char → List Char → Prop
  | nil : Spelling [] []
  | plain {c : Char} {text cs : List Char} (hquote : c ≠ '"') (hslash : c ≠ '\\')
      (hcontrol : ¬c < ' ') (h : Spelling text cs) : Spelling (c :: text) (c :: cs)
  | escape {mark c : Char} {text cs : List Char} (hmark : escape? mark = some c)
      (h : Spelling text cs) : Spelling (c :: text) ('\\' :: mark :: cs)
  | unit {a b c d : Char} {unit : Nat} {text cs : List Char} (hunit : unit? a b c d = some unit)
      (hhigh : isHigh unit = false) (hlow : isLow unit = false) (h : Spelling text cs) :
      Spelling (Char.ofNat unit :: text) ('\\' :: 'u' :: a :: b :: c :: d :: cs)
  | units {a b c d e f g h : Char} {high low : Nat} {text cs : List Char}
      (hfirst : unit? a b c d = some high) (hhigh : isHigh high = true)
      (hsecond : unit? e f g h = some low) (hlow : isLow low = true) (hrest : Spelling text cs) :
      Spelling (pair high low :: text)
        ('\\' :: 'u' :: a :: b :: c :: d :: '\\' :: 'u' :: e :: f :: g :: h :: cs)

theorem read_plain {c : Char} (hquote : c ≠ '"') (hslash : c ≠ '\\') (hcontrol : ¬c < ' ')
    (place : Nat) (cs : List Char) :
    read none place (c :: cs) = (read none (place + c.utf8Size) cs).map (.push c) := by
  rw [read.eq_def]
  split
  case h_6 first rest _ _ _ heq =>
    obtain ⟨rfl, rfl⟩ := List.cons.inj heq
    simp [hquote, hcontrol]
  all_goals simp_all

theorem read_escape {mark c : Char} (hmark : escape? mark = some c) (place : Nat)
    (cs : List Char) :
    read none place ('\\' :: mark :: cs) = (read none (place + 2) cs).map (.push c) := by
  have hunit : mark ≠ 'u' := by
    rintro rfl
    cases hmark
  rw [read.eq_def]
  split
  case h_5 first rest _ heq =>
    obtain ⟨rfl, rfl⟩ := List.cons.inj (List.cons.inj heq).2
    simp [hmark]
  case h_6 first rest _ _ hslash heq =>
    obtain ⟨rfl, rfl⟩ := List.cons.inj heq
    exact absurd rfl (hslash mark cs rfl)
  all_goals simp_all

theorem read_unit {a b c d : Char} {unit : Nat} (hunit : unit? a b c d = some unit)
    (hhigh : isHigh unit = false) (hlow : isLow unit = false) (place : Nat) (cs : List Char) :
    read none place ('\\' :: 'u' :: a :: b :: c :: d :: cs) =
      (read none (place + 6) cs).map (.push (Char.ofNat unit)) := by
  rw [read]
  simp [hunit, hhigh, hlow]

theorem read_units {a b c d e f g h : Char} {high low : Nat} (hfirst : unit? a b c d = some high)
    (hhigh : isHigh high = true) (hsecond : unit? e f g h = some low) (hlow : isLow low = true)
    (place : Nat) (cs : List Char) :
    read none place
        ('\\' :: 'u' :: a :: b :: c :: d :: '\\' :: 'u' :: e :: f :: g :: h :: cs) =
      (read none (place + 6 + 6) cs).map (.push (pair high low)) := by
  rw [read]
  simp only [hfirst, hhigh, if_true]
  rw [read]
  simp only [hsecond, hlow, if_true]

-- However a text is written, it is read.
theorem read_spelling {text cs : List Char} (h : Spelling text cs) (rest : List Char)
    (place : Nat) : ∃ stop, read none place (cs ++ '"' :: rest) = .ok (text, stop, rest) := by
  induction h generalizing place with
  | nil => exact ⟨_, rfl⟩
  | @plain c _ _ hquote hslash hcontrol _ ih =>
    obtain ⟨stop, hstop⟩ := ih (place + c.utf8Size)
    refine ⟨stop, ?_⟩
    rw [List.cons_append, read_plain hquote hslash hcontrol, hstop]
    rfl
  | escape hmark _ ih =>
    obtain ⟨stop, hstop⟩ := ih (place + 2)
    refine ⟨stop, ?_⟩
    rw [List.cons_append, List.cons_append, read_escape hmark, hstop]
    rfl
  | unit hunit hhigh hlow _ ih =>
    obtain ⟨stop, hstop⟩ := ih (place + 6)
    refine ⟨stop, ?_⟩
    simp only [List.cons_append]
    rw [read_unit hunit hhigh hlow, hstop]
    rfl
  | units hfirst hhigh hsecond hlow _ ih =>
    obtain ⟨stop, hstop⟩ := ih (place + 6 + 6)
    refine ⟨stop, ?_⟩
    simp only [List.cons_append]
    rw [read_units hfirst hhigh hsecond hlow, hstop]
    rfl

theorem hexValue_digitChar : ∀ digit, digit < 16 → hexValue? (Nat.digitChar digit) = some digit := by
  decide

-- A control character is written as a unit of its own.
theorem unit_of_control {c : Char} (h : c < ' ') :
    unit? '0' '0' (Nat.digitChar (c.toNat / 16)) (Nat.digitChar (c.toNat % 16)) = some c.toNat := by
  have hc : c.toNat < 32 := h
  have hzero := hexValue_digitChar 0 (by decide)
  have hhigh := hexValue_digitChar (c.toNat / 16) (by omega)
  have hlow := hexValue_digitChar (c.toNat % 16) (by omega)
  have hunit : c.toNat / 16 * 16 + c.toNat % 16 = c.toNat := by omega
  rw [show Nat.digitChar 0 = '0' from rfl] at hzero
  simp [unit?, hzero, hhigh, hlow, hunit]

-- What a printer writes for a character is one way to write it.
theorem Spelling.escapedChar {text cs : List Char} (c : Char) (h : Spelling text cs) :
    Spelling (c :: text) (escapedChar c ++ cs) := by
  unfold FeedFilter.escapedChar
  -- Seven characters have an escape of their own.
  iterate 7
    split
    · subst c
      exact .escape rfl h
  split
  · next hcontrol =>
    have hc : c.toNat < 32 := hcontrol
    have hhigh : isHigh c.toNat = false := by simp [isHigh]; omega
    have hlow : isLow c.toNat = false := by simp [isLow]; omega
    have hunit := Spelling.unit (unit_of_control hcontrol) hhigh hlow h
    rwa [Char.ofNat_toNat] at hunit
  · next hquote hslash _ _ _ _ _ hcontrol => exact .plain hquote hslash hcontrol h

theorem spelling_escaped (text : List Char) :
    Spelling text (text.flatMap FeedFilter.escapedChar) := by
  induction text with
  | nil => exact .nil
  | cons c text ih => exact ih.escapedChar c

end FeedFilter.Literal
