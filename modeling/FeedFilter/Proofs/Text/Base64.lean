import Mathlib.Data.List.GetD
import Mathlib.Data.List.Nodup

namespace FeedFilter.Base64

-- The letters in the order of the numbers that they stand for.
def alphabet : List Char :=
  ['A', 'B', 'C', 'D', 'E', 'F', 'G', 'H', 'I', 'J', 'K', 'L', 'M', 'N', 'O', 'P',
    'Q', 'R', 'S', 'T', 'U', 'V', 'W', 'X', 'Y', 'Z', 'a', 'b', 'c', 'd', 'e', 'f',
    'g', 'h', 'i', 'j', 'k', 'l', 'm', 'n', 'o', 'p', 'q', 'r', 's', 't', 'u', 'v',
    'w', 'x', 'y', 'z', '0', '1', '2', '3', '4', '5', '6', '7', '8', '9', '+', '/']

-- Stands in the place of a letter that has nothing to hold.
def pad : Char := '='

-- The letter of six bits.
def letter (sextet : Nat) : Char := alphabet.getD sextet pad

-- Three bytes as a number of 24 bits, the first byte in the highest.
def word (first second third : UInt8) : Nat :=
  first.toNat * 65536 + second.toNat * 256 + third.toNat

-- The letters of 24 bits, six at a time.
def letters (word : Nat) : List Char :=
  [letter (word / 262144 % 64), letter (word / 4096 % 64), letter (word / 64 % 64),
    letter (word % 64)]

-- Three bytes are four letters. If one or two bytes are left at the end, zero bits are added to
-- them, and of the letters those are written that have bits of the bytes.
def encode : List UInt8 → List Char
  | [] => []
  | [first] => (letters (word first 0 0)).take 2 ++ [pad, pad]
  | [first, second] => (letters (word first second 0)).take 3 ++ [pad]
  | first :: second :: third :: rest => letters (word first second third) ++ encode rest

example : encode [102, 111, 111, 98, 97, 114] = "Zm9vYmFy".toList ∧
    encode [102, 111, 111, 98, 97] = "Zm9vYmE=".toList ∧
    encode [102, 111, 111, 98] = "Zm9vYg==".toList := by decide +kernel

-- The number that a letter stands for, and zero for a pad.
def value (c : Char) : Nat := alphabet.idxOf c % 64

-- The bits of four letters.
def number (first second third fourth : Char) : Nat :=
  value first * 262144 + value second * 4096 + value third * 64 + value fourth

-- The bytes of 24 bits.
def bytes (word : Nat) : List UInt8 :=
  [UInt8.ofNat (word / 65536), UInt8.ofNat (word / 256), UInt8.ofNat word]

def decode : List Char → List UInt8
  | first :: second :: third :: fourth :: rest =>
    let found := bytes (number first second third fourth)
    if third = pad then found.take 1
    else if fourth = pad then found.take 2
    else found ++ decode rest
  | _ => []

section Letters

theorem sextet_lt (n : Nat) : n % 64 < 64 :=
  Nat.mod_lt n (by decide)

theorem value_lt (c : Char) : value c < 64 :=
  sextet_lt _

theorem letter_eq_getElem {sextet : Nat} (h : sextet < alphabet.length) :
    letter sextet = alphabet[sextet] :=
  List.getD_eq_getElem _ _ h

theorem letter_mem {sextet : Nat} (h : sextet < 64) : letter sextet ∈ alphabet := by
  have hlength : sextet < alphabet.length := h
  rw [letter_eq_getElem hlength]
  exact List.getElem_mem hlength

theorem value_letter {sextet : Nat} (h : sextet < 64) : value (letter sextet) = sextet := by
  have hnodup : alphabet.Nodup := List.Nodup.of_map Char.toNat (by decide +kernel)
  have hlength : sextet < alphabet.length := h
  rw [letter_eq_getElem hlength, value, hnodup.idxOf_getElem, Nat.mod_eq_of_lt h]

theorem letter_value {c : Char} (h : c ∈ alphabet) : letter (value c) = c := by
  have hlength : alphabet.idxOf c < alphabet.length := List.idxOf_lt_length_of_mem h
  have hvalue : value c = alphabet.idxOf c := Nat.mod_eq_of_lt hlength
  rw [hvalue, letter_eq_getElem hlength, List.getElem_idxOf]

theorem pad_notMem : pad ∉ alphabet := by decide +kernel

theorem value_pad : value pad = 0 := by
  rw [value, List.idxOf_of_notMem pad_notMem]
  rfl

theorem letter_ne_pad {sextet : Nat} (h : sextet < 64) : letter sextet ≠ pad :=
  fun hpad => pad_notMem (hpad ▸ letter_mem h)

end Letters

section Word

variable {first second third : Char}

theorem word_lt (first second third : UInt8) : word first second third < 16777216 := by
  have hfirst := first.toNat_lt
  have hsecond := second.toNat_lt
  have hthird := third.toNat_lt
  unfold word
  omega

theorem bytes_word (first second third : UInt8) :
    bytes (word first second third) = [first, second, third] := by
  have hfirst := first.toNat_lt
  have hsecond := second.toNat_lt
  have hthird := third.toNat_lt
  simp only [bytes, List.cons.injEq, and_true, ← UInt8.toNat_inj, UInt8.toNat_ofNat', word]
  omega

theorem word_bytes {n : Nat} (h : n < 16777216) :
    word (UInt8.ofNat (n / 65536)) (UInt8.ofNat (n / 256)) (UInt8.ofNat n) = n := by
  simp only [word, UInt8.toNat_ofNat']
  omega

theorem number_letters {n : Nat} (h : n < 16777216) :
    number (letter (n / 262144 % 64)) (letter (n / 4096 % 64)) (letter (n / 64 % 64))
      (letter (n % 64)) = n := by
  simp only [number, value_letter (sextet_lt _)]
  omega

theorem number_lt (first second third fourth : Char) :
    number first second third fourth < 16777216 := by
  have hfirst := value_lt first
  have hsecond := value_lt second
  have hthird := value_lt third
  have hfourth := value_lt fourth
  unfold number
  omega

-- The numbers of four letters are found again in the bits that the letters stand for.
theorem sextets_number (first second third fourth : Char) :
    number first second third fourth / 262144 % 64 = value first ∧
      number first second third fourth / 4096 % 64 = value second ∧
      number first second third fourth / 64 % 64 = value third ∧
      number first second third fourth % 64 = value fourth := by
  have hfirst := value_lt first
  have hsecond := value_lt second
  have hthird := value_lt third
  have hfourth := value_lt fourth
  unfold number
  omega

theorem letters_number (hfirst : first ∈ alphabet) (hsecond : second ∈ alphabet)
    (hthird : third ∈ alphabet) (fourth : Char) :
    letters (number first second third fourth) = [first, second, third, letter (value fourth)] := by
  obtain ⟨hone, htwo, hthree, hfour⟩ := sextets_number first second third fourth
  rw [letters, hone, htwo, hthree, hfour, letter_value hfirst, letter_value hsecond,
    letter_value hthird]

end Word

-- No bits are lost: the pads tell how many bytes there were at the end.
theorem decode_encode (key : List UInt8) : decode (encode key) = key := by
  fun_induction encode key with
  | case1 => rfl
  | case2 first =>
    have hword := word_lt first 0 0
    have hnumber : number (letter (word first 0 0 / 262144 % 64))
        (letter (word first 0 0 / 4096 % 64)) pad pad = word first 0 0 := by
      simp only [number, value_letter (sextet_lt _), value_pad]
      simp only [word, UInt8.toNat_zero] at hword ⊢
      omega
    simp only [letters, List.take_succ_cons, List.take_zero, List.cons_append, List.nil_append,
      decode, hnumber, bytes_word, if_true]
  | case3 first second =>
    have hword := word_lt first second 0
    have hnumber : number (letter (word first second 0 / 262144 % 64))
        (letter (word first second 0 / 4096 % 64)) (letter (word first second 0 / 64 % 64)) pad =
          word first second 0 := by
      simp only [number, value_letter (sextet_lt _), value_pad]
      simp only [word, UInt8.toNat_zero] at hword ⊢
      omega
    simp only [letters, List.take_succ_cons, List.take_zero, List.cons_append, List.nil_append,
      decode, hnumber, bytes_word, if_true, if_neg (letter_ne_pad (sextet_lt _))]
  | case4 first second third rest ih =>
    have hnumber := number_letters (word_lt first second third)
    simp only [letters, List.cons_append, List.nil_append, decode, hnumber, bytes_word,
      if_neg (letter_ne_pad (sextet_lt _)), ih]

theorem encode_injective : Function.Injective encode :=
  Function.LeftInverse.injective decode_encode

theorem length_encode (key : List UInt8) :
    (encode key).length = 4 * ((key.length + 2) / 3) := by
  fun_induction encode key with
  | case1 => simp
  | case2 => simp [letters]
  | case3 => simp [letters]
  | case4 first second third rest ih =>
    rw [List.length_append, ih]
    simp only [letters, List.length_cons, List.length_nil]
    omega

-- The letters for a number of groups of three bytes and two bytes more. Of the last letter two bits
-- are not needed, and they are zero.
structure Regular (groups : Nat) (body : List Char) (last : Char) : Prop where
  length : body.length = 4 * groups + 2
  mem : ∀ c ∈ body, c ∈ alphabet
  last_mem : last ∈ alphabet
  spare : value last % 4 = 0

section Regular

variable {groups : Nat} {body : List Char} {last : Char}

theorem regular_cons_iff {first second third fourth : Char} :
    Regular (groups + 1) (first :: second :: third :: fourth :: body) last ↔
      (first ∈ alphabet ∧ second ∈ alphabet ∧ third ∈ alphabet ∧ fourth ∈ alphabet) ∧
        Regular groups body last := by
  constructor
  · rintro ⟨hlength, hbody, hlast, hspare⟩
    simp only [List.forall_mem_cons] at hbody
    obtain ⟨hfirst, hsecond, hthird, hfourth, hbody⟩ := hbody
    refine ⟨⟨hfirst, hsecond, hthird, hfourth⟩, ⟨?_, hbody, hlast, hspare⟩⟩
    simp only [List.length_cons] at hlength
    omega
  · rintro ⟨⟨hfirst, hsecond, hthird, hfourth⟩, ⟨hlength, hbody, hlast, hspare⟩⟩
    refine ⟨?_, ?_, hlast, hspare⟩
    · simp only [List.length_cons]
      omega
    · simp only [List.forall_mem_cons]
      exact ⟨hfirst, hsecond, hthird, hfourth, hbody⟩

-- Whatever is written is regular.
theorem regular_encode {key : List UInt8} (h : key.length = 3 * groups + 2) :
    ∃ body last, encode key = body ++ [last, pad] ∧ Regular groups body last := by
  induction groups generalizing key with
  | zero =>
    obtain ⟨first, second, rfl⟩ := List.length_eq_two.mp h
    refine ⟨[letter (word first second 0 / 262144 % 64), letter (word first second 0 / 4096 % 64)],
      letter (word first second 0 / 64 % 64), ?_, ⟨rfl, ?_, letter_mem (sextet_lt _), ?_⟩⟩
    · simp only [encode, letters, List.take_succ_cons, List.take_zero, List.cons_append,
        List.nil_append]
    · simp only [List.forall_mem_cons]
      exact ⟨letter_mem (sextet_lt _), letter_mem (sextet_lt _), nofun⟩
    · rw [value_letter (sextet_lt _)]
      simp only [word, UInt8.toNat_zero]
      omega
  | succ groups ih =>
    match key, h with
    | first :: second :: third :: rest, h =>
      have hrest : rest.length = 3 * groups + 2 := by
        simp only [List.length_cons] at h
        omega
      obtain ⟨body, last, hencode, hregular⟩ := ih hrest
      refine ⟨letters (word first second third) ++ body, last, ?_, ?_⟩
      · rw [encode, hencode, List.append_assoc]
      · have hmem : ∀ n, letter (n % 64) ∈ alphabet := fun n => letter_mem (sextet_lt n)
        exact regular_cons_iff.mpr ⟨⟨hmem _, hmem _, hmem _, hmem _⟩, hregular⟩

-- Whatever is regular is written for some bytes.
theorem exists_encode_eq (h : Regular groups body last) :
    ∃ key : List UInt8, key.length = 3 * groups + 2 ∧ encode key = body ++ [last, pad] := by
  induction groups generalizing body with
  | zero =>
    obtain ⟨first, second, rfl⟩ := List.length_eq_two.mp h.length
    have hn := number_lt first second last pad
    have hlow : number first second last pad % 256 = 0 := by
      have hspare := h.spare
      simp only [number, value_pad]
      omega
    have hword := word_bytes hn
    have hletters := letters_number (h.mem first (by simp)) (h.mem second (by simp)) h.last_mem pad
    have hzero : UInt8.ofNat (number first second last pad) = 0 := by
      rw [← UInt8.toNat_inj, UInt8.toNat_ofNat', hlow]
      rfl
    rw [hzero] at hword
    refine ⟨[UInt8.ofNat (number first second last pad / 65536),
      UInt8.ofNat (number first second last pad / 256)], rfl, ?_⟩
    simp only [encode, hword, hletters, List.take_succ_cons, List.take_zero, List.cons_append,
      List.nil_append]
  | succ groups ih =>
    match body, h with
    | first :: second :: third :: fourth :: body, h =>
      obtain ⟨⟨hfirst, hsecond, hthird, hfourth⟩, hregular⟩ := regular_cons_iff.mp h
      obtain ⟨key, hlength, hkey⟩ := ih hregular
      have hword := word_bytes (number_lt first second third fourth)
      have hletters := letters_number hfirst hsecond hthird fourth
      refine ⟨UInt8.ofNat (number first second third fourth / 65536) ::
        UInt8.ofNat (number first second third fourth / 256) ::
        UInt8.ofNat (number first second third fourth) :: key, ?_, ?_⟩
      · simp only [List.length_cons]
        omega
      · rw [encode, hword, hletters, letter_value hfourth, hkey]
        rfl

end Regular

end FeedFilter.Base64
