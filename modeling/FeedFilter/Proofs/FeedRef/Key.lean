import FeedFilter.FeedRef
import FeedFilter.Proofs.Text.Base64
import Mathlib.Data.Set.Card

namespace FeedFilter.FeedRef

-- What the key of a feed is for.
inductive Algorithm
  | ed25519
  | sha256
deriving DecidableEq

def Algorithm.name : Algorithm → String
  | .ed25519 => "ed25519"
  | .sha256 => "sha256"

-- The reference to the feed of a key.
def ofKey (key : Vector UInt8 32) (algorithm : Algorithm) : String :=
  "@" ++ String.ofList (Base64.encode key.toList) ++ "." ++ algorithm.name

example : ofKey #v[20, 37, 255, 182, 192, 203, 166, 230, 194, 60, 162, 159, 34, 188, 56, 129,
    207, 146, 66, 65, 220, 104, 61, 123, 179, 177, 136, 234, 47, 243, 137, 102] .ed25519 =
      "@FCX/tsDLpubCPKKfIrw4gc+SQkHcaD17s7GI6i/ziWY=.ed25519" := by
  decide +kernel

theorem toList_ofKey (key : Vector UInt8 32) (algorithm : Algorithm) :
    (ofKey key algorithm).toList =
      '@' :: (Base64.encode key.toList ++ '.' :: algorithm.name.toList) := by
  simp [ofKey]

section Characters

variable {c : Char}

theorem val_le_of_isAlphanum (h : c.isAlphanum = true) : c.val ≤ 'z'.val := by
  obtain hletter | hdigit : c.isAlpha = true ∨ c.isDigit = true := Bool.or_eq_true_iff.mp h
  · obtain hupper | hlower : c.isUpper = true ∨ c.isLower = true :=
      Bool.or_eq_true_iff.mp hletter
    · have hle : 'A'.val ≤ c.val ∧ c.val ≤ 'Z'.val := of_decide_eq_true hupper
      exact UInt32.le_trans hle.2 (by decide)
    · exact of_decide_eq_true (Bool.and_eq_true_iff.mp hlower).2
  · have hle : c.val ≤ '9'.val := of_decide_eq_true (Bool.and_eq_true_iff.mp hdigit).2
    exact UInt32.le_trans hle (by decide)

theorem toNat_lt_of_isKeyChar (h : isKeyChar c = true) : c.toNat < 128 := by
  simp only [isKeyChar, Bool.or_eq_true, decide_eq_true_eq] at h
  obtain (hname | rfl) | rfl := h
  · exact Nat.lt_of_le_of_lt (UInt32.le_iff_toNat_le.mp (val_le_of_isAlphanum hname)) (by decide)
  · decide
  · decide

-- The letters and digits, and the two marks besides them, are the letters of base64.
theorem isKeyChar_iff : isKeyChar c = true ↔ c ∈ Base64.alphabet := by
  have hall : ∀ code < 128, isKeyChar (Char.ofNat code) = true →
      Char.ofNat code ∈ Base64.alphabet := by
    decide +kernel
  have hletters : Base64.alphabet.all isKeyChar = true := by decide +kernel
  constructor
  · intro h
    have hmem := hall c.toNat (toNat_lt_of_isKeyChar h)
    rw [Char.ofNat_toNat] at hmem
    exact hmem h
  · exact List.all_eq_true.mp hletters c

-- The last letters are those whose last two bits are zero.
theorem lastKeyChars_contains_iff :
    lastKeyChars.contains c = true ↔ c ∈ Base64.alphabet ∧ Base64.value c % 4 = 0 := by
  have hfilter : lastKeyChars = Base64.alphabet.filter fun c => Base64.value c % 4 = 0 := by
    decide +kernel
  rw [List.contains_iff_mem, hfilter, List.mem_filter, decide_eq_true_eq]

theorem suffixes_contains_iff {suffix : List Char} :
    suffixes.contains suffix = true ↔
      ∃ algorithm : Algorithm, suffix = Base64.pad :: '.' :: algorithm.name.toList := by
  rw [List.contains_iff_mem, suffixes, List.mem_cons, List.mem_singleton]
  constructor
  · rintro (rfl | rfl)
    · exact ⟨.ed25519, by decide +kernel⟩
    · exact ⟨.sha256, by decide +kernel⟩
  · rintro ⟨algorithm, rfl⟩
    cases algorithm with
    | ed25519 => exact .inl (by decide +kernel)
    | sha256 => exact .inr (by decide +kernel)

end Characters

section Places

variable {text : String} {body suffix : List Char} {last : Char}

-- After the sigil the places that are looked at are those of 42 letters, the last letter and the
-- suffix.
theorem exists_places (h : isReference text = true) :
    ∃ body last suffix, body.length = 42 ∧ text.toList = '@' :: (body ++ last :: suffix) := by
  unfold isReference at h
  split at h
  · next rest htext =>
    simp only [Bool.and_eq_true, decide_eq_true_eq, List.length_take] at h
    have hlast : 42 < rest.length := by omega
    refine ⟨rest.take 42, rest[42], rest.drop 43, List.length_take_of_le (by omega), ?_⟩
    rw [← List.drop_eq_getElem_cons hlast, List.take_append_drop, htext]
  · cases h

theorem isReference_places (hbody : body.length = 42)
    (htext : text.toList = '@' :: (body ++ last :: suffix)) :
    isReference text =
      (body.all isKeyChar && lastKeyChars.contains last && suffixes.contains suffix) := by
  have hkey : (body ++ last :: suffix).take 43 = body ++ [last] := by
    rw [List.append_cons, List.take_left' (by simp [hbody])]
  have hrest : (body ++ last :: suffix).drop 43 = suffix := by
    rw [List.append_cons, List.drop_left' (by simp [hbody])]
  simp only [isReference, htext, hkey, hrest, List.take_left' hbody, List.drop_left' hbody]
  simp [hbody]

theorem isReference_iff_regular :
    isReference text = true ↔ ∃ body last, Base64.Regular 10 body last ∧
      ∃ algorithm : Algorithm, text.toList =
        '@' :: (body ++ [last, Base64.pad] ++ '.' :: algorithm.name.toList) := by
  constructor
  · intro h
    obtain ⟨body, last, suffix, hlength, htext⟩ := exists_places h
    rw [isReference_places hlength htext, Bool.and_eq_true, Bool.and_eq_true, List.all_eq_true,
      lastKeyChars_contains_iff, suffixes_contains_iff] at h
    obtain ⟨⟨hbody, hlast, hspare⟩, algorithm, rfl⟩ := h
    have hmem : ∀ c ∈ body, c ∈ Base64.alphabet := fun c hc => isKeyChar_iff.mp (hbody c hc)
    refine ⟨body, last, ⟨hlength, hmem, hlast, hspare⟩, algorithm, ?_⟩
    rw [htext, List.append_assoc]
    rfl
  · rintro ⟨body, last, ⟨hlength, hmem, hlast, hspare⟩, algorithm, htext⟩
    rw [List.append_assoc] at htext
    rw [isReference_places hlength htext, Bool.and_eq_true, Bool.and_eq_true, List.all_eq_true,
      lastKeyChars_contains_iff, suffixes_contains_iff]
    exact ⟨⟨fun c hc => isKeyChar_iff.mpr (hmem c hc), hlast, hspare⟩, algorithm, rfl⟩

end Places

theorem isReference_ofKey (key : Vector UInt8 32) (algorithm : Algorithm) :
    isReference (ofKey key algorithm) = true := by
  have hlength : key.toList.length = 3 * 10 + 2 := Vector.length_toList
  obtain ⟨body, last, hencode, hregular⟩ := Base64.regular_encode hlength
  refine isReference_iff_regular.mpr ⟨body, last, hregular, algorithm, ?_⟩
  rw [toList_ofKey, hencode]

theorem exists_key_of_isReference {text : String} (h : isReference text = true) :
    ∃ key algorithm, text = ofKey key algorithm := by
  obtain ⟨body, last, hregular, algorithm, htext⟩ := isReference_iff_regular.mp h
  obtain ⟨key, hlength, hencode⟩ := Base64.exists_encode_eq hregular
  refine ⟨⟨key.toArray, hlength⟩, algorithm, String.toList_injective ?_⟩
  rw [htext, toList_ofKey, ← hencode]
  rfl

-- A reference is read in one way only.
theorem ofKey_inj {key key' : Vector UInt8 32} {algorithm algorithm' : Algorithm} :
    ofKey key algorithm = ofKey key' algorithm' ↔ key = key' ∧ algorithm = algorithm' := by
  constructor
  · intro h
    have hlist := congrArg String.toList h
    rw [toList_ofKey, toList_ofKey, List.cons.injEq] at hlist
    have hlength : (Base64.encode key.toList).length = (Base64.encode key'.toList).length := by
      rw [Base64.length_encode, Base64.length_encode, Vector.length_toList, Vector.length_toList]
    obtain ⟨hkey, hname⟩ := List.append_inj hlist.2 hlength
    refine ⟨Vector.toList_inj.mp (Base64.encode_injective hkey), ?_⟩
    cases algorithm <;> cases algorithm' <;> first | rfl | simp [Algorithm.name] at hname
  · rintro ⟨rfl, rfl⟩
    rfl

-- Exactly the references to the keys of 32 bytes are accepted. The key can be read from the
-- reference, and of each key there is one reference for each algorithm.
theorem isReference_iff_key :
    (∀ text, isReference text = true ↔ ∃ key algorithm, text = ofKey key algorithm) ∧
      (∀ text, isReference text = true ↔ ∃! key, ∃ algorithm, text = ofKey key algorithm) ∧
      ∀ key, {text | isReference text = true ∧
        ∃ algorithm, text = ofKey key algorithm}.ncard = 2 := by
  refine ⟨fun text => ⟨exists_key_of_isReference, ?_⟩, fun text => ⟨?_, ?_⟩, fun key => ?_⟩
  · rintro ⟨key, algorithm, rfl⟩
    exact isReference_ofKey key algorithm
  · intro h
    obtain ⟨key, algorithm, rfl⟩ := exists_key_of_isReference h
    exact ⟨key, ⟨algorithm, rfl⟩, fun other ⟨_, hother⟩ => (ofKey_inj.mp hother).1.symm⟩
  · rintro ⟨key, ⟨algorithm, rfl⟩, -⟩
    exact isReference_ofKey key algorithm
  · have hpair : {text | isReference text = true ∧ ∃ algorithm, text = ofKey key algorithm} =
        {ofKey key .ed25519, ofKey key .sha256} := by
      ext text
      simp only [Set.mem_ofPred_eq, Set.mem_insert_iff, Set.mem_singleton_iff]
      constructor
      · rintro ⟨-, algorithm, rfl⟩
        cases algorithm with
        | ed25519 => exact .inl rfl
        | sha256 => exact .inr rfl
      · rintro (rfl | rfl)
        · exact ⟨isReference_ofKey key .ed25519, .ed25519, rfl⟩
        · exact ⟨isReference_ofKey key .sha256, .sha256, rfl⟩
    have hne : ofKey key .ed25519 ≠ ofKey key .sha256 := fun h => nomatch (ofKey_inj.mp h).2
    rw [hpair, Set.ncard_pair hne]

end FeedFilter.FeedRef
