namespace FeedFilter.FeedRef

-- The letters of base64, each of which stands for six bits.
def isKeyChar (c : Char) : Bool :=
  c.isAlphanum || c = '/' || c = '+'

-- The letters whose last two bits are zero. A key of 32 bytes takes 43 letters, of which the last
-- has only four bits of the key.
def lastKeyChars : List Char :=
  "AEIMQUYcgkosw048".toList

def suffixes : List (List Char) :=
  ["=.ed25519".toList, "=.sha256".toList]

-- A feed reference in full: the sigil, a key in base64 and the name of its algorithm.
def isReference (text : String) : Bool :=
  match text.toList with
  | '@' :: rest =>
    let key := rest.take 43
    key.length = 43 && (key.take 42).all isKeyChar && (key.drop 42).all lastKeyChars.contains
      && suffixes.contains (rest.drop 43)
  | _ => false

-- Anything at all after the sigil.
def hasSigil (text : String) : Bool :=
  match text.toList with
  | '@' :: _ :: _ => true
  | _ => false

-- A full reference has the sigil.
theorem hasSigil_of_isReference (text : String) (h : isReference text = true) :
    hasSigil text = true := by
  unfold isReference at h
  unfold hasSigil
  split at h
  · next rest htext =>
    cases rest with
    | nil => simp at h
    | cons c rest => simp [htext]
  · cases h

example : isReference "@FCX/tsDLpubCPKKfIrw4gc+SQkHcaD17s7GI6i/ziWY=.ed25519" = true := by
  decide +kernel

-- The last letter of the key would have a bit to spare.
example : isReference "@FCX/tsDLpubCPKKfIrw4gc+SQkHcaD17s7GI6i/ziWZ=.ed25519" = false := by
  decide +kernel

end FeedFilter.FeedRef
