import FeedFilter.Proofs.FeedRef.Key
import FeedFilter.Proofs.Flat.Equality

namespace FeedFilter

namespace Operator

-- A value in the text of a tree is followed by a comma or a bracket.
def isDelimiter (c : Char) : Bool :=
  c = ',' || c = ')'

-- What stands in the text of a predicate for the flag.
def flagChars (dedicated : Bool) : List Char :=
  if dedicated then ", dedicated".toList else []

end Operator

open Operator (isDelimiter flagChars)

namespace FeedRef

-- No reference has a delimiter in it, so it is clear where one ends.
theorem not_isDelimiter_of_mem {text : String} (h : isReference text = true) :
    ∀ c ∈ text.toList, isDelimiter c = false := by
  obtain ⟨body, last, ⟨-, hbody, hlast, -⟩, algorithm, htext⟩ := isReference_iff_regular.mp h
  have hletters : Base64.alphabet.any isDelimiter = false := by decide +kernel
  have hname : algorithm.name.toList.any isDelimiter = false := by
    cases algorithm <;> decide +kernel
  have hnone : ∀ chars : List Char, chars.any isDelimiter = false →
      ∀ c ∈ chars, isDelimiter c = false := fun chars h c hc =>
    Bool.eq_false_iff.mpr (List.any_eq_false.mp h c hc)
  intro c hc
  rw [htext] at hc
  simp only [List.mem_cons, List.mem_append, List.not_mem_nil, or_false] at hc
  obtain rfl | (hmem | rfl | rfl) | rfl | hmem := hc
  · decide
  · exact hnone _ hletters c (hbody c hmem)
  · exact hnone _ hletters c hlast
  · decide
  · decide
  · exact hnone _ hname c hmem

end FeedRef

namespace Flat

open FeedRef (isReference not_isDelimiter_of_mem)

-- The text of a tree after its first predicate.
def privacyChars (dedicated : Bool) (flat : Flat) : List Char :=
  if flat.isPrivate then ", isPrivate())".toList
  else
    ", type(".toList ++
      ((flat.type.getD "null").toList ++ (flagChars dedicated ++ "), isPublic())".toList))

theorem toList_text_operator (dedicated : Bool) (flat : Flat) :
    (flat.operator dedicated).text.toList =
      "and(author(".toList ++
        (flat.author.toList ++ (flagChars dedicated ++ ')' :: flat.privacyChars dedicated)) := by
  rw [operator_eq]
  obtain ⟨author, type, isPrivate⟩ := flat
  cases isPrivate <;> cases dedicated <;>
    simp [Operator.text, Operator.textOf, Operator.textAfter, Operator.predicateText, flagChars,
      privacyChars]

-- What follows the author begins with a delimiter, which tells the flag.
theorem flagChars_append_eq_cons (dedicated : Bool) (rest : List Char) :
    ∃ c tail, flagChars dedicated ++ ')' :: rest = c :: tail ∧ isDelimiter c = true ∧
      (dedicated = true ↔ c = ',') := by
  cases dedicated with
  | false => exact ⟨')', rest, rfl, rfl, by decide⟩
  | true => exact ⟨',', _, rfl, rfl, by decide⟩

section Split

variable {first second : List Char} {dedicated flag : Bool} {rest others : List Char}

-- Without delimiters in it, what stands before the first delimiter can be told.
theorem takeWhile_delimited (hfirst : ∀ c ∈ first, isDelimiter c = false) (dedicated : Bool)
    (rest : List Char) :
    (first ++ (flagChars dedicated ++ ')' :: rest)).takeWhile (fun c => !isDelimiter c) =
      first := by
  obtain ⟨c, tail, htail, hc, -⟩ := flagChars_append_eq_cons dedicated rest
  have hkept : ∀ c ∈ first, (!isDelimiter c) = true := by
    intro c hc
    rw [hfirst c hc]
    rfl
  rw [htail, List.takeWhile_append_of_pos hkept, List.takeWhile_cons, hc]
  exact List.append_nil first

theorem split_delimited (hfirst : ∀ c ∈ first, isDelimiter c = false)
    (hsecond : ∀ c ∈ second, isDelimiter c = false)
    (h : first ++ (flagChars dedicated ++ ')' :: rest) =
      second ++ (flagChars flag ++ ')' :: others)) :
    first = second ∧ dedicated = flag ∧ rest = others := by
  have hsame : first = second := by
    rw [← takeWhile_delimited hfirst dedicated rest, h, takeWhile_delimited hsecond]
  subst hsame
  have hafter := List.append_cancel_left h
  have hflag : dedicated = flag := by
    obtain ⟨c, tail, htail, -, hc⟩ := flagChars_append_eq_cons dedicated rest
    obtain ⟨other, otherTail, hend, -, hother⟩ := flagChars_append_eq_cons flag others
    rw [htail, hend, List.cons.injEq] at hafter
    rw [Bool.eq_iff_iff, hc, hother, hafter.1]
  subst hflag
  exact ⟨rfl, rfl, (List.cons.inj (List.append_cancel_left hafter)).2⟩

end Split

-- Two public queries of one author, one of them for no type and the other for the type with the
-- name that a text has for no type.
def Confusable (first second : Flat) : Prop :=
  first.isPrivate = false ∧ second.isPrivate = false ∧ first.author = second.author ∧
    ((first.type = none ∧ second.type = some "null") ∨
      (first.type = some "null" ∧ second.type = none))

theorem getD_null_eq_iff {first second : Option String} :
    first.getD "null" = second.getD "null" ↔
      first = second ∨ (first = none ∧ second = some "null") ∨
        (first = some "null" ∧ second = none) := by
  cases first <;> cases second <;> simp [eq_comm]

variable {first second : Flat}

-- The type is the only thing between two ends that are fixed once the flag is known, so whatever
-- it has in it, it is what is left between them.
theorem privacyChars_eq_iff (dedicated : Bool) :
    first.privacyChars dedicated = second.privacyChars dedicated ↔
      first.isPrivate = second.isPrivate ∧
        (first.isPrivate = false → first.type.getD "null" = second.type.getD "null") := by
  obtain ⟨author, type, isPrivate⟩ := first
  obtain ⟨otherAuthor, otherType, otherPrivate⟩ := second
  cases isPrivate with
  | true =>
    cases otherPrivate with
    | true => simp [privacyChars]
    | false => simp [privacyChars]
  | false =>
    cases otherPrivate with
    | true => simp [privacyChars]
    | false => simp [privacyChars, String.toList_inj]

theorem text_operator_inj_iff {dedicated flag : Bool} (hfirst : isReference first.author = true)
    (hsecond : isReference second.author = true) :
    (first.operator dedicated).text = (second.operator flag).text ↔
      dedicated = flag ∧ first.author = second.author ∧ first.isPrivate = second.isPrivate ∧
        (first.isPrivate = false → first.type.getD "null" = second.type.getD "null") := by
  rw [← String.toList_inj, toList_text_operator, toList_text_operator, List.append_cancel_left_eq]
  constructor
  · intro h
    obtain ⟨hauthor, rfl, hprivacy⟩ :=
      split_delimited (not_isDelimiter_of_mem hfirst) (not_isDelimiter_of_mem hsecond) h
    exact ⟨rfl, String.toList_inj.mp hauthor, (privacyChars_eq_iff dedicated).mp hprivacy⟩
  · rintro ⟨rfl, hauthor, hprivacy⟩
    rw [hauthor, (privacyChars_eq_iff dedicated).mpr hprivacy]

theorem eq_or_confusable_iff (hfirst : first.IsConsistent) (hsecond : second.IsConsistent) :
    first = second ∨ Confusable first second ↔
      first.author = second.author ∧ first.isPrivate = second.isPrivate ∧
        (first.isPrivate = false → first.type.getD "null" = second.type.getD "null") := by
  rw [getD_null_eq_iff]
  constructor
  · rintro (rfl | ⟨hpublic, hother, hauthor, htype⟩)
    · exact ⟨rfl, rfl, fun _ => .inl rfl⟩
    · exact ⟨hauthor, hpublic.trans hother.symm, fun _ => .inr htype⟩
  · obtain ⟨author, type, isPrivate⟩ := first
    obtain ⟨otherAuthor, otherType, otherPrivate⟩ := second
    rintro ⟨rfl, rfl, htype⟩
    cases isPrivate with
    | true =>
      -- A private query has no type, so there is nothing else in which the two could differ.
      have hnone : type = none := hfirst rfl
      have hotherNone : otherType = none := hsecond rfl
      rw [hnone, hotherNone]
      exact .inl rfl
    | false =>
      obtain rfl | hnull := htype rfl
      · exact .inl rfl
      · exact .inr ⟨rfl, rfl, rfl, hnull⟩

-- The text of a tree tells the query and the flag, whatever the name of a type is made to look
-- like, save that it has one spelling for no type and for the type of that name.
theorem text_compile_eq_iff {left right : Json} (dedicated flag : Bool)
    (hleft : check isReference left = .ok first) (hright : check isReference right = .ok second) :
    ∃ tree other, compile isReference dedicated left = .ok tree ∧
      compile isReference flag right = .ok other ∧
      (tree.text = other.text ↔
        dedicated = flag ∧ (first = second ∨ Confusable first second)) := by
  refine ⟨_, _, (results_of_check hleft).2.2 dedicated, (results_of_check hright).2.2 flag, ?_⟩
  rw [text_operator_inj_iff (accepts_of_check hleft) (accepts_of_check hright),
    eq_or_confusable_iff (isConsistent_of_check hleft) (isConsistent_of_check hright)]

def untyped : Flat :=
  ⟨"@FCX/tsDLpubCPKKfIrw4gc+SQkHcaD17s7GI6i/ziWY=.ed25519", none, false⟩

-- A query for no type looks like one for the type `null`. A type that has the mark of the flag in
-- its name is still told from the flag.
theorem text_compile_untyped :
    (∃ tree other, compile isReference true untyped.toValue = .ok tree ∧
      compile isReference true (published untyped.author "null").toValue = .ok other ∧
      tree ≠ other ∧ tree.text = other.text) ∧
    ∃ tree other, compile isReference true untyped.toValue = .ok tree ∧
      compile isReference false (published untyped.author "null, dedicated").toValue = .ok other ∧
      tree.text ≠ other.text := by
  have hfeed : isReference untyped.author = true := by decide +kernel
  have huntyped : check isReference untyped.toValue = .ok untyped :=
    (check_toValue isReference untyped).trans (verdict_eq_ok_iff.mpr ⟨nofun, hfeed, rfl⟩)
  have hnamed : ∀ type, check isReference (published untyped.author type).toValue =
      .ok (published untyped.author type) := fun type =>
    (check_toValue isReference _).trans (verdict_eq_ok_iff.mpr ⟨nofun, hfeed, rfl⟩)
  obtain ⟨tree, other, htree, hother, hnull⟩ :=
    text_compile_eq_iff true true huntyped (hnamed "null")
  obtain ⟨_, forged, hsame, hforged, hmark⟩ :=
    text_compile_eq_iff true false huntyped (hnamed "null, dedicated")
  cases htree.symm.trans hsame
  refine ⟨⟨tree, other, htree, hother, ?_, ?_⟩, tree, forged, htree, hforged, ?_⟩
  · rintro rfl
    cases (results_of_check huntyped).2.2 true |>.symm.trans htree
    cases hother.symm.trans ((results_of_check (hnamed "null")).2.2 true)
  · exact hnull.mpr ⟨rfl, .inr ⟨rfl, rfl, rfl, .inl ⟨rfl, rfl⟩⟩⟩
  · intro htext
    cases (hmark.mp htext).1

end Flat

end FeedFilter
