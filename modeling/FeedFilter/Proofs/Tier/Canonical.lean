import FeedFilter.Proofs.Flat.Equality
import FeedFilter.Proofs.Flat.Text
import FeedFilter.Proofs.Formula.Depth
import FeedFilter.Proofs.Tier.Interchangeable

namespace FeedFilter

theorem Parsed.text_eq_compact (parsed : Parsed) : parsed.text = parsed.toJson.compact := by
  cases parsed with
  | flat query => exact query.text_eq_compact
  | formula query => exact query.text_eq_compact

-- The texts that are put together by hand are the compact ones of the records, for queries of any
-- shape and depth, whether they would be accepted or not.
theorem Parsed.printers_agree :
    (∀ formula : Formula, formula.text = formula.toJson.compact) ∧
    (∀ flat : Flat, flat.text = flat.toJson.compact) ∧
    ∀ parsed : Parsed, parsed.text = parsed.toJson.compact :=
  ⟨Formula.text_eq_compact, Flat.text_eq_compact, text_eq_compact⟩

namespace Operator

mutual

-- The formula that a tree was made of, if it was made of one. The flags of the predicates do not
-- count.
def formula? : Operator → Option Formula
  | .and children => (formulas? children).map .and
  | .or children => (formulas? children).map .or
  | .author feed _ => some (.author feed)
  | .type (some name) _ => some (.type name)
  | .type none _ => none
  | .isPrivate => none
  | .isPublic => none

def formulas? : List Operator → Option (List Formula)
  | [] => some []
  | child :: rest => do
    let first ← child.formula?
    let others ← formulas? rest
    return first :: others

end

end Operator

namespace Formula

variable (dedicated : Bool)

mutual

theorem formula?_operator : ∀ formula : Formula,
    (formula.operator dedicated).formula? = some formula
  | .and args => by
    rw [operator_and, Operator.formula?, formulas?_map_operator args]
    rfl
  | .or args => by
    rw [operator_or, Operator.formula?, formulas?_map_operator args]
    rfl
  | .type name | .author feed => rfl

theorem formulas?_map_operator : ∀ args : List Formula,
    Operator.formulas? (args.map (operator dedicated)) = some args
  | [] => rfl
  | arg :: rest => by
    rw [List.map_cons, Operator.formulas?, formula?_operator arg, formulas?_map_operator rest]
    rfl

end

theorem operator_injective : Function.Injective (operator dedicated) := by
  intro first second h
  have hformula := congrArg Operator.formula? h
  rw [formula?_operator, formula?_operator] at hformula
  exact Option.some.inj hformula

theorem toJson_injective : Function.Injective toJson := by
  intro first second h
  have hcheck := check_toJson first
  rw [h, check_toJson] at hcheck
  exact (Except.ok.inj hcheck).symm

-- The limit of the reader does not matter here, as the texts could be read without it.
theorem text_injective : Function.Injective text := by
  intro first second h
  rw [text_eq_compact, text_eq_compact] at h
  exact toJson_injective
    (Json.eq_of_compact_eq (isFloatFree_toJson first) (isFloatFree_toJson second) h)

-- Neither the text nor the tree of a query leaves anything out: values that are accepted stand for
-- one query, have one text and are compiled to one tree all at once. This is so for queries of any
-- depth, also for those of which the text is not accepted in turn.
theorem check_eq_iff_text_iff_tree {left right : Json} {first second : Formula}
    (hleft : check left = .ok first) (hright : check right = .ok second) :
    (check left = check right ↔ stringify left = stringify right) ∧
    (check left = check right ↔ compile dedicated left = compile dedicated right) ∧
    Function.Injective text ∧
    Function.Injective (operator dedicated) := by
  have hcheck : check left = check right ↔ first = second := by
    rw [hleft, hright, Except.ok.injEq]
  obtain ⟨_, htext, htree⟩ := results_of_check hleft
  obtain ⟨_, hotherText, hotherTree⟩ := results_of_check hright
  refine ⟨?_, ?_, text_injective, operator_injective dedicated⟩
  · rw [hcheck, htext, hotherText, Except.ok.injEq]
    exact text_injective.eq_iff.symm
  · rw [hcheck, htree, hotherTree, Except.ok.injEq]
    exact (operator_injective dedicated).eq_iff.symm

-- Two queries that differ in the order of their arguments, one of them too deep for a reader.
def deepFirst : Formula :=
  .and [wrapped 64 (.type "post"), .or []]

def deepLast : Formula :=
  .and [.or [], wrapped 64 (.type "post")]

theorem check_deepFirst_ne :
    127 < deepFirst.nest ∧
      check deepFirst.toJson.canonical = .ok deepFirst ∧
      check deepLast.toJson.canonical = .ok deepLast ∧
      stringify deepFirst.toJson.canonical ≠ stringify deepLast.toJson.canonical ∧
      compile true deepFirst.toJson.canonical ≠ compile true deepLast.toJson.canonical := by
  have hnest : 127 < deepFirst.nest := by
    have hwrapped := (nest_of_leafUnder true (leafUnder_wrapped "post" 64)).1
    simp only [deepFirst, nest, nestAll, hwrapped]
    decide
  have hfirst := check_toJson deepFirst
  have hlast := check_toJson deepLast
  have hne : check deepFirst.toJson.canonical ≠ check deepLast.toJson.canonical := by
    rw [hfirst, hlast]
    nofun
  obtain ⟨htext, htree, _⟩ := check_eq_iff_text_iff_tree true hfirst hlast
  exact ⟨hnest, hfirst, hlast, fun h => hne (htext.mpr h), fun h => hne (htree.mpr h)⟩

end Formula

theorem Parsed.isFloatFree_toJson (parsed : Parsed) : parsed.toJson.isFloatFree = true := by
  cases parsed with
  | flat query => exact query.isFloatFree_toJson
  | formula query => exact query.isFloatFree_toJson

theorem Parsed.toJson_eq_obj (parsed : Parsed) : ∃ members, parsed.toJson = .obj members := by
  cases parsed with
  | flat query => exact ⟨_, rfl⟩
  | formula query => cases query <;> exact ⟨_, rfl⟩

namespace Tier

variable {tier : Tier} {accepts : String → Bool} {query : Json} {parsed : Parsed}

-- The record of a query that is accepted is accepted as this query.
theorem check_toJson (h : tier.check accepts query = .ok parsed) :
    tier.check accepts parsed.toJson.canonical = .ok parsed := by
  cases tier with
  | ql0 =>
    obtain ⟨flat, hflat, rfl⟩ := Except.map_eq_ok h
    have hverdict : Flat.verdict accepts flat = .ok flat := Flat.verdict_eq_ok_iff.mpr
      ⟨Flat.isConsistent_of_check hflat, Flat.accepts_of_check hflat, rfl⟩
    exact congrArg (Except.map Parsed.flat) ((flat.check_toValue accepts).trans hverdict)
  | ql1 =>
    obtain ⟨formula, _, rfl⟩ := Except.map_eq_ok h
    exact congrArg (Except.map Parsed.formula) formula.check_toJson

-- So is any text for it that a reader gets to the end of.
theorem check_of_spelledBy {text : String} (h : tier.check accepts query = .ok parsed)
    (hspelled : parsed.toJson.SpelledBy text) (hnest : parsed.toJson.nest ≤ Json.nestingLimit) :
    tier.check accepts (.str text) = .ok parsed := by
  obtain ⟨members, hmembers⟩ := parsed.toJson_eq_obj
  have hread := (Json.read_of_spelledBy hspelled).1 hnest
  rw [hmembers, Json.canonical] at hread
  have hsame := (Query.record_text hread).trans (Query.record_obj _).symm
  rw [check_of_record hsame, ← Json.canonical, ← hmembers, check_toJson h]

end Tier

end FeedFilter
