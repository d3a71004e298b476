import FeedFilter.Proofs.Flat.Record
import FeedFilter.Proofs.Tier.Lowering

namespace FeedFilter.Flat

section Injective

variable {first second : Flat}

theorem ofNullable_injective : Function.Injective Operator.ofNullable := by
  intro first second h
  cases first with
  | none =>
    cases second with
    | none => rfl
    | some name => cases h
  | some name =>
    cases second with
    | none => cases h
    | some other =>
      cases h
      rfl

theorem toValue_injective : Function.Injective toValue := by
  intro first second h
  rw [toValue_eq_obj, toValue_eq_obj] at h
  have hfields := Json.obj.inj h
  simp only [fields, List.cons.injEq, Prod.mk.injEq, Json.str.injEq, Json.bool.injEq,
    true_and, and_true] at hfields
  obtain ⟨hauthor, hprivate, htype⟩ := hfields
  obtain ⟨author, type, isPrivate⟩ := first
  obtain ⟨otherAuthor, otherType, otherPrivate⟩ := second
  cases hauthor
  cases hprivate
  cases ofNullable_injective htype
  rfl

-- Whatever is in the fields, a text can be read back, so it is the text of one query only.
theorem text_injective : Function.Injective text := by
  intro first second h
  have hfirst := read_text first
  have hsecond := read_text second
  rw [h] at hfirst
  exact toValue_injective (Except.ok.inj (hfirst.symm.trans hsecond))

-- The operators of a private query leave its type out, and it has none if it is consistent.
theorem eq_of_operator_eq {dedicated : Bool} (hfirst : first.IsConsistent)
    (hsecond : second.IsConsistent)
    (h : first.operator dedicated = second.operator dedicated) : first = second := by
  obtain ⟨author, type, isPrivate⟩ := first
  obtain ⟨otherAuthor, otherType, otherPrivate⟩ := second
  rw [operator_eq, operator_eq] at h
  have hchildren := Operator.and.inj h
  cases isPrivate with
  | true =>
    cases otherPrivate with
    | true =>
      have htype : type = none := hfirst rfl
      have hother : otherType = none := hsecond rfl
      cases hchildren
      rw [htype, hother]
    | false => cases hchildren
  | false =>
    cases otherPrivate with
    | true => cases hchildren
    | false =>
      cases hchildren
      rfl

end Injective

variable {accepts : String → Bool} {left right third : Json}

theorem isConsistent_of_check {flat : Flat} (h : check accepts left = .ok flat) :
    flat.IsConsistent := by
  obtain ⟨members, _, hmembers⟩ := Except.bind_eq_ok h
  exact (ofRecord_eq_ok_iff.mp hmembers).2.1

theorem accepts_of_check {flat : Flat} (h : check accepts left = .ok flat) :
    accepts flat.author = true := by
  obtain ⟨members, _, hmembers⟩ := Except.bind_eq_ok h
  exact (ofRecord_eq_ok_iff.mp hmembers).2.2

theorem parse_fst_eq_some_iff {flat : Flat} :
    (parse accepts left).1 = some flat ↔ check accepts left = .ok flat := by
  constructor
  · intro h
    exact (Query.attempt_fst_eq_some_iff.mp h).2
  · intro h
    rw [(results_of_check h).1]

-- Two values are accepted as one query.
def Agree (accepts : String → Bool) (left right : Json) : Prop :=
  ∃ flat, check accepts left = .ok flat ∧ check accepts right = .ok flat

theorem equate_iff_agree : (equate accepts left right).1 = true ↔ Agree accepts left right := by
  simp only [equate, Bool.and_eq_true, decide_eq_true_eq, Option.isSome_iff_exists,
    parse_fst_eq_some_iff]
  constructor
  · rintro ⟨⟨flat, hleft⟩, hsame⟩
    refine ⟨flat, hleft, ?_⟩
    rw [← parse_fst_eq_some_iff, ← hsame]
    exact parse_fst_eq_some_iff.mpr hleft
  · rintro ⟨flat, hleft, hright⟩
    refine ⟨⟨flat, hleft⟩, ?_⟩
    rw [parse_fst_eq_some_iff.mpr hleft, parse_fst_eq_some_iff.mpr hright]

-- What is made of a query tells as much as the query if it differs for queries that differ. Only
-- accepted queries have to be told apart.
theorem agree_iff_map {α : Type} (make : Flat → α)
    (hmake : ∀ first second : Flat, first.IsConsistent → second.IsConsistent →
      make first = make second → first = second) :
    Agree accepts left right ↔ ∃ result, (check accepts left).map make = .ok result ∧
      (check accepts right).map make = .ok result := by
  constructor
  · rintro ⟨flat, hleft, hright⟩
    refine ⟨make flat, ?_, ?_⟩
    · rw [hleft]
      rfl
    · rw [hright]
      rfl
  · rintro ⟨result, hleft, hright⟩
    obtain ⟨first, hfirst, hresult⟩ := Except.map_eq_ok hleft
    obtain ⟨second, hsecond, hother⟩ := Except.map_eq_ok hright
    have hsame : first = second :=
      hmake first second (isConsistent_of_check hfirst) (isConsistent_of_check hsecond)
        (hresult.trans hother.symm)
    exact ⟨first, hfirst, hsame ▸ hsecond⟩

theorem Agree.symm (h : Agree accepts left right) : Agree accepts right left := by
  obtain ⟨flat, hleft, hright⟩ := h
  exact ⟨flat, hright, hleft⟩

theorem Agree.trans (h : Agree accepts left right) (hthird : Agree accepts right third) :
    Agree accepts left third := by
  obtain ⟨flat, hleft, hright⟩ := h
  obtain ⟨other, hother, hlast⟩ := hthird
  have hsame : flat = other := Except.ok.inj (hright.symm.trans hother)
  exact ⟨flat, hleft, hsame ▸ hlast⟩

-- Comparing two values, their canonical texts, or the trees that they are compiled to comes to the
-- same. So queries may be told apart by their texts: it is an equality on the values that are
-- accepted, and every other value is equal to nothing.
theorem equate_iff_text_iff_tree (accepts : String → Bool) (left right : Json) (dedicated : Bool) :
    ((equate accepts left right).1 = true ↔
      ∃ text, stringify accepts left = .ok text ∧ stringify accepts right = .ok text) ∧
    ((equate accepts left right).1 = true ↔
      ∃ tree, compile accepts dedicated left = .ok tree ∧
        compile accepts dedicated right = .ok tree) ∧
    (∀ first second : Flat, first.text = second.text ↔ first = second) ∧
    (equate accepts left right).1 = (equate accepts right left).1 ∧
    (∀ third, (equate accepts left right).1 = true → (equate accepts right third).1 = true →
      (equate accepts left third).1 = true) ∧
    ((equate accepts left left).1 = true ↔ ∃ flat, check accepts left = .ok flat) := by
  refine ⟨?_, ?_, fun first second => text_injective.eq_iff, ?_, ?_, ?_⟩
  · rw [equate_iff_agree]
    exact agree_iff_map text fun first second _ _ h => text_injective h
  · rw [equate_iff_agree]
    exact agree_iff_map (operator dedicated) fun first second => eq_of_operator_eq
  · rw [Bool.eq_iff_iff, equate_iff_agree, equate_iff_agree]
    exact ⟨Agree.symm, Agree.symm⟩
  · intro third
    rw [equate_iff_agree, equate_iff_agree, equate_iff_agree]
    exact Agree.trans
  · rw [equate_iff_agree]
    constructor
    · rintro ⟨flat, hleft, _⟩
      exact ⟨flat, hleft⟩
    · rintro ⟨flat, hleft⟩
      exact ⟨flat, hleft, hleft⟩

-- A query is equal to its text. A query for the type of the name `null` is not the one for no type.
theorem equate_untyped_null :
    (equate (fun _ => true) (published "@a" "null").toValue
        (.str (published "@a" "null").text)).1 = true ∧
      (equate (fun _ => true) (Flat.mk "@a" none false).toValue
        (.str (published "@a" "null").text)).1 = false := by
  have hvalue := check_toValue (fun _ => true) (published "@a" "null")
  have htext := check_text (fun _ => true) (published "@a" "null")
  have huntyped := check_toValue (fun _ => true) (Flat.mk "@a" none false)
  constructor
  · apply (equate_iff_text_iff_tree _ _ _ true).1.mpr
    exact ⟨_, (results_of_check hvalue).2.1, (results_of_check htext).2.1⟩
  · apply Bool.eq_false_iff.mpr
    intro hequal
    obtain ⟨text, hleft, hright⟩ := (equate_iff_text_iff_tree _ _ _ true).1.mp hequal
    cases (results_of_check huntyped).2.1.symm.trans hleft
    have hsame := Except.ok.inj (hright.symm.trans (results_of_check htext).2.1)
    cases text_injective hsame

end FeedFilter.Flat
