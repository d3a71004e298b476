import FeedFilter.Proofs.Flat.Migrate
import FeedFilter.Proofs.Formula.Failure

namespace FeedFilter

variable {query : Json} {members : Members}

theorem Formula.check_of_no_operator (hrecord : Query.record query = .ok members)
    (hop : members.lookup "op" = none) : check query = .error (.missingField "op") := by
  refine check_of_leads .here (.noOperator hrecord ?_)
  intro op hsome
  cases hop.symm.trans hsome

namespace Flat

variable {accepts : String → Bool} {flat : Flat}

-- All that flat queries and former records have in them is counted, so there is no room for an
-- operator.
theorem formula_check_of_check (h : check accepts query = .ok flat) :
    Formula.check query = .error (.missingField "op") := by
  obtain ⟨members, hrecord, hmembers⟩ := Except.bind_eq_ok h
  have hfits : Fits members flat := (ofRecord_eq_ok_iff.mp hmembers).1
  exact Formula.check_of_no_operator hrecord (hfits.lookup_eq_none (by decide))

theorem formula_check_of_migrate (h : migrate accepts query = .ok flat) :
    Formula.check query = .error (.missingField "op") := by
  obtain ⟨members, author, type, hrecord, hfits, _⟩ := migrate_eq_ok_iff.mp h
  exact Formula.check_of_no_operator hrecord (hfits.lookup_eq_none (by decide))

end Flat

namespace Tier

-- A value is a query of one format at most, whatever authors the flat formats let pass. What is
-- taken for a flat query of today or of former times is no formula, and it is refused as one for
-- want of an operator.
theorem count_accepting_le_one (accepts others : String → Bool) (query : Json) :
    [(Flat.check accepts query).isOk, (Flat.migrate others query).isOk,
        (Formula.check query).isOk].count true ≤ 1 ∧
      ∀ flat, Flat.check accepts query = .ok flat ∨ Flat.migrate others query = .ok flat →
        Formula.check query = .error (.missingField "op") := by
  constructor
  · cases hmigrate : Flat.migrate others query with
    | ok former =>
      rw [Flat.check_of_migrate hmigrate, Flat.formula_check_of_migrate hmigrate]
      exact Nat.le_refl 1
    | error refusal =>
      cases hcheck : Flat.check accepts query with
      | ok flat =>
        rw [Flat.formula_check_of_check hcheck]
        exact Nat.le_refl 1
      | error error =>
        cases Formula.check query with
        | ok formula => exact Nat.le_refl 1
        | error failure => exact Nat.zero_le 1
  · rintro flat (hcheck | hmigrate)
    · exact Flat.formula_check_of_check hcheck
    · exact Flat.formula_check_of_migrate hmigrate

theorem count_accepting_encrypted :
    Flat.check (fun _ => true) (Flat.encrypted "@a").toValue = .ok (Flat.encrypted "@a") ∧
      Formula.check (Flat.encrypted "@a").toValue = .error (.missingField "op") := by
  have hcheck : Flat.check (fun _ => true) (Flat.encrypted "@a").toValue =
      .ok (Flat.encrypted "@a") := Flat.check_toValue _ _
  exact ⟨hcheck, (count_accepting_le_one _ (fun _ => true) _).2 _ (.inl hcheck)⟩

end Tier

end FeedFilter
