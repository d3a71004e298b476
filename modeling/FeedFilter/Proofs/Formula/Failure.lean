import FeedFilter.Proofs.Formula.Check
import FeedFilter.Proofs.Formula.Node

namespace FeedFilter.Formula

-- Why a value is no query, whatever its arguments are.
inductive FailsLocally : Json → QueryError → Prop
  | notRecord {query error} : Query.record query = .error error → FailsLocally query error
  | noOperator {query members} : Query.record query = .ok members →
      (∀ op, members.lookup "op" = some op → op.isTruthy = false) →
      FailsLocally query (.missingField "op")
  | unknownName {query members name} : Query.record query = .ok members →
      members.lookup "op" = some (.str name) → name ≠ "" → name ∉ combinators →
      name ∉ leafFields.map Prod.fst → FailsLocally query (.unknownOperator name)
  | notName {query members op} : Query.record query = .ok members →
      members.lookup "op" = some op → op.isTruthy = true → (∀ name, op ≠ .str name) →
      FailsLocally query (.unknownOperator op.compact)
  | noArgs {query members name} : Query.record query = .ok members →
      members.lookup "op" = some (.str name) → name ∈ combinators →
      (∀ args, members.lookup "args" ≠ some (.arr args)) → FailsLocally query .argsNotList
  | noField {query members name field} : Query.record query = .ok members →
      members.lookup "op" = some (.str name) → (name, field) ∈ leafFields →
      members.lookup field = none → FailsLocally query (.missingField field)
  | wrongField {query members name field value} : Query.record query = .ok members →
      members.lookup "op" = some (.str name) → (name, field) ∈ leafFields →
      members.lookup field = some value → (∀ text, value ≠ .str text) →
      FailsLocally query (.wrongField field "a string")

-- A path of places in lists of arguments leads from a query to a value in it, past values that
-- are accepted. Each node on the way is decoded first.
inductive Leads : List Nat → Json → Json → Prop
  | here {query} : Leads [] query query
  | inside {place path query members name args arg found} : Query.record query = .ok members →
      members.lookup "op" = some (.str name) → name ∈ combinators →
      members.lookup "args" = some (.arr args) → args[place]? = some arg →
      (∀ earlier ∈ args.take place, ∃ formula, check earlier = .ok formula) →
      Leads path arg found → Leads (place :: path) query found

-- Two queries have the same operators along a path, the same values before it, and the same
-- value at its end. What comes after the path may differ.
inductive AgreeUpTo : List Nat → Json → Json → Prop
  | here {query} : AgreeUpTo [] query query
  | inside {place path query other members otherMembers args otherArgs arg otherArg} :
      Query.record query = .ok members → Query.record other = .ok otherMembers →
      members.lookup "op" = otherMembers.lookup "op" →
      members.lookup "args" = some (.arr args) →
      otherMembers.lookup "args" = some (.arr otherArgs) →
      args.take place = otherArgs.take place → args[place]? = some arg →
      otherArgs[place]? = some otherArg → AgreeUpTo path arg otherArg →
      AgreeUpTo (place :: path) query other

theorem failsLocally_of_ofRecord {query : Json} {members : Members} {error : QueryError}
    (hrecord : Query.record query = .ok members) (h : Node.ofRecord members = .error error) :
    FailsLocally query error := by
  cases operatorView members with
  | absent hop =>
    rw [Node.ofRecord_absent hop] at h
    cases h
    exact .noOperator hrecord hop
  | combinator hop hname =>
    obtain ⟨make, _, hmake⟩ := Node.ofRecord_combinator hop hname
    rw [hmake] at h
    obtain ⟨hargs, rfl⟩ := argsField_eq_error_iff.mp (Except.map_eq_error h)
    exact .noArgs hrecord hop hname hargs
  | leaf hop hname =>
    obtain ⟨make, hmake⟩ := Node.ofRecord_leaf hop hname
    rw [hmake] at h
    rcases Query.textField_eq_error_iff.mp (Except.map_eq_error h) with
      ⟨hnone, rfl⟩ | ⟨value, hvalue, htext, rfl⟩
    · exact .noField hrecord hop hname hnone
    · exact .wrongField hrecord hop hname hvalue htext
  | unknown hop hne hcombinator hleaf =>
    rw [Node.ofRecord_unknown hop hne hcombinator hleaf] at h
    cases h
    exact .unknownName hrecord hop hne hcombinator hleaf
  | noName hop htruthy hname =>
    rw [Node.ofRecord_noName hop htruthy hname] at h
    cases h
    exact .notName hrecord hop htruthy hname

theorem ofQuery_eq_error_iff {query : Json} {error : QueryError} :
    Node.ofQuery query = .error error ↔ FailsLocally query error := by
  constructor
  · intro h
    rcases Except.bind_eq_error h with hrecord | ⟨members, hrecord, hnode⟩
    · exact .notRecord hrecord
    · exact failsLocally_of_ofRecord hrecord hnode
  · intro h
    cases h with
    | notRecord hrecord =>
      rw [Node.ofQuery, hrecord]
      rfl
    | noOperator hrecord hop =>
      rw [Node.ofQuery, hrecord]
      exact Node.ofRecord_absent hop
    | unknownName hrecord hop hne hcombinator hleaf =>
      rw [Node.ofQuery, hrecord]
      exact Node.ofRecord_unknown hop hne hcombinator hleaf
    | notName hrecord hop htruthy hname =>
      rw [Node.ofQuery, hrecord]
      exact Node.ofRecord_noName hop htruthy hname
    | noArgs hrecord hop hname hargs =>
      obtain ⟨make, _, hmake⟩ := Node.ofRecord_combinator hop hname
      rw [Node.ofQuery, hrecord]
      simp only [bind, Except.bind, hmake, argsField_eq_error_iff.mpr ⟨hargs, rfl⟩]
      rfl
    | noField hrecord hop hname hnone =>
      obtain ⟨make, hmake⟩ := Node.ofRecord_leaf hop hname
      rw [Node.ofQuery, hrecord]
      simp only [bind, Except.bind, hmake, Query.textField_eq_error_iff.mpr (.inl ⟨hnone, rfl⟩)]
      rfl
    | wrongField hrecord hop hname hvalue htext =>
      obtain ⟨make, hmake⟩ := Node.ofRecord_leaf hop hname
      rw [Node.ofQuery, hrecord]
      simp only [bind, Except.bind, hmake,
        Query.textField_eq_error_iff.mpr (.inr ⟨_, hvalue, htext, rfl⟩)]
      rfl

-- A value at the end of a path passes its error on to the query, as it is.
theorem check_of_leads {path : List Nat} {query found : Json} {error : QueryError}
    (hleads : Leads path query found) (hfails : FailsLocally found error) :
    check query = .error error := by
  induction hleads with
  | here => exact check_eq_error_iff.mpr (.inl (ofQuery_eq_error_iff.mpr hfails))
  | inside hrecord hop hname hargs harg hearlier _ ih =>
    obtain ⟨node, hnode, rfl⟩ := Node.ofQuery_combinator hrecord hop hname hargs
    have hall := checkAll_eq_error_iff.mpr ⟨_, _, harg, hearlier, ih hfails⟩
    exact check_eq_error_iff.mpr (.inr ⟨node, hnode, hall⟩)

theorem leads_of_check (query : Json) : ∀ error, check query = .error error →
    ∃ path found, Leads path query found ∧ FailsLocally found error := by
  induction query using induction_args with
  | step query ih =>
    intro error h
    rcases check_eq_error_iff.mp h with hnode | ⟨node, hnode, hall⟩
    · exact ⟨[], query, .here, ofQuery_eq_error_iff.mp hnode⟩
    · obtain ⟨place, arg, harg, hearlier, herror⟩ := checkAll_eq_error_iff.mp hall
      have hmem := List.mem_of_getElem? harg
      obtain ⟨members, name, hrecord, hop, hname, hargs⟩ := Node.combinator_of_mem hnode hmem
      obtain ⟨path, found, hleads, hfails⟩ := ih node hnode arg hmem error herror
      exact ⟨place :: path, found, .inside hrecord hop hname hargs harg hearlier hleads, hfails⟩

-- The same path leads through a query that agrees up to its end.
theorem leads_of_agreeUpTo {path : List Nat} {query other found : Json}
    (hagree : AgreeUpTo path query other) (hleads : Leads path query found) :
    Leads path other found := by
  induction hagree generalizing found with
  | here => exact hleads
  | inside hrecord hother hop hargs hotherArgs htake harg hotherArg _ ih =>
    cases hleads with
    | inside hrecord' hop' hname hargs' harg' hearlier hleads =>
      cases hrecord.symm.trans hrecord'
      cases hargs.symm.trans hargs'
      cases harg.symm.trans harg'
      exact .inside hother (hop.symm.trans hop') hname hotherArgs hotherArg (htake ▸ hearlier)
        (ih hleads)

-- No value on the way of a path fails by itself.
theorem not_failsLocally_of_inside {query : Json} {members : Members} {name : String}
    {args : List Json} {error : QueryError} (hrecord : Query.record query = .ok members)
    (hop : members.lookup "op" = some (.str name)) (hname : name ∈ combinators)
    (hargs : members.lookup "args" = some (.arr args)) : ¬FailsLocally query error := by
  intro hfails
  obtain ⟨node, hnode, _⟩ := Node.ofQuery_combinator hrecord hop hname hargs
  have hbad := hnode.symm.trans (ofQuery_eq_error_iff.mpr hfails)
  cases hbad

-- A place before another that is led through is accepted, so no fault lies in it.
theorem not_lt_of_leads {args : List Json} {place other : Nat} {path : List Nat}
    {arg found : Json} {error : QueryError} (harg : args[place]? = some arg)
    (hleads : Leads path arg found) (hfails : FailsLocally found error)
    (hearlier : ∀ earlier ∈ args.take other, ∃ formula, check earlier = .ok formula) :
    ¬place < other := by
  intro hlt
  have hmem : arg ∈ args.take other := by
    rw [List.mem_take_iff_getElem]
    obtain ⟨hlength, rfl⟩ := List.getElem?_eq_some_iff.mp harg
    exact ⟨place, by omega, rfl⟩
  obtain ⟨formula, hformula⟩ := hearlier arg hmem
  have hbad := hformula.symm.trans (check_of_leads hleads hfails)
  cases hbad

theorem leads_unique {path otherPath : List Nat} {query found otherFound : Json}
    {error otherError : QueryError} (hleads : Leads path query found)
    (hfails : FailsLocally found error) (hother : Leads otherPath query otherFound)
    (hotherFails : FailsLocally otherFound otherError) :
    path = otherPath ∧ found = otherFound := by
  induction hleads generalizing otherPath with
  | here =>
    cases hother with
    | here => exact ⟨rfl, rfl⟩
    | inside hrecord hop hname hargs _ _ _ =>
      exact absurd hfails (not_failsLocally_of_inside hrecord hop hname hargs)
  | inside hrecord hop hname hargs harg hearlier hleads ih =>
    cases hother with
    | here => exact absurd hotherFails (not_failsLocally_of_inside hrecord hop hname hargs)
    | inside hrecord' _ _ hargs' harg' hearlier' hleads' =>
      cases hrecord.symm.trans hrecord'
      cases hargs.symm.trans hargs'
      have hge := not_lt_of_leads harg hleads hfails hearlier'
      have hle := not_lt_of_leads harg' hleads' hotherFails hearlier
      obtain rfl := Nat.le_antisymm (Nat.le_of_not_lt hle) (Nat.le_of_not_lt hge)
      cases harg.symm.trans harg'
      obtain ⟨rfl, rfl⟩ := ih hfails hleads'
      exact ⟨rfl, rfl⟩

-- The error of a query is that of the first value that fails by itself, in the order in which the
-- query is written. There is one path to it, and nothing after the path counts.
theorem check_eq_error_iff_leads (query : Json) :
    (∀ error, check query = .error error ↔
      ∃ path found, Leads path query found ∧ FailsLocally found error) ∧
    (∀ path otherPath found otherFound error otherError, Leads path query found →
      FailsLocally found error → Leads otherPath query otherFound →
      FailsLocally otherFound otherError →
      path = otherPath ∧ found = otherFound ∧ error = otherError) ∧
    ∀ path found error other, Leads path query found → FailsLocally found error →
      AgreeUpTo path query other → check other = .error error := by
  refine ⟨?_, ?_, ?_⟩
  · intro error
    constructor
    · exact leads_of_check query error
    · rintro ⟨path, found, hleads, hfails⟩
      exact check_of_leads hleads hfails
  · intro path otherPath found otherFound error otherError hleads hfails hother hotherFails
    obtain ⟨hpath, hfound⟩ := leads_unique hleads hfails hother hotherFails
    have hsame := (check_of_leads hleads hfails).symm.trans (check_of_leads hother hotherFails)
    exact ⟨hpath, hfound, Except.error.inj hsame⟩
  · intro path found error other hleads hfails hagree
    exact check_of_leads (leads_of_agreeUpTo hagree hleads) hfails

end FeedFilter.Formula
