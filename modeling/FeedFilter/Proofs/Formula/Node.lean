import FeedFilter.Formula.Check
import FeedFilter.Proofs.Query.Record

namespace FeedFilter.Formula

open Query (textField textField_eq_ok_iff)

-- The operators that stand over a list of arguments.
def combinators : List String := ["and", "or"]

-- The other operators, each with the field that holds its text.
def leafFields : List (String × String) := [("type", "string"), ("author", "feed")]

-- What a record can have for an operator.
inductive OperatorView (members : Members) : Prop
  | absent (h : ∀ op, members.lookup "op" = some op → op.isTruthy = false)
  | combinator {name} (h : members.lookup "op" = some (.str name)) (hname : name ∈ combinators)
  | leaf {name field} (h : members.lookup "op" = some (.str name))
      (hname : (name, field) ∈ leafFields)
  | unknown {name} (h : members.lookup "op" = some (.str name)) (hne : name ≠ "")
      (hcombinator : name ∉ combinators) (hleaf : name ∉ leafFields.map Prod.fst)
  | noName {op} (h : members.lookup "op" = some op) (htruthy : op.isTruthy = true)
      (hname : ∀ name, op ≠ .str name)

theorem operatorView (members : Members) : OperatorView members := by
  cases hop : members.lookup "op" with
  | none => exact .absent (by simp [hop])
  | some op =>
    by_cases htruthy : op.isTruthy = true
    · cases op with
      | str name =>
        by_cases hcombinator : name ∈ combinators
        · exact .combinator hop hcombinator
        · by_cases hleaf : name ∈ leafFields.map Prod.fst
          · obtain ⟨⟨_, field⟩, hmem, rfl⟩ := List.mem_map.mp hleaf
            exact .leaf hop hmem
          · exact .unknown hop (by simpa [Json.isTruthy] using htruthy) hcombinator hleaf
      | null => cases htruthy
      | bool value => exact .noName hop htruthy (by simp)
      | num number => exact .noName hop htruthy (by simp)
      | arr items => exact .noName hop htruthy (by simp)
      | obj inner => exact .noName hop htruthy (by simp)
    · refine .absent ?_
      intro other hother
      rw [hop] at hother
      cases hother
      simpa using htruthy

section Fields

variable {members : Members} {error : QueryError}

theorem argsField_eq_ok_iff {args : List Json} :
    argsField members = .ok args ↔ members.lookup "args" = some (.arr args) := by
  unfold argsField
  split
  · next found h => simp [h]
  · next h =>
    simp only [reduceCtorEq, false_iff]
    exact h args

theorem argsField_eq_error_iff :
    argsField members = .error error ↔
      (∀ args, members.lookup "args" ≠ some (.arr args)) ∧ error = .argsNotList := by
  unfold argsField
  split
  · next found h => simp [h]
  · next h =>
    rw [Except.error.injEq, eq_comm]
    exact ⟨fun he => ⟨h, he⟩, And.right⟩

end Fields

namespace Node

variable {members : Members}

theorem ofRecord_and (h : members.lookup "op" = some (.str "and")) :
    ofRecord members = (argsField members).map .and := by
  rw [ofRecord, h]
  rfl

theorem ofRecord_or (h : members.lookup "op" = some (.str "or")) :
    ofRecord members = (argsField members).map .or := by
  rw [ofRecord, h]
  rfl

theorem ofRecord_type (h : members.lookup "op" = some (.str "type")) :
    ofRecord members = (textField members "string").map fun name => .leaf (.type name) := by
  rw [ofRecord, h]
  rfl

theorem ofRecord_author (h : members.lookup "op" = some (.str "author")) :
    ofRecord members = (textField members "feed").map fun feed => .leaf (.author feed) := by
  rw [ofRecord, h]
  rfl

-- Every combinator makes its node of the list under `args`.
theorem ofRecord_combinator {name : String} (h : members.lookup "op" = some (.str name))
    (hname : name ∈ combinators) :
    ∃ make : List Json → Node, (∀ args, (make args).args = args) ∧
      ofRecord members = (argsField members).map make := by
  simp only [combinators, List.mem_cons, List.not_mem_nil, or_false] at hname
  rcases hname with rfl | rfl
  · exact ⟨.and, fun _ => rfl, ofRecord_and h⟩
  · exact ⟨.or, fun _ => rfl, ofRecord_or h⟩

-- Every other operator makes its node of the text in its field.
theorem ofRecord_leaf {name field : String} (h : members.lookup "op" = some (.str name))
    (hname : (name, field) ∈ leafFields) :
    ∃ make : String → Formula, ofRecord members =
      (textField members field).map fun text => .leaf (make text) := by
  simp only [leafFields, List.mem_cons, Prod.mk.injEq, List.not_mem_nil, or_false] at hname
  rcases hname with ⟨rfl, rfl⟩ | ⟨rfl, rfl⟩
  · exact ⟨.type, ofRecord_type h⟩
  · exact ⟨.author, ofRecord_author h⟩

theorem ofRecord_absent (h : ∀ op, members.lookup "op" = some op → op.isTruthy = false) :
    ofRecord members = .error (.missingField "op") := by
  unfold ofRecord
  split
  · rfl
  · next op hop => rw [h op hop]; rfl

theorem ofRecord_unknown {name : String} (h : members.lookup "op" = some (.str name))
    (hne : name ≠ "") (hcombinator : name ∉ combinators) (hleaf : name ∉ leafFields.map Prod.fst) :
    ofRecord members = .error (.unknownOperator name) := by
  have htruthy : (Json.str name).isTruthy = true := by simp [Json.isTruthy, hne]
  simp only [combinators, leafFields, List.map_cons, List.map_nil, List.mem_cons,
    List.not_mem_nil, or_false, not_or] at hcombinator hleaf
  rw [ofRecord, h]
  simp only [htruthy, if_true]
  split
  all_goals simp_all

theorem ofRecord_noName {op : Json} (h : members.lookup "op" = some op)
    (htruthy : op.isTruthy = true) (hname : ∀ name, op ≠ .str name) :
    ofRecord members = .error (.unknownOperator op.compact) := by
  rw [ofRecord, h]
  simp only [htruthy, if_true]
  split
  all_goals first
    | exact absurd rfl (hname _)
    | rfl

-- The four forms of a node, each with the one field that its operator asks for.
theorem ofRecord_eq_ok_iff {node : Node} :
    ofRecord members = .ok node ↔
      (∃ args, members.lookup "op" = some (.str "and") ∧
        members.lookup "args" = some (.arr args) ∧ node = .and args) ∨
      (∃ args, members.lookup "op" = some (.str "or") ∧
        members.lookup "args" = some (.arr args) ∧ node = .or args) ∨
      (∃ name, members.lookup "op" = some (.str "type") ∧
        members.lookup "string" = some (.str name) ∧ node = .leaf (.type name)) ∨
      ∃ feed, members.lookup "op" = some (.str "author") ∧
        members.lookup "feed" = some (.str feed) ∧ node = .leaf (.author feed) := by
  constructor
  · intro h
    unfold ofRecord at h
    cases hop : members.lookup "op" with
    | none =>
      rw [hop] at h
      cases h
    | some op =>
      rw [hop] at h
      simp only at h
      split at h
      · split at h
        · obtain ⟨args, hargs, rfl⟩ := Except.map_eq_ok h
          exact .inl ⟨args, rfl, argsField_eq_ok_iff.mp hargs, rfl⟩
        · obtain ⟨args, hargs, rfl⟩ := Except.map_eq_ok h
          exact .inr (.inl ⟨args, rfl, argsField_eq_ok_iff.mp hargs, rfl⟩)
        · obtain ⟨name, hname, rfl⟩ := Except.map_eq_ok h
          exact .inr (.inr (.inl ⟨name, rfl, textField_eq_ok_iff.mp hname, rfl⟩))
        · obtain ⟨feed, hfeed, rfl⟩ := Except.map_eq_ok h
          exact .inr (.inr (.inr ⟨feed, rfl, textField_eq_ok_iff.mp hfeed, rfl⟩))
        · cases h
        · cases h
      · cases h
  · rintro (⟨args, hop, hargs, rfl⟩ | ⟨args, hop, hargs, rfl⟩ | ⟨name, hop, hname, rfl⟩ |
      ⟨feed, hop, hfeed, rfl⟩)
    · rw [ofRecord_and hop, argsField_eq_ok_iff.mpr hargs]
      rfl
    · rw [ofRecord_or hop, argsField_eq_ok_iff.mpr hargs]
      rfl
    · rw [ofRecord_type hop, textField_eq_ok_iff.mpr hname]
      rfl
    · rw [ofRecord_author hop, textField_eq_ok_iff.mpr hfeed]
      rfl

theorem ofQuery_eq_ok_iff {query : Json} {node : Node} :
    ofQuery query = .ok node ↔ ∃ members, Query.record query = .ok members ∧
      ofRecord members = .ok node := by
  constructor
  · exact Except.bind_eq_ok
  · rintro ⟨members, hmembers, hnode⟩
    rw [ofQuery, hmembers]
    exact hnode

-- The node under a combinator holds the list of arguments.
theorem ofQuery_combinator {query : Json} {name : String} {args : List Json}
    (hrecord : Query.record query = .ok members) (hop : members.lookup "op" = some (.str name))
    (hname : name ∈ combinators) (hargs : members.lookup "args" = some (.arr args)) :
    ∃ node, ofQuery query = .ok node ∧ node.args = args := by
  obtain ⟨make, hmake, hrecordNode⟩ := ofRecord_combinator hop hname
  rw [argsField_eq_ok_iff.mpr hargs] at hrecordNode
  exact ⟨make args, ofQuery_eq_ok_iff.mpr ⟨members, hrecord, hrecordNode⟩, hmake args⟩

-- Only a combinator has arguments.
theorem combinator_of_mem {query arg : Json} {node : Node} (h : ofQuery query = .ok node)
    (harg : arg ∈ node.args) :
    ∃ members name, Query.record query = .ok members ∧
      members.lookup "op" = some (.str name) ∧ name ∈ combinators ∧
      members.lookup "args" = some (.arr node.args) := by
  obtain ⟨members, hrecord, hnode⟩ := ofQuery_eq_ok_iff.mp h
  rcases ofRecord_eq_ok_iff.mp hnode with ⟨args, hop, hargs, rfl⟩ | ⟨args, hop, hargs, rfl⟩ |
    ⟨name, hop, _, rfl⟩ | ⟨feed, hop, _, rfl⟩
  · exact ⟨members, "and", hrecord, hop, by simp [combinators], hargs⟩
  · exact ⟨members, "or", hrecord, hop, by simp [combinators], hargs⟩
  · cases harg
  · cases harg

end Node

end FeedFilter.Formula
