import FeedFilter.Formula.Check
import FeedFilter.Proofs.Json.Size
import FeedFilter.Proofs.Query.Record
import Mathlib.Data.List.Forall2

namespace FeedFilter.Formula

-- The formula of a node whose arguments have been checked.
def Node.fill (formulas : List Formula) : Node → Formula
  | .and _ => .and formulas
  | .or _ => .or formulas
  | .leaf formula => formula

@[simp] theorem checkAll_nil : checkAll [] = .ok [] := by
  rw [checkAll]

theorem checkAll_cons (arg : Json) (rest : List Json) :
    checkAll (arg :: rest) = (do
      let first ← check arg
      let others ← checkAll rest
      return first :: others) := by
  rw [checkAll]

-- A node comes first, then its arguments.
theorem check_eq (query : Json) :
    check query = (do
      let node ← Node.ofQuery query
      let formulas ← checkAll node.args
      return node.fill formulas) := by
  rw [check]
  split
  · next error herror =>
    rw [herror]
    rfl
  · next formula hleaf =>
    rw [hleaf]
    simp only [bind, Except.bind, Node.args, checkAll_nil]
    rfl
  · next args hand =>
    rw [hand]
    rfl
  · next args hor =>
    rw [hor]
    rfl

theorem checkAll_eq_ok_iff {args : List Json} {formulas : List Formula} :
    checkAll args = .ok formulas ↔
      List.Forall₂ (fun arg formula => check arg = .ok formula) args formulas := by
  induction args generalizing formulas with
  | nil =>
    rw [checkAll_nil, List.forall₂_nil_left_iff, Except.ok.injEq, eq_comm]
  | cons arg rest ih =>
    rw [checkAll_cons, List.forall₂_cons_left_iff]
    constructor
    · intro h
      obtain ⟨first, hfirst, h⟩ := Except.bind_eq_ok h
      obtain ⟨others, hothers, h⟩ := Except.bind_eq_ok h
      cases h
      exact ⟨first, others, hfirst, ih.mp hothers, rfl⟩
    · rintro ⟨first, others, hfirst, hothers, rfl⟩
      rw [hfirst, ih.mpr hothers]
      rfl

theorem check_eq_ok_iff {query : Json} {formula : Formula} :
    check query = .ok formula ↔
      ∃ node formulas, Node.ofQuery query = .ok node ∧
        List.Forall₂ (fun arg formula => check arg = .ok formula) node.args formulas ∧
        formula = node.fill formulas := by
  rw [check_eq]
  constructor
  · intro h
    obtain ⟨node, hnode, h⟩ := Except.bind_eq_ok h
    obtain ⟨formulas, hformulas, h⟩ := Except.bind_eq_ok h
    cases h
    exact ⟨node, formulas, hnode, checkAll_eq_ok_iff.mp hformulas, rfl⟩
  · rintro ⟨node, formulas, hnode, hformulas, rfl⟩
    rw [hnode]
    simp only [bind, Except.bind, checkAll_eq_ok_iff.mpr hformulas]
    rfl

-- The first argument that fails decides, and those before it have to be accepted.
theorem checkAll_eq_error_iff {args : List Json} {error : QueryError} :
    checkAll args = .error error ↔
      ∃ place arg, args[place]? = some arg ∧
        (∀ earlier ∈ args.take place, ∃ formula, check earlier = .ok formula) ∧
        check arg = .error error := by
  induction args with
  | nil => simp
  | cons first rest ih =>
    rw [checkAll_cons]
    constructor
    · intro h
      rcases Except.bind_eq_error h with hfirst | ⟨formula, hfirst, h⟩
      · exact ⟨0, first, rfl, by simp, hfirst⟩
      · rcases Except.bind_eq_error h with hrest | ⟨others, _, h⟩
        · obtain ⟨place, arg, harg, hearlier, herror⟩ := ih.mp hrest
          refine ⟨place + 1, arg, harg, ?_, herror⟩
          rw [List.take_succ_cons]
          exact List.forall_mem_cons.mpr ⟨⟨formula, hfirst⟩, hearlier⟩
        · cases h
    · rintro ⟨place, arg, harg, hearlier, herror⟩
      cases place with
      | zero =>
        cases harg
        rw [herror]
        rfl
      | succ place =>
        rw [List.take_succ_cons] at hearlier
        obtain ⟨⟨formula, hfirst⟩, hbefore⟩ := List.forall_mem_cons.mp hearlier
        rw [hfirst, ih.mpr ⟨place, arg, harg, hbefore, herror⟩]
        rfl

theorem check_eq_error_iff {query : Json} {error : QueryError} :
    check query = .error error ↔
      Node.ofQuery query = .error error ∨
        ∃ node, Node.ofQuery query = .ok node ∧ checkAll node.args = .error error := by
  rw [check_eq]
  constructor
  · intro h
    rcases Except.bind_eq_error h with hnode | ⟨node, hnode, h⟩
    · exact .inl hnode
    · rcases Except.bind_eq_error h with hargs | ⟨formulas, _, h⟩
      · exact .inr ⟨node, hnode, hargs⟩
      · cases h
  · rintro (hnode | ⟨node, hnode, hargs⟩)
    · rw [hnode]
      rfl
    · rw [hnode]
      simp only [bind, Except.bind, hargs]

theorem check_of_record_error {query : Json} {error : QueryError}
    (h : Query.record query = .error error) : check query = .error error := by
  rw [check_eq, Node.ofQuery, h]
  rfl

-- Only the record of a query counts.
theorem check_congr {query other : Json} (h : Query.record query = Query.record other) :
    check query = check other := by
  have hnode : Node.ofQuery query = Node.ofQuery other := by
    rw [Node.ofQuery, Node.ofQuery, h]
  rw [check_eq, check_eq, hnode]

-- A text stands for the object that is written in it.
theorem check_of_read {text : String} {members : Members}
    (h : Json.read text = .ok (.obj members)) : check (.str text) = check (.obj members) :=
  check_congr ((Query.record_text h).trans (Query.record_obj members).symm)

theorem isTruthy_of_check {query : Json} {formula : Formula} (h : check query = .ok formula) :
    query.isTruthy = true := by
  obtain ⟨node, _, hnode, _, _⟩ := check_eq_ok_iff.mp h
  obtain ⟨members, hrecord, _⟩ := Except.bind_eq_ok hnode
  exact Query.isTruthy_of_record hrecord

-- What the other operations make of a query that is accepted.
theorem results_of_check {query : Json} {formula : Formula} (h : check query = .ok formula) :
    parse query = (some formula, []) ∧ stringify query = .ok formula.text ∧
      ∀ dedicated, compile dedicated query = .ok (formula.operator dedicated) := by
  refine ⟨Query.attempt_eq_some_iff.mpr ⟨isTruthy_of_check h, h⟩, ?_, ?_⟩
  · rw [stringify, h]
    rfl
  · intro dedicated
    rw [compile, h]
    rfl

-- The check of a query asks for the check of each argument of its node. The node may be in a text
-- that is read only now.
def Asks (arg query : Json) : Prop :=
  ∃ node, Node.ofQuery query = .ok node ∧ arg ∈ node.args

-- A query is larger than the arguments of its node, also if they come out of a text.
theorem size_lt_of_asks {arg query : Json} (h : Asks arg query) : arg.size < query.size := by
  obtain ⟨node, hnode, harg⟩ := h
  exact Nat.lt_of_le_of_lt (Json.size_le_sizeItems harg) (size_args hnode)

theorem wellFounded_asks : WellFounded Asks :=
  Subrelation.wf size_lt_of_asks (measure Json.size).wf

-- Induction along the arguments, through texts as well.
theorem induction_args {motive : Json → Prop}
    (step : ∀ query, (∀ node, Node.ofQuery query = .ok node → ∀ arg ∈ node.args, motive arg) →
      motive query) (query : Json) : motive query := by
  induction query using wellFounded_asks.induction with
  | _ query ih =>
    apply step
    intro node hnode arg harg
    exact ih arg ⟨node, hnode, harg⟩

end FeedFilter.Formula
