import FeedFilter.Proofs.Operator.Decode
import FeedFilter.Proofs.Tier.Lowering
import Mathlib.Data.List.MinMax
import Mathlib.Order.Nat

namespace FeedFilter

theorem Operator.nestAll_eq_foldr (children : List Operator) :
    nestAll children = (children.map nest).foldr max ⊥ := by
  induction children with
  | nil => rfl
  | cons child rest ih => rw [nestAll, ih, List.map_cons, List.foldr_cons]

theorem Formula.nestAll_eq_foldr (args : List Formula) :
    nestAll args = (args.map nest).foldr max ⊥ := by
  induction args with
  | nil => rfl
  | cons arg rest ih => rw [nestAll, ih, List.map_cons, List.foldr_cons]

theorem foldr_max_eq_of_mem {α : Type} {depth : α → ℕ} {items : List α} {item : α}
    (hitem : item ∈ items) (hothers : ∀ other ∈ items, depth other ≤ depth item) :
    (items.map depth).foldr max ⊥ = depth item := by
  apply Nat.le_antisymm
  · apply List.max_le_of_forall_le
    intro found hfound
    obtain ⟨other, hother, rfl⟩ := List.mem_map.mp hfound
    exact hothers other hother
  · exact List.le_max_of_le (List.mem_map_of_mem hitem) (Nat.le_refl _)

namespace Formula

variable (dedicated : Bool)

mutual

-- A combinator takes two containers in a query and three among the operators, a leaf one and two.
theorem two_mul_nest_operator_le : ∀ formula : Formula,
    2 * (formula.operator dedicated).nest ≤ 3 * formula.nest + 1
  | .and args => by
    have := two_mul_nestAll_operator_le args
    rw [operator_and, Operator.nest, nest]
    omega
  | .or args => by
    have := two_mul_nestAll_operator_le args
    rw [operator_or, Operator.nest, nest]
    omega
  | .type name | .author feed => Nat.le_refl 4

theorem two_mul_nestAll_operator_le : ∀ args : List Formula,
    2 * Operator.nestAll (args.map (operator dedicated)) ≤ 3 * nestAll args + 1
  | [] => Nat.zero_le _
  | arg :: rest => by
    have harg := two_mul_nest_operator_le arg
    have hrest := two_mul_nestAll_operator_le rest
    rw [List.map_cons, Operator.nestAll, nestAll]
    omega

end

-- A leaf stands under so many combinators, and nothing beside it is nested deeper.
inductive LeafUnder : ℕ → Formula → Prop
  | type {name} : LeafUnder 0 (.type name)
  | author {feed} : LeafUnder 0 (.author feed)
  | and {count args arg} : arg ∈ args → LeafUnder count arg →
      (∀ other ∈ args, other.nest ≤ arg.nest) → LeafUnder (count + 1) (.and args)
  | or {count args arg} : arg ∈ args → LeafUnder count arg →
      (∀ other ∈ args, other.nest ≤ arg.nest) → LeafUnder (count + 1) (.or args)

-- Conjunctions of one argument around a query.
def wrapped : ℕ → Formula → Formula
  | 0, formula => formula
  | count + 1, formula => .and [wrapped count formula]

theorem leafUnder_wrapped (name : String) (count : ℕ) :
    LeafUnder count (wrapped count (.type name)) := by
  induction count with
  | zero => exact .type
  | succ count ih =>
    refine .and List.mem_cons_self ih ?_
    intro other hother
    rw [List.mem_singleton.mp hother]

variable {count : ℕ} {args : List Formula} {arg formula : Formula}

theorem nestAll_of_deepest (harg : arg ∈ args) (hothers : ∀ other ∈ args, other.nest ≤ arg.nest)
    (hnest : arg.nest = 2 * count + 1) (hoperator : (arg.operator dedicated).nest = 3 * count + 2) :
    nestAll args = 2 * count + 1 ∧
      Operator.nestAll (args.map (operator dedicated)) = 3 * count + 2 := by
  have hlower : ∀ other ∈ args,
      (other.operator dedicated).nest ≤ (arg.operator dedicated).nest := by
    intro other hother
    have hother := hothers other hother
    have hbound := two_mul_nest_operator_le dedicated other
    omega
  constructor
  · rw [nestAll_eq_foldr, foldr_max_eq_of_mem harg hothers, hnest]
  · have hdepth := foldr_max_eq_of_mem harg hlower
    rw [Operator.nestAll_eq_foldr, List.map_map]
    exact hdepth.trans hoperator

theorem nest_of_leafUnder (h : LeafUnder count formula) :
    formula.nest = 2 * count + 1 ∧ (formula.operator dedicated).nest = 3 * count + 2 := by
  induction h with
  | type => exact ⟨rfl, rfl⟩
  | author => exact ⟨rfl, rfl⟩
  | and harg _ hothers ih =>
    obtain ⟨hnest, hoperator⟩ := nestAll_of_deepest dedicated harg hothers ih.1 ih.2
    rw [nest, operator_and, Operator.nest, hnest, hoperator]
    omega
  | or harg _ hothers ih =>
    obtain ⟨hnest, hoperator⟩ := nestAll_of_deepest dedicated harg hothers ih.1 ih.2
    rw [nest, operator_or, Operator.nest, hnest, hoperator]
    omega

end Formula

namespace Operator

-- The JSON of a tree is read back as the tree just if it takes no more containers inside each
-- other than a reader does. As the operators take more of them than the query does, there are
-- texts of queries that are accepted and compiled to a tree of which the JSON cannot be read.
theorem decode_compact_iff :
    (∀ operator : Operator,
      (decode operator.toJson.compact = .ok operator ↔ operator.nest ≤ 127) ∧
      (127 < operator.nest → ∃ complaint, decode operator.toJson.compact = .error complaint ∧
        complaint.cause = .tooDeep ∧ complaint.cause.category = .malformed)) ∧
    ∀ query formula count dedicated, Formula.check query = .ok formula →
      Formula.LeafUnder count formula →
      ∃ tree, Formula.compile dedicated query = .ok tree ∧
        (decode tree.toJson.compact = .ok tree ↔ 3 * count + 2 ≤ 127) ∧
        (decode tree.toJson.indented = .ok tree ↔ 3 * count + 2 ≤ 127) ∧
        (Formula.check (.str formula.text) = .ok formula ↔ count ≤ 63) := by
  constructor
  · intro operator
    refine ⟨decode_layout_eq_ok_iff Layout.isSpacing_compact operator, ?_⟩
    intro hnest
    obtain ⟨position, hdecode⟩ := (decode_layout Layout.isSpacing_compact operator).2 hnest
    exact ⟨_, hdecode, rfl, rfl⟩
  · intro query formula count dedicated hcheck hleaf
    obtain ⟨hnest, htree⟩ := Formula.nest_of_leafUnder dedicated hleaf
    have hcompact := decode_layout_eq_ok_iff Layout.isSpacing_compact (formula.operator dedicated)
    have hindented := decode_layout_eq_ok_iff Layout.isSpacing_indented (formula.operator dedicated)
    rw [htree] at hcompact hindented
    refine ⟨_, (Formula.results_of_check hcheck).2.2 dedicated, hcompact, hindented, ?_⟩
    rw [Formula.check_text_eq_ok_iff, hnest, Json.nestingLimit]
    omega

-- A leaf under 42 combinators is the first that is lost.
theorem decode_compact_wrapped :
    Formula.check (.str (Formula.wrapped 42 (.type "post")).text) =
        .ok (Formula.wrapped 42 (.type "post")) ∧
      ∃ tree, Formula.compile false (.str (Formula.wrapped 42 (.type "post")).text) = .ok tree ∧
        127 < tree.nest ∧ ∃ complaint, decode tree.toJson.compact = .error complaint ∧
          complaint.cause = .tooDeep := by
  have hleaf := Formula.leafUnder_wrapped "post" 42
  have hcheck : Formula.check (.str (Formula.wrapped 42 (.type "post")).text) =
      .ok (Formula.wrapped 42 (.type "post")) := by
    apply Formula.check_text
    rw [(Formula.nest_of_leafUnder false hleaf).1]
    decide
  obtain ⟨tree, hcompile, hcompact, _⟩ := decode_compact_iff.2 _ _ 42 false hcheck hleaf
  obtain ⟨hread, hdeep⟩ := decode_compact_iff.1 tree
  have hnest : 127 < tree.nest := by
    rw [← Nat.not_le, ← hread, hcompact]
    decide
  obtain ⟨complaint, hcomplaint, hcause, _⟩ := hdeep hnest
  exact ⟨hcheck, tree, hcompile, hnest, complaint, hcomplaint, hcause⟩

end Operator

end FeedFilter
