import FeedFilter.Proofs.Formula.Text
import FeedFilter.Proofs.Operator.Trace
import FeedFilter.Proofs.Tier.Basic

namespace FeedFilter

-- The operators of a formula, node by node.
namespace Formula

variable (dedicated : Bool)

theorem lowerAll_operator (args : List Formula) :
    (lowerAll Operator.engine dedicated args).run = args.map (operator dedicated) := by
  induction args with
  | nil => rfl
  | cons arg rest ih =>
    rw [List.map_cons, ← ih]
    rfl

theorem operator_and (args : List Formula) :
    (Formula.and args).operator dedicated = .and (args.map (operator dedicated)) := by
  rw [← lowerAll_operator]
  rfl

theorem operator_or (args : List Formula) :
    (Formula.or args).operator dedicated = .or (args.map (operator dedicated)) := by
  rw [← lowerAll_operator]
  rfl

mutual

theorem length_nodes_operator : ∀ formula : Formula,
    (formula.operator dedicated).nodes.length = formula.nodeCount
  | .and args => by
    rw [operator_and, Operator.nodes, List.length_append, length_nodesOf_map_operator args,
      nodeCount, Nat.add_comm]
    rfl
  | .or args => by
    rw [operator_or, Operator.nodes, List.length_append, length_nodesOf_map_operator args,
      nodeCount, Nat.add_comm]
    rfl
  | .type name | .author feed => rfl

theorem length_nodesOf_map_operator : ∀ args : List Formula,
    (Operator.nodesOf (args.map (operator dedicated))).length = nodeCountAll args
  | [] => rfl
  | arg :: rest => by
    rw [List.map_cons, Operator.nodesOf, List.length_append, length_nodes_operator arg,
      length_nodesOf_map_operator rest, nodeCountAll]

end

variable {m : Type → Type} [Monad m] {ν : Type} (engine : Engine m ν)

mutual

-- An engine is asked for the same whether it is given the formula or the operators.
theorem lower_eq_build : ∀ formula : Formula,
    formula.lower engine dedicated = engine.build (formula.operator dedicated)
  | .and args => by
    rw [lower, operator_and, Engine.build, lowerAll_eq_buildAll args]
  | .or args => by
    rw [lower, operator_or, Engine.build, lowerAll_eq_buildAll args]
  | .type name | .author feed => rfl

theorem lowerAll_eq_buildAll : ∀ args : List Formula,
    lowerAll engine dedicated args = engine.buildAll (args.map (operator dedicated))
  | [] => rfl
  | arg :: rest => by
    rw [lowerAll, List.map_cons, Engine.buildAll, lower_eq_build arg, lowerAll_eq_buildAll rest]

end

end Formula

namespace Flat

variable (dedicated : Bool) (flat : Flat)

theorem operator_eq :
    flat.operator dedicated = .and (.author flat.author dedicated ::
      if flat.isPrivate then [.isPrivate] else [.type flat.type dedicated, .isPublic]) := by
  obtain ⟨author, type, isPrivate⟩ := flat
  cases isPrivate with
  | true => rfl
  | false => rfl

-- Here the engine is given its nodes one by one, and the laws of a monad are needed to collect
-- them as a list of children is collected.
theorem lower_eq_build {m : Type → Type} [Monad m] [LawfulMonad m] {ν : Type}
    (engine : Engine m ν) :
    flat.lower engine dedicated = engine.build (flat.operator dedicated) := by
  rw [operator_eq, lower]
  cases flat.isPrivate with
  | true => simp [Engine.build, Engine.buildAll]
  | false => simp [Engine.build, Engine.buildAll]

end Flat

theorem Parsed.lower_eq_build {m : Type → Type} [Monad m] [LawfulMonad m] {ν : Type}
    (engine : Engine m ν) (dedicated : Bool) (parsed : Parsed) :
    parsed.lower engine dedicated = engine.build (parsed.operator dedicated) := by
  cases parsed with
  | flat query => exact query.lower_eq_build dedicated engine
  | formula query => exact query.lower_eq_build dedicated engine

namespace Tier

variable {m : Type → Type} [Monad m] {ν : Type}

-- Compiling as an action among those of the engine. It comes to a node or to an error.
def compileIn (tier : Tier) (engine : Engine m ν) (accepts : String → Bool) (dedicated : Bool)
    (query : Json) : m (Except QueryError ν) :=
  match tier.compileWith engine accepts dedicated query with
  | .error error => return .error error
  | .ok program => do return .ok (← program)

variable [LawfulMonad m] (tier : Tier) (engine : Engine m ν) (accepts : String → Bool)
  (dedicated : Bool) (query : Json)

theorem compileWith_eq_map_build :
    tier.compileWith engine accepts dedicated query =
      (tier.compile accepts dedicated query).map engine.build := by
  rw [compileWith_eq, compile_eq, Except.map_map]
  congr 1
  funext parsed
  exact parsed.lower_eq_build engine dedicated

theorem compileIn_traced_of_error {error : QueryError}
    (h : tier.compile accepts dedicated query = .error error) :
    (tier.compileIn engine.traced accepts dedicated query).run [] = pure (.error error, []) := by
  rw [compileIn, compileWith_eq_map_build, h]
  rfl

theorem compileIn_traced_of_ok {tree : Operator}
    (h : tier.compile accepts dedicated query = .ok tree) :
    (tier.compileIn engine.traced accepts dedicated query).run [] = do
      let node ← engine.build tree
      return (.ok node, tree.nodes.map Engine.Construction.ofNode) := by
  have hnotes := Engine.notes_build engine tree []
  rw [compileIn, compileWith_eq_map_build, h]
  simp only [Except.map]
  rw [StateT.run_bind, hnotes, bind_assoc]
  congr 1
  funext node
  rw [pure_bind]
  rfl

-- Compiling for an engine is building the tree in it. A query that is refused costs no call, and
-- otherwise each node of the tree takes one call, after those of its children; for a formula
-- these are as many as it has nodes itself.
theorem compileWith_factors :
    tier.compileWith engine accepts dedicated query =
        (tier.compile accepts dedicated query).map engine.build ∧
      (∀ error, tier.compileWith engine accepts dedicated query = .error error ↔
        tier.compile accepts dedicated query = .error error) ∧
      (∀ error, tier.compile accepts dedicated query = .error error →
        (tier.compileIn engine.traced accepts dedicated query).run [] =
          pure (.error error, [])) ∧
      (∀ tree, tier.compile accepts dedicated query = .ok tree →
        (tier.compileIn engine.traced accepts dedicated query).run [] = do
          let node ← engine.build tree
          return (.ok node, tree.nodes.map Engine.Construction.ofNode)) ∧
      ∀ formula, Formula.check query = .ok formula →
        ∃ tree, Tier.ql1.compile accepts dedicated query = .ok tree ∧
          (tree.nodes.map Engine.Construction.ofNode).length = formula.nodeCount := by
  have hbuild := compileWith_eq_map_build tier engine accepts dedicated query
  refine ⟨hbuild, ?_, fun error => compileIn_traced_of_error tier engine accepts dedicated query,
    fun tree => compileIn_traced_of_ok tier engine accepts dedicated query, ?_⟩
  · intro error
    rw [hbuild]
    constructor
    · exact Except.map_eq_error
    · intro h
      rw [h]
      rfl
  · intro formula hcheck
    refine ⟨formula.operator dedicated, ?_, ?_⟩
    · rw [compile_eq, check, hcheck]
      rfl
    · rw [List.length_map, formula.length_nodes_operator]

-- The arguments are built before the combinator.
theorem compileIn_or :
    LawfulMonad Id ∧
      ((Tier.ql1.compileIn Operator.engine.traced (fun _ => true) false
          (Formula.or [.type "vote", .author "@a"]).toJson.canonical).run []).run =
        (.ok (.or [.type (some "vote") false, .author "@a" false]),
          [.type (some "vote") false, .author "@a" false, .or 2]) := by
  have hcompile : Tier.ql1.compile (fun _ => true) false
      (Formula.or [.type "vote", .author "@a"]).toJson.canonical =
        .ok (.or [.type (some "vote") false, .author "@a" false]) := by
    rw [compile_eq, check, Formula.check_toJson]
    rfl
  refine ⟨inferInstance, ?_⟩
  rw [(compileWith_factors .ql1 Operator.engine _ _ _).2.2.2.1 _ hcompile]
  rfl

end Tier

end FeedFilter
