import FeedFilter.Operator.Engine
import FeedFilter.Proofs.Operator.Nodes

namespace FeedFilter.Engine

-- A call of an engine with what it was given. Of children only the number is kept.
inductive Construction
  | and (children : Nat)
  | or (children : Nat)
  | author (feed : String) (dedicated : Bool)
  | type (name : Option String) (dedicated : Bool)
  | isPrivate
  | isPublic
deriving DecidableEq, Repr

-- The call that a node takes.
def Construction.ofNode : Operator → Construction
  | .and children => .and children.length
  | .or children => .or children.length
  | .author feed dedicated => .author feed dedicated
  | .type name dedicated => .type name dedicated
  | .isPrivate => .isPrivate
  | .isPublic => .isPublic

variable {m : Type → Type} [Monad m] {ν : Type}

def noting {α : Type} (call : Construction) (action : m α) : StateT (List Construction) m α :=
  fun calls => do
    let value ← action
    return (value, calls ++ [call])

-- The same engine, which takes down its calls in order.
def traced (engine : Engine m ν) : Engine (StateT (List Construction) m) ν where
  and children := noting (.and children.length) (engine.and children)
  or children := noting (.or children.length) (engine.or children)
  author feed dedicated := noting (.author feed dedicated) (engine.author feed dedicated)
  type name dedicated := noting (.type name dedicated) (engine.type name dedicated)
  isPrivate := noting .isPrivate engine.isPrivate
  isPublic := noting .isPublic engine.isPublic

-- A program does what another does and takes down the given calls, whatever has been taken down
-- before.
def Notes {α : Type} (program : StateT (List Construction) m α) (plain : m α)
    (calls : List Construction) : Prop :=
  ∀ earlier, program.run earlier = do
    let value ← plain
    return (value, earlier ++ calls)

theorem notes_noting {α : Type} (call : Construction) (action : m α) :
    Notes (noting call action) action [call] :=
  fun _ => rfl

variable [LawfulMonad m]

theorem notes_bind {α β : Type} {program : StateT (List Construction) m α} {plain : m α}
    {next : α → StateT (List Construction) m β} {plainNext : α → m β}
    {calls more : List Construction} (h : Notes program plain calls)
    (hnext : ∀ value, Notes (next value) (plainNext value) more) :
    Notes (program >>= next) (plain >>= plainNext) (calls ++ more) := by
  intro earlier
  rw [StateT.run_bind, h, bind_assoc, bind_assoc]
  congr 1
  funext value
  rw [pure_bind, hnext, List.append_assoc]

theorem notes_pure {α : Type} (value : α) :
    Notes (pure value : StateT (List Construction) m α) (pure value) [] := by
  intro earlier
  rw [StateT.run_pure, pure_bind, List.append_nil]

-- As many nodes are built as there are children, so what comes after them may rely on that.
theorem buildAll_bind_congr {α : Type} (engine : Engine m ν) (children : List Operator)
    {next other : List ν → m α}
    (h : ∀ nodes, nodes.length = children.length → next nodes = other nodes) :
    engine.buildAll children >>= next = engine.buildAll children >>= other := by
  induction children generalizing next other with
  | nil =>
    rw [buildAll, pure_bind, pure_bind]
    exact h [] rfl
  | cons child rest ih =>
    simp only [buildAll, bind_assoc, pure_bind]
    congr 1
    funext node
    apply ih
    intro nodes hlength
    apply h
    rw [List.length_cons, hlength, List.length_cons]

theorem notes_combinator {engine : Engine m ν} {children : List Operator}
    {calls : List Construction}
    (h : Notes (engine.traced.buildAll children) (engine.buildAll children) calls)
    (call : Nat → Construction) (make : List ν → m ν) :
    Notes (engine.traced.buildAll children >>= fun nodes => noting (call nodes.length) (make nodes))
      (engine.buildAll children >>= make) (calls ++ [call children.length]) := by
  have hlength : (engine.traced.buildAll children >>= fun nodes =>
        noting (call nodes.length) (make nodes)) =
      engine.traced.buildAll children >>= fun nodes =>
        noting (call children.length) (make nodes) := by
    apply buildAll_bind_congr
    intro nodes hnodes
    rw [hnodes]
  rw [hlength]
  exact notes_bind h fun nodes => notes_noting _ (make nodes)

mutual

-- Each node takes one call, after those of its children.
theorem notes_build (engine : Engine m ν) : ∀ operator : Operator,
    Notes (engine.traced.build operator) (engine.build operator)
      (operator.nodes.map Construction.ofNode)
  | .and children => by
    rw [Operator.nodes, List.map_append]
    exact notes_combinator (notes_buildAll engine children) .and engine.and
  | .or children => by
    rw [Operator.nodes, List.map_append]
    exact notes_combinator (notes_buildAll engine children) .or engine.or
  | .author feed dedicated | .type name dedicated => notes_noting _ _
  | .isPrivate | .isPublic => notes_noting _ _

theorem notes_buildAll (engine : Engine m ν) : ∀ children : List Operator,
    Notes (engine.traced.buildAll children) (engine.buildAll children)
      ((Operator.nodesOf children).map Construction.ofNode)
  | [] => notes_pure []
  | child :: rest => by
    rw [Operator.nodesOf, List.map_append, ← List.append_nil (List.map _ (Operator.nodesOf rest))]
    exact notes_bind (notes_build engine child) fun node =>
      notes_bind (notes_buildAll engine rest) fun nodes => notes_pure (node :: nodes)

end

end FeedFilter.Engine
