import FeedFilter.Operator.Basic

namespace FeedFilter

-- What an execution engine offers to build its own nodes `ν` with. Building may have effects `m`,
-- so the order of the calls matters.
structure Engine (m : Type → Type) (ν : Type) where
  and : List ν → m ν
  or : List ν → m ν
  author : String → Bool → m ν
  type : Option String → Bool → m ν
  isPrivate : m ν
  isPublic : m ν

-- The engine whose nodes are the operators themselves.
def Operator.engine : Engine Id Operator where
  and children := .and children
  or children := .or children
  author feed dedicated := .author feed dedicated
  type name dedicated := .type name dedicated
  isPrivate := .isPrivate
  isPublic := .isPublic

namespace Engine

variable {m : Type → Type} [Monad m] {ν : Type}

mutual

-- Builds a tree in an engine: the children from left to right, then the node itself.
def build (engine : Engine m ν) : Operator → m ν
  | .and children => do engine.and (← engine.buildAll children)
  | .or children => do engine.or (← engine.buildAll children)
  | .author feed dedicated => engine.author feed dedicated
  | .type name dedicated => engine.type name dedicated
  | .isPrivate => engine.isPrivate
  | .isPublic => engine.isPublic

def buildAll (engine : Engine m ν) : List Operator → m (List ν)
  | [] => pure []
  | child :: rest => do
    let node ← engine.build child
    let nodes ← engine.buildAll rest
    return node :: nodes

end

end Engine

end FeedFilter
