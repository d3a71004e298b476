import FeedFilter.Operator.Basic

namespace FeedFilter.Operator

mutual

-- All nodes of a tree, each after its children, and these from left to right.
def nodes : Operator → List Operator
  | .and children => nodesOf children ++ [.and children]
  | .or children => nodesOf children ++ [.or children]
  | .author feed dedicated => [.author feed dedicated]
  | .type name dedicated => [.type name dedicated]
  | .isPrivate => [.isPrivate]
  | .isPublic => [.isPublic]

def nodesOf : List Operator → List Operator
  | [] => []
  | child :: rest => child.nodes ++ nodesOf rest

end

def isLeaf : Operator → Bool
  | .and _ => false
  | .or _ => false
  | _ => true

-- The leaves that stand for an author or a type, for which there may be an index.
def isPredicate (operator : Operator) : Bool :=
  operator.dedicated?.isSome

mutual

-- The leaves are the nodes without children, in the same order.
theorem leaves_eq_filter_nodes : ∀ operator : Operator,
    operator.leaves = operator.nodes.filter isLeaf
  | .and children | .or children => by
    rw [leaves, nodes, List.filter_append, leavesOf_eq_filter_nodesOf children]
    exact (List.append_nil _).symm
  | .author feed dedicated | .type name dedicated => rfl
  | .isPrivate | .isPublic => rfl

theorem leavesOf_eq_filter_nodesOf : ∀ children : List Operator,
    leavesOf children = (nodesOf children).filter isLeaf
  | [] => rfl
  | child :: rest => by
    rw [leavesOf, nodesOf, List.filter_append, leaves_eq_filter_nodes child,
      leavesOf_eq_filter_nodesOf rest]

end

-- A combinator has no flag, so it makes no difference whether flags are looked for in the leaves
-- or in all nodes.
theorem dedicated?_of_not_isLeaf {operator : Operator} (h : operator.isLeaf = false) :
    operator.dedicated? = none := by
  cases operator with
  | and children => rfl
  | or children => rfl
  | author feed dedicated => cases h
  | type name dedicated => cases h
  | isPrivate => cases h
  | isPublic => cases h

theorem dedicatedFlags_eq_filterMap_nodes (operator : Operator) :
    operator.dedicatedFlags = operator.nodes.filterMap dedicated? := by
  have hflag : (fun node : Operator => if node.isLeaf then node.dedicated? else none) =
      dedicated? := by
    funext node
    cases hleaf : node.isLeaf with
    | true => rfl
    | false => exact (dedicated?_of_not_isLeaf hleaf).symm
  rw [dedicatedFlags, leaves_eq_filter_nodes, List.filterMap_filter, hflag]

section Flag

variable {operator : Operator} {dedicated : Bool}
  (h : ∀ flag ∈ operator.dedicatedFlags, flag = dedicated)

include h

theorem flag_of_mem_nodes {node : Operator} (hnode : node ∈ operator.nodes) {flag : Bool}
    (hflag : node.dedicated? = some flag) : flag = dedicated := by
  apply h
  rw [dedicatedFlags_eq_filterMap_nodes]
  exact List.mem_filterMap.mpr ⟨node, hnode, hflag⟩

-- There are as many flags as predicates.
theorem dedicatedFlags_eq_replicate :
    operator.dedicatedFlags =
      List.replicate (operator.nodes.countP isPredicate) dedicated := by
  rw [List.eq_replicate_iff]
  refine ⟨?_, h⟩
  rw [dedicatedFlags_eq_filterMap_nodes, List.length_filterMap_eq_countP]
  rfl

theorem requiresDedicatedIndex_iff :
    operator.requiresDedicatedIndex = true ↔
      dedicated = true ∧ ∃ leaf ∈ operator.leaves, leaf.isPredicate = true := by
  rw [requiresDedicatedIndex, List.any_eq_true]
  constructor
  · rintro ⟨flag, hmem, hset⟩
    obtain ⟨leaf, hleaf, hflag⟩ := List.mem_filterMap.mp hmem
    refine ⟨(h flag hmem).symm.trans hset, leaf, hleaf, ?_⟩
    rw [isPredicate, hflag]
    rfl
  · rintro ⟨hset, leaf, hleaf, hpredicate⟩
    obtain ⟨flag, hflag⟩ := Option.isSome_iff_exists.mp hpredicate
    have hmem : flag ∈ operator.dedicatedFlags := List.mem_filterMap.mpr ⟨leaf, hleaf, hflag⟩
    exact ⟨flag, hmem, (h flag hmem).trans hset⟩

end Flag

-- The flag of a tree is one: it is in every predicate, so that the flags are listed from left to
-- right with nothing left out, and an index is asked for if it is set and there is a predicate.
structure Carries (operator : Operator) (dedicated : Bool) : Prop where
  node : ∀ node ∈ operator.nodes, ∀ flag, node.dedicated? = some flag → flag = dedicated
  inOrder : operator.dedicatedFlags = operator.nodes.filterMap dedicated?
  flags : operator.dedicatedFlags =
    List.replicate (operator.nodes.countP isPredicate) dedicated
  required : operator.requiresDedicatedIndex = true ↔
    dedicated = true ∧ ∃ leaf ∈ operator.leaves, leaf.isPredicate = true

theorem carries_of_dedicatedFlags {operator : Operator} {dedicated : Bool}
    (h : ∀ flag ∈ operator.dedicatedFlags, flag = dedicated) : operator.Carries dedicated where
  node _ hnode _ hflag := flag_of_mem_nodes h hnode hflag
  inOrder := operator.dedicatedFlags_eq_filterMap_nodes
  flags := dedicatedFlags_eq_replicate h
  required := requiresDedicatedIndex_iff h

mutual

-- The tree in which every flag is the other way round.
def switched : Operator → Operator
  | .and children => .and (switchedAll children)
  | .or children => .or (switchedAll children)
  | .author feed dedicated => .author feed (!dedicated)
  | .type name dedicated => .type name (!dedicated)
  | .isPrivate => .isPrivate
  | .isPublic => .isPublic

def switchedAll : List Operator → List Operator
  | [] => []
  | child :: rest => child.switched :: switchedAll rest

end

end FeedFilter.Operator
