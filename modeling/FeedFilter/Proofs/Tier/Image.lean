import FeedFilter.Proofs.Flat.Text
import FeedFilter.Proofs.Json.Keys
import FeedFilter.Proofs.Operator.Nodes
import FeedFilter.Proofs.Tier.Lowering

namespace FeedFilter

namespace Operator

-- A node as there are in the trees of formulas: it says nothing of privacy, a type has a name, and
-- the flag is that of the caller.
structure FromFormula (dedicated : Bool) (node : Operator) : Prop where
  notPrivate : node ≠ .isPrivate
  notPublic : node ≠ .isPublic
  named : ∀ flag, node ≠ .type none flag
  flag : ∀ flag, node.dedicated? = some flag → flag = dedicated

def isPrivacy : Operator → Bool
  | .isPrivate => true
  | .isPublic => true
  | _ => false

-- One leaf says whether the messages are private, after all others, and if they are there is no
-- type to ask for.
structure PrivacyLast (tree : Operator) : Prop where
  once : tree.leaves.countP isPrivacy = 1
  last : ∃ leaf, tree.leaves.getLast? = some leaf ∧ leaf.isPrivacy = true
  untyped : .isPrivate ∈ tree.leaves → ∀ name flag, .type name flag ∉ tree.leaves

variable {dedicated : Bool} {node tree : Operator}

theorem fromFormula_of_not_isLeaf (h : node.isLeaf = false) : node.FromFormula dedicated where
  notPrivate := by
    rintro rfl
    cases h
  notPublic := by
    rintro rfl
    cases h
  named := by
    rintro flag rfl
    cases h
  flag := by
    intro flag hflag
    rw [dedicated?_of_not_isLeaf h] at hflag
    cases hflag

theorem FromFormula.isPrivacy_eq_false (h : node.FromFormula dedicated) :
    node.isPrivacy = false := by
  cases node with
  | isPrivate => exact absurd rfl h.notPrivate
  | isPublic => exact absurd rfl h.notPublic
  | and children => rfl
  | or children => rfl
  | author feed flag => rfl
  | type name flag => rfl

theorem FromFormula.dedicated?_of_isLeaf (h : node.FromFormula dedicated)
    (hleaf : node.isLeaf = true) : node.dedicated? = some dedicated := by
  cases node with
  | isPrivate => exact absurd rfl h.notPrivate
  | isPublic => exact absurd rfl h.notPublic
  | and children => cases hleaf
  | or children => cases hleaf
  | author feed flag => exact congrArg some (h.flag flag rfl)
  | type name flag => exact congrArg some (h.flag flag rfl)

-- A tree that speaks of privacy is not one of a formula.
theorem PrivacyLast.not_fromFormula (h : tree.PrivacyLast) :
    ¬∀ node ∈ tree.nodes, node.FromFormula dedicated := by
  intro hnodes
  obtain ⟨leaf, hlast, hprivacy⟩ := h.last
  have hleaf : leaf ∈ tree.leaves := List.mem_of_getLast? hlast
  rw [leaves_eq_filter_nodes] at hleaf
  rw [(hnodes leaf (List.mem_of_mem_filter hleaf)).isPrivacy_eq_false] at hprivacy
  cases hprivacy

end Operator

namespace Formula

mutual

-- The types and authors of a query from left to right.
def leaves : Formula → List Formula
  | .and args => leavesOf args
  | .or args => leavesOf args
  | .type name => [.type name]
  | .author feed => [.author feed]

def leavesOf : List Formula → List Formula
  | [] => []
  | arg :: rest => arg.leaves ++ leavesOf rest

end

variable (dedicated : Bool)

mutual

theorem leaves_operator : ∀ formula : Formula,
    (formula.operator dedicated).leaves = formula.leaves.map (operator dedicated)
  | .and args => by rw [operator_and, Operator.leaves, leaves, leavesOf_map_operator args]
  | .or args => by rw [operator_or, Operator.leaves, leaves, leavesOf_map_operator args]
  | .type name | .author feed => rfl

theorem leavesOf_map_operator : ∀ args : List Formula,
    Operator.leavesOf (args.map (operator dedicated)) = (leavesOf args).map (operator dedicated)
  | [] => rfl
  | arg :: rest => by
    rw [List.map_cons, Operator.leavesOf, leavesOf, List.map_append, leaves_operator arg,
      leavesOf_map_operator rest]

end

mutual

theorem fromFormula_of_mem_nodes : ∀ formula : Formula,
    ∀ node ∈ (formula.operator dedicated).nodes, node.FromFormula dedicated
  | .and args => by
    rw [operator_and, Operator.nodes, List.forall_mem_append, List.forall_mem_singleton]
    exact ⟨fromFormula_of_mem_nodesOf args, Operator.fromFormula_of_not_isLeaf rfl⟩
  | .or args => by
    rw [operator_or, Operator.nodes, List.forall_mem_append, List.forall_mem_singleton]
    exact ⟨fromFormula_of_mem_nodesOf args, Operator.fromFormula_of_not_isLeaf rfl⟩
  | .type name => by
    intro node hnode
    rw [List.mem_singleton.mp hnode]
    exact ⟨nofun, nofun, nofun, fun flag hflag => (Option.some.inj hflag).symm⟩
  | .author feed => by
    intro node hnode
    rw [List.mem_singleton.mp hnode]
    exact ⟨nofun, nofun, nofun, fun flag hflag => (Option.some.inj hflag).symm⟩

theorem fromFormula_of_mem_nodesOf : ∀ args : List Formula,
    ∀ node ∈ Operator.nodesOf (args.map (operator dedicated)), node.FromFormula dedicated
  | [] => nofun
  | arg :: rest => by
    rw [List.map_cons, Operator.nodesOf, List.forall_mem_append]
    exact ⟨fromFormula_of_mem_nodes arg, fromFormula_of_mem_nodesOf rest⟩

end

mutual

-- Every such tree is the one of a formula.
theorem exists_operator_eq : ∀ tree : Operator,
    (∀ node ∈ tree.nodes, node.FromFormula dedicated) →
    ∃ formula : Formula, formula.operator dedicated = tree
  | .and children, h => by
    rw [Operator.nodes, List.forall_mem_append] at h
    obtain ⟨args, hargs⟩ := exists_map_operator_eq children h.1
    exact ⟨.and args, by rw [operator_and, hargs]⟩
  | .or children, h => by
    rw [Operator.nodes, List.forall_mem_append] at h
    obtain ⟨args, hargs⟩ := exists_map_operator_eq children h.1
    exact ⟨.or args, by rw [operator_or, hargs]⟩
  | .author feed flag, h => by
    cases (h _ List.mem_cons_self).flag flag rfl
    exact ⟨.author feed, rfl⟩
  | .type (some name) flag, h => by
    cases (h _ List.mem_cons_self).flag flag rfl
    exact ⟨.type name, rfl⟩
  | .type none flag, h => absurd rfl ((h _ List.mem_cons_self).named flag)
  | .isPrivate, h => absurd rfl (h _ List.mem_cons_self).notPrivate
  | .isPublic, h => absurd rfl (h _ List.mem_cons_self).notPublic

theorem exists_map_operator_eq : ∀ children : List Operator,
    (∀ node ∈ Operator.nodesOf children, node.FromFormula dedicated) →
    ∃ args : List Formula, args.map (operator dedicated) = children
  | [], _ => ⟨[], rfl⟩
  | child :: rest, h => by
    rw [Operator.nodesOf, List.forall_mem_append] at h
    obtain ⟨arg, harg⟩ := exists_operator_eq child h.1
    obtain ⟨args, hargs⟩ := exists_map_operator_eq rest h.2
    exact ⟨arg :: args, by rw [List.map_cons, harg, hargs]⟩

end

-- All leaves of a formula are predicates, and they are given the flag of the caller.
theorem dedicated?_of_mem_leaves (formula : Formula) {leaf : Operator}
    (h : leaf ∈ (formula.operator dedicated).leaves) : leaf.dedicated? = some dedicated := by
  rw [Operator.leaves_eq_filter_nodes] at h
  obtain ⟨hnode, hleaf⟩ := List.mem_filter.mp h
  exact (formula.fromFormula_of_mem_nodes dedicated leaf hnode).dedicated?_of_isLeaf hleaf

theorem isPredicate_of_mem_leaves (formula : Formula) {leaf : Operator}
    (h : leaf ∈ (formula.operator dedicated).leaves) : leaf.isPredicate = true := by
  rw [Operator.isPredicate, formula.dedicated?_of_mem_leaves dedicated h]
  rfl

variable {dedicated}

theorem compile_eq_ok_iff {query : Json} {tree : Operator} :
    compile dedicated query = .ok tree ↔
      ∃ formula, check query = .ok formula ∧ formula.operator dedicated = tree := by
  constructor
  · exact Except.map_eq_ok
  · rintro ⟨formula, hcheck, rfl⟩
    exact (results_of_check hcheck).2.2 dedicated

end Formula

theorem Flat.privacyLast_operator (dedicated : Bool) (flat : Flat) :
    (flat.operator dedicated).PrivacyLast := by
  rw [operator_eq]
  cases flat.isPrivate with
  | true => exact ⟨rfl, ⟨_, rfl, rfl⟩, by simp [Operator.leaves, Operator.leavesOf]⟩
  | false => exact ⟨rfl, ⟨_, rfl, rfl⟩, by simp [Operator.leaves, Operator.leavesOf]⟩

namespace Tier

theorem exists_obj_compile_iff (dedicated : Bool) (tree : Operator) :
    (∃ members, (Json.obj members).canonical = .obj members ∧
        Formula.compile dedicated (.obj members) = .ok tree) ↔
      ∀ node ∈ tree.nodes, node.FromFormula dedicated := by
  constructor
  · rintro ⟨members, _, hcompile⟩
    obtain ⟨formula, _, rfl⟩ := Formula.compile_eq_ok_iff.mp hcompile
    exact formula.fromFormula_of_mem_nodes dedicated
  · intro hnodes
    obtain ⟨formula, htree⟩ := Formula.exists_operator_eq dedicated tree hnodes
    obtain ⟨members, hmembers⟩ := formula.canonical_toJson_eq_obj
    have hcanonical := formula.toJson.canonical_canonical
    have hcheck := formula.check_toJson
    rw [hmembers] at hcanonical hcheck
    exact ⟨members, hcanonical, Formula.compile_eq_ok_iff.mpr ⟨formula, hcheck, htree⟩⟩

-- Formulas are compiled to all the trees that say nothing of privacy, have names for all types and
-- have the flag of the caller throughout, and to no others; the leaves keep their order. The tree
-- of a flat query speaks of privacy, in its last leaf and nowhere else. So a tree tells which of
-- the tiers it comes from.
theorem compile_image (dedicated : Bool) (tree : Operator) :
    ((∃ members, (Json.obj members).canonical = .obj members ∧
        Formula.compile dedicated (.obj members) = .ok tree) ↔
      ∀ node ∈ tree.nodes, node.FromFormula dedicated) ∧
    (∀ query, Formula.compile dedicated query = .ok tree →
      ∃ formula, Formula.check query = .ok formula ∧
        tree.leaves = formula.leaves.map (Formula.operator dedicated) ∧
        ∀ leaf ∈ tree.leaves, leaf.isPredicate = true) ∧
    (∀ accepts query, Flat.compile accepts dedicated query = .ok tree → tree.PrivacyLast) ∧
    ∀ accepts flag query other, ¬(Flat.compile accepts flag query = .ok tree ∧
      Formula.compile dedicated other = .ok tree) := by
  have hflat : ∀ accepts flag query, Flat.compile accepts flag query = .ok tree →
      tree.PrivacyLast := by
    intro accepts flag query hcompile
    obtain ⟨flat, _, rfl⟩ := Except.map_eq_ok hcompile
    exact flat.privacyLast_operator flag
  refine ⟨exists_obj_compile_iff dedicated tree, ?_,
    fun accepts query => hflat accepts dedicated query, ?_⟩
  · intro query hcompile
    obtain ⟨formula, hcheck, rfl⟩ := Formula.compile_eq_ok_iff.mp hcompile
    exact ⟨formula, hcheck, formula.leaves_operator dedicated,
      fun leaf => formula.isPredicate_of_mem_leaves dedicated⟩
  · rintro accepts flag query other ⟨hcompile, hother⟩
    obtain ⟨formula, _, rfl⟩ := Formula.compile_eq_ok_iff.mp hother
    exact (hflat accepts flag query hcompile).not_fromFormula
      (formula.fromFormula_of_mem_nodes dedicated)

-- A disjunction over nothing is among the trees of formulas, and the tree of a query for private
-- messages is not.
theorem compile_image_encrypted :
    (∃ members formula, (Json.obj members).canonical = .obj members ∧
      Formula.compile true (.obj members) = .ok (.or [.author "@a" true, .or []]) ∧
      Formula.check (.obj members) = .ok formula ∧
      formula.leaves.map (Formula.operator true) = [.author "@a" true]) ∧
    ((Flat.encrypted "@a").operator true).PrivacyLast ∧
    ∀ query, Formula.compile true query ≠ .ok ((Flat.encrypted "@a").operator true) := by
  obtain ⟨himage, hleaves, _⟩ := compile_image true (.or [.author "@a" true, .or []])
  obtain ⟨_, _, hprivacy, hapart⟩ := compile_image true ((Flat.encrypted "@a").operator true)
  have hnodes : ∀ node ∈ (Operator.or [.author "@a" true, .or []]).nodes,
      node.FromFormula true :=
    (Formula.or [.author "@a", .or []]).fromFormula_of_mem_nodes true
  obtain ⟨members, hcanonical, hcompile⟩ := himage.mpr hnodes
  obtain ⟨formula, hcheck, hmap, _⟩ := hleaves _ hcompile
  have hflat : Flat.compile (fun _ => true) true (Flat.encrypted "@a").toValue =
      .ok ((Flat.encrypted "@a").operator true) :=
    (Flat.results_of_check (Flat.check_toValue _ (Flat.encrypted "@a"))).2.2 true
  exact ⟨⟨members, formula, hcanonical, hcompile, hcheck, hmap.symm⟩, hprivacy _ _ hflat,
    fun query hquery => hapart _ true _ query ⟨hflat, hquery⟩⟩

end Tier

end FeedFilter
