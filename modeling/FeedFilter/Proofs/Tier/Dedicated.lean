import FeedFilter.CommandLine.Run
import FeedFilter.Proofs.Tier.Image

namespace FeedFilter

namespace Formula

variable (dedicated : Bool)

mutual

theorem switched_operator : ∀ formula : Formula,
    (formula.operator dedicated).switched = formula.operator (!dedicated)
  | .and args => by
    rw [operator_and, operator_and, Operator.switched, switchedAll_map_operator args]
  | .or args => by
    rw [operator_or, operator_or, Operator.switched, switchedAll_map_operator args]
  | .type name | .author feed => rfl

theorem switchedAll_map_operator : ∀ args : List Formula,
    Operator.switchedAll (args.map (operator dedicated)) = args.map (operator (!dedicated))
  | [] => rfl
  | arg :: rest => by
    rw [List.map_cons, Operator.switchedAll, switched_operator arg, switchedAll_map_operator rest,
      List.map_cons]

end

end Formula

namespace Flat

variable (dedicated : Bool) (flat : Flat)

theorem dedicatedFlags_operator :
    (flat.operator dedicated).dedicatedFlags =
      if flat.isPrivate then [dedicated] else [dedicated, dedicated] := by
  rw [operator_eq]
  cases flat.isPrivate with
  | true => rfl
  | false => rfl

theorem switched_operator : (flat.operator dedicated).switched = flat.operator (!dedicated) := by
  rw [operator_eq, operator_eq]
  cases flat.isPrivate with
  | true => rfl
  | false => rfl

-- The author is a predicate in any case.
theorem author_mem_leaves :
    Operator.author flat.author dedicated ∈ (flat.operator dedicated).leaves := by
  rw [operator_eq, Operator.leaves, Operator.leavesOf]
  exact List.mem_append_left _ List.mem_cons_self

end Flat

namespace Parsed

variable (dedicated : Bool)

theorem flag_of_mem_dedicatedFlags (parsed : Parsed) :
    ∀ flag ∈ (parsed.operator dedicated).dedicatedFlags, flag = dedicated := by
  intro flag hflag
  cases parsed with
  | flat query =>
    rw [operator, Flat.dedicatedFlags_operator] at hflag
    split at hflag
    · exact List.mem_singleton.mp hflag
    · simpa using hflag
  | formula query =>
    obtain ⟨leaf, hleaf, hcarried⟩ := List.mem_filterMap.mp hflag
    rw [query.dedicated?_of_mem_leaves dedicated hleaf] at hcarried
    exact (Option.some.inj hcarried).symm

theorem switched_operator (parsed : Parsed) :
    (parsed.operator dedicated).switched = parsed.operator (!dedicated) := by
  cases parsed with
  | flat query => exact query.switched_operator dedicated
  | formula query => exact query.switched_operator dedicated

end Parsed

namespace CommandLine

-- The text of the query is compiled with the flag of the settings or that of the action.
theorem Action.execute_compile (settings : Settings) (input : ByteArray) (tier : Tier)
    (dedicated : Bool) (format : Format) (source : Source) :
    ((Action.compile tier dedicated format source).execute settings input).1 = do
      let text ← source.text input
      let tree ← (tier.compile settings.feedCheck.accepts (settings.dedicated || dedicated)
        (.str text)).mapError .query
      return format.write tree := by
  rw [execute, call]
  cases source.text input with
  | error failure => rfl
  | ok text =>
    simp only [bind, Except.bind, pure, Except.pure, Service.answer]
    rw [Service.compile_eq]
    simp only [Service.ofSettings, adjust]
    cases tier.compile settings.feedCheck.accepts (settings.dedicated || dedicated)
        (.str text) with
    | error error => rfl
    | ok tree => rfl

end CommandLine

namespace Tier

variable (tier : Tier) (accepts : String → Bool) (dedicated : Bool) (query : Json)

theorem compile_not :
    tier.compile accepts (!dedicated) query =
      (tier.compile accepts dedicated query).map Operator.switched := by
  rw [compile_eq, compile_eq, Except.map_map]
  congr 1
  funext parsed
  exact (parsed.switched_operator dedicated).symm

theorem exists_predicate_of_ql0 {parsed : Parsed} (h : Tier.ql0.check accepts query = .ok parsed) :
    ∃ leaf ∈ (parsed.operator dedicated).leaves, leaf.isPredicate = true := by
  obtain ⟨flat, _, rfl⟩ := Except.map_eq_ok h
  exact ⟨_, flat.author_mem_leaves dedicated, rfl⟩

theorem exists_predicate_iff_of_ql1 {parsed : Parsed}
    (h : Tier.ql1.check accepts query = .ok parsed) :
    (∃ leaf ∈ (parsed.operator dedicated).leaves, leaf.isPredicate = true) ↔
      (parsed.operator dedicated).leaves ≠ [] := by
  obtain ⟨formula, _, rfl⟩ := Except.map_eq_ok h
  constructor
  · rintro ⟨leaf, hleaf, _⟩
    exact List.ne_nil_of_mem hleaf
  · intro hne
    obtain ⟨leaf, hleaf⟩ := List.exists_mem_of_ne_nil _ hne
    exact ⟨leaf, hleaf, formula.isPredicate_of_mem_leaves dedicated hleaf⟩

-- Whether indexes may be dedicated is up to the caller alone, whatever a query has in it: every
-- query that is accepted gives a tree with the flag of the caller in all its predicates, and the
-- other flag changes nothing else. A service gives the flag of its settings, and the command line
-- gives this flag or its own.
theorem compile_dedicated :
    (∀ parsed, tier.check accepts query = .ok parsed →
      ∃ tree, tier.compile accepts dedicated query = .ok tree ∧ tree.Carries dedicated ∧
        (tier = .ql0 → ∃ leaf ∈ tree.leaves, leaf.isPredicate = true) ∧
        (tier = .ql1 →
          ((∃ leaf ∈ tree.leaves, leaf.isPredicate = true) ↔ tree.leaves ≠ []))) ∧
      tier.compile accepts (!dedicated) query =
        (tier.compile accepts dedicated query).map Operator.switched ∧
      (∀ service : Service, (service.compile query tier).1 =
        Service.reply .compiled
          (tier.compile service.accepts service.settings.dedicated query)) ∧
      ∀ (settings : Settings) (input : ByteArray) (flag : Bool) (format : CommandLine.Format)
        (source : CommandLine.Source),
        ((CommandLine.Action.compile tier flag format source).execute settings input).1 = do
          let text ← source.text input
          let tree ← (tier.compile settings.feedCheck.accepts (settings.dedicated || flag)
            (.str text)).mapError .query
          return format.write tree := by
  refine ⟨?_, tier.compile_not accepts dedicated query, ?_, ?_⟩
  · intro parsed hcheck
    have hcompile : tier.compile accepts dedicated query = .ok (parsed.operator dedicated) := by
      rw [compile_eq, hcheck]
      rfl
    have hcarries : (parsed.operator dedicated).Carries dedicated :=
      Operator.carries_of_dedicatedFlags (parsed.flag_of_mem_dedicatedFlags dedicated)
    refine ⟨parsed.operator dedicated, hcompile, hcarries, ?_, ?_⟩
    · rintro rfl
      exact exists_predicate_of_ql0 accepts dedicated query hcheck
    · rintro rfl
      exact exists_predicate_iff_of_ql1 accepts dedicated query hcheck
  · intro service
    rw [Service.compile_eq]
  · intro settings input flag format source
    exact CommandLine.Action.execute_compile settings input tier flag format source

-- A member of this name in a query says nothing.
theorem compile_dedicated_member :
    Tier.ql1.check (fun _ => true)
        (.obj [("dedicated", .bool true), ("feed", .str "@a"), ("op", .str "author")]) =
          .ok (.formula (.author "@a")) ∧
      ∃ tree, Tier.ql1.compile (fun _ => true) false
          (.obj [("dedicated", .bool true), ("feed", .str "@a"), ("op", .str "author")]) =
            .ok tree ∧ tree = .author "@a" false ∧ tree.requiresDedicatedIndex = false := by
  have hnode : Formula.Node.ofQuery
      (.obj [("dedicated", .bool true), ("feed", .str "@a"), ("op", .str "author")]) =
        .ok (.leaf (.author "@a")) := rfl
  have hcheck : Tier.ql1.check (fun _ => true)
      (.obj [("dedicated", .bool true), ("feed", .str "@a"), ("op", .str "author")]) =
        .ok (.formula (.author "@a")) := by
    rw [check, Formula.check_eq_ok_iff.mpr ⟨_, [], hnode, .nil, rfl⟩]
    rfl
  obtain ⟨tree, hcompile, hcarries, _⟩ := (compile_dedicated .ql1 _ false _).1 _ hcheck
  have htree := hcompile
  rw [compile_eq, hcheck] at htree
  refine ⟨hcheck, tree, hcompile, (Except.ok.inj htree).symm, ?_⟩
  rw [Bool.eq_false_iff]
  intro hrequired
  cases (hcarries.required.mp hrequired).1

end Tier

end FeedFilter
