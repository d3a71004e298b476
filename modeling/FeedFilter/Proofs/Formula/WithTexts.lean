import FeedFilter.Proofs.Formula.Node
import FeedFilter.Proofs.Formula.Text
import FeedFilter.Proofs.Tier.Interchangeable

namespace FeedFilter.Formula

-- The same query with texts in the place of some of its nodes: of the whole query, of arguments
-- at any depth, or of nodes in a query that is a text already. Only objects are replaced, and all
-- members but the arguments of a combinator stay as they are.
inductive WithTexts : Json → Json → Prop
  | same {query} : WithTexts query query
  | text {members text inner} : Json.read text = .ok (.obj inner) →
      WithTexts (.obj members) (.obj inner) → WithTexts (.obj members) (.str text)
  | inText {text other members inner} : Json.read text = .ok (.obj members) →
      Json.read other = .ok (.obj inner) → WithTexts (.obj members) (.obj inner) →
      WithTexts (.str text) (.str other)
  | args {members others name args otherArgs} : members.lookup "op" = some (.str name) →
      name ∈ combinators → members.lookup "args" = some (.arr args) →
      others.lookup "args" = some (.arr otherArgs) →
      (∀ key, key ≠ "args" → others.lookup key = members.lookup key) →
      List.Forall₂ WithTexts args otherArgs → WithTexts (.obj members) (.obj others)

-- Texts are taken off the root on both sides, so that two records are left to compare.
theorem WithTexts.records {query other : Json} (h : WithTexts query other) :
    query = other ∨ ∃ members others, Query.record query = .ok members ∧
      Query.record other = .ok others ∧ WithTexts (.obj members) (.obj others) := by
  cases h with
  | same => exact .inl rfl
  | text hread hinside =>
    exact .inr ⟨_, _, Query.record_obj _, Query.record_text hread, hinside⟩
  | inText hread hother hinside =>
    exact .inr ⟨_, _, Query.record_text hread, Query.record_text hother, hinside⟩
  | args hop hname hargs hotherArgs hkeys hall =>
    exact .inr ⟨_, _, Query.record_obj _, Query.record_obj _,
      .args hop hname hargs hotherArgs hkeys hall⟩

theorem WithTexts.isTruthy_eq {query other : Json} (h : WithTexts query other) :
    query.isTruthy = other.isTruthy := by
  rcases h.records with rfl | ⟨members, others, hrecord, hother, _⟩
  · rfl
  · rw [Query.isTruthy_of_record hrecord, Query.isTruthy_of_record hother]

theorem checkAll_congr {args others : List Json}
    (h : List.Forall₂ (fun arg other => check arg = check other) args others) :
    checkAll args = checkAll others := by
  induction h with
  | nil => rfl
  | cons hfirst _ ih => rw [checkAll_cons, checkAll_cons, hfirst, ih]

-- A combinator is made of what its arguments are found to be, whatever value it is given as.
theorem check_combinator {name : String} (hname : name ∈ combinators) :
    ∃ make : List Formula → Formula, ∀ {query : Json} {members : Members} {args : List Json},
      Query.record query = .ok members → members.lookup "op" = some (.str name) →
      members.lookup "args" = some (.arr args) → check query = (checkAll args).map make := by
  simp only [combinators, List.mem_cons, List.not_mem_nil, or_false] at hname
  rcases hname with rfl | rfl
  · refine ⟨.and, fun hrecord hop hargs => ?_⟩
    have hnode := Node.ofRecord_eq_ok_iff.mpr (.inl ⟨_, hop, hargs, rfl⟩)
    rw [check_eq, Node.ofQuery_eq_ok_iff.mpr ⟨_, hrecord, hnode⟩]
    rfl
  · refine ⟨.or, fun hrecord hop hargs => ?_⟩
    have hnode := Node.ofRecord_eq_ok_iff.mpr (.inr (.inl ⟨_, hop, hargs, rfl⟩))
    rw [check_eq, Node.ofQuery_eq_ok_iff.mpr ⟨_, hrecord, hnode⟩]
    rfl

-- The induction is along the arguments of the one query; the relation only says which arguments
-- of the other belong to them, for it is not a tree: it goes through what is read.
theorem check_of_withTexts (query : Json) :
    ∀ other, WithTexts query other → check query = check other := by
  induction query using induction_args with
  | step query ih =>
    intro other h
    rcases h.records with rfl | ⟨members, others, hrecord, hother, hinside⟩
    · rfl
    cases hinside with
    | same => exact check_congr (hrecord.trans hother.symm)
    | args hop hname hargs hotherArgs hkeys hall =>
      obtain ⟨make, hmake⟩ := check_combinator hname
      have hotherOp := (hkeys "op" (by decide)).trans hop
      obtain ⟨node, hnode, rfl⟩ := Node.ofQuery_combinator hrecord hop hname hargs
      have hchecks := ((List.forall₂_and_left _ _).mpr ⟨ih node hnode, hall⟩).imp
        fun arg other ⟨hsame, hrelated⟩ => hsame other hrelated
      rw [hmake hrecord hop hargs, hmake hother hotherOp hotherArgs, checkAll_congr hchecks]

-- It makes no difference where a query is given as a text: at its root, in its arguments, or in
-- such a text again. Flat queries and former records have no more than the root.
theorem check_eq_of_withTexts :
    (∀ query other, WithTexts query other →
      check query = check other ∧ Tier.ql1.Interchangeable query other) ∧
    ∀ members text, Json.read text = .ok (.obj members) →
      Tier.ql0.Interchangeable (.obj members) (.str text) ∧
      ∀ accepts, Flat.check accepts (.obj members) = Flat.check accepts (.str text) ∧
        Flat.migrate accepts (.obj members) = Flat.migrate accepts (.str text) := by
  constructor
  · intro query other h
    have hcheck := check_of_withTexts query other h
    refine ⟨hcheck, Tier.interchangeable_of_check ?_ h.isTruthy_eq⟩
    intro accepts
    rw [Tier.check, Tier.check, hcheck]
  · intro members text hread
    have hrecord : Query.record (.obj members) = Query.record (.str text) :=
      (Query.record_obj members).trans (Query.record_text hread).symm
    refine ⟨Tier.interchangeable_of_record hrecord, fun accepts => ?_⟩
    exact ⟨by rw [Flat.check, Flat.check, hrecord], Flat.migrate_of_record hrecord⟩

-- A leaf as a text that stands in a record, which is a text as a whole.
theorem check_text_in_text :
    WithTexts (.obj [("args", .arr [(type "vote").toJson]), ("op", .str "or")])
        (.str (Json.obj [("args", .arr [.str (type "vote").text]), ("op", .str "or")]).compact) ∧
      check (.str (Json.obj [("args", .arr [.str (type "vote").text]), ("op", .str "or")]).compact) =
        check (.obj [("args", .arr [(type "vote").toJson]), ("op", .str "or")]) := by
  have hleaf : Json.read (type "vote").text = .ok (type "vote").toJson :=
    (read_text (type "vote")).1 (by decide)
  have hfloat : (Json.obj [("args", .arr [.str (type "vote").text]),
      ("op", .str "or")]).isFloatFree = true := rfl
  have hroot := (Json.read_compact hfloat).1 (by decide)
  have hargs : List.Forall₂ WithTexts [(type "vote").toJson] [.str (type "vote").text] :=
    .cons (.text hleaf .same) .nil
  have hkeys : ∀ (first second : Json) (key : String), key ≠ "args" →
      ([("args", second), ("op", .str "or")] : Members).lookup key =
        ([("args", first), ("op", .str "or")] : Members).lookup key := by
    intro first second key hkey
    rw [Members.lookup_cons, if_neg hkey, Members.lookup_cons "args", if_neg hkey]
  have hname : "or" ∈ combinators := by decide
  have hquery := WithTexts.text hroot (.args rfl hname rfl rfl (hkeys _ _) hargs)
  exact ⟨hquery, (check_eq_of_withTexts.1 _ _ hquery).1.symm⟩

end FeedFilter.Formula
