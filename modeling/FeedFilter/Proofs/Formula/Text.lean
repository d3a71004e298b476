import FeedFilter.Proofs.Formula.Check
import FeedFilter.Proofs.Formula.Node
import FeedFilter.Proofs.Json.RoundTrip

namespace FeedFilter.Formula

mutual

-- The containers inside each other in the record of a query. A combinator takes two, for its
-- record and for its list, a leaf one.
def nest : Formula → Nat
  | .and args => 2 + nestAll args
  | .or args => 2 + nestAll args
  | .type _ => 1
  | .author _ => 1

def nestAll : List Formula → Nat
  | [] => 0
  | arg :: rest => max arg.nest (nestAll rest)

end

mutual

theorem nest_toJson : ∀ formula : Formula, formula.toJson.nest = formula.nest
  | .and args | .or args => by
    have := nestItems_toJsonAll args
    simp only [toJson, Json.nest, Json.nestMembers, nest]
    omega
  | .type name | .author feed => rfl

theorem nestItems_toJsonAll : ∀ args : List Formula,
    Json.nestItems (toJsonAll args) = nestAll args
  | [] => rfl
  | arg :: rest => by
    rw [toJsonAll, Json.nestItems, nestAll, nest_toJson arg, nestItems_toJsonAll rest]

end

mutual

theorem isFloatFree_toJson : ∀ formula : Formula, formula.toJson.isFloatFree = true
  | .and args | .or args => by
    have := areFloatFree_toJsonAll args
    simp [toJson, Json.isFloatFree, Json.membersFloatFree, this]
  | .type name | .author feed => rfl

theorem areFloatFree_toJsonAll : ∀ args : List Formula,
    Json.areFloatFree (toJsonAll args) = true
  | [] => rfl
  | arg :: rest => by
    rw [toJsonAll, Json.areFloatFree, isFloatFree_toJson arg, areFloatFree_toJsonAll rest]
    rfl

end

theorem toList_combinatorText (op args : String) :
    (combinatorText op args).toList =
      r#"{"op":""#.toList ++ op.toList ++ r#"","args":"#.toList ++
        ('[' :: args.toList ++ [']']) ++ ['}'] := by
  simp [combinatorText]

theorem toList_leafText (op field value : String) :
    (leafText op field value).toList =
      r#"{"op":""#.toList ++ op.toList ++ r#"",""#.toList ++ field.toList ++
        r#"":"#.toList ++ literalChars value ++ ['}'] := by
  simp [leafText]

mutual

-- The text that is put together by hand is the compact one of the record.
theorem toList_text : ∀ (formula : Formula) (depth : Nat),
    formula.text.toList = Layout.compact.value depth formula.toJson
  | .and args, depth => by
    rw [text, toList_combinatorText, toList_textOf args (depth + 1)]
    rfl
  | .or args, depth => by
    rw [text, toList_combinatorText, toList_textOf args (depth + 1)]
    rfl
  | .type name, depth => by
    rw [text, toList_leafText]
    rfl
  | .author feed, depth => by
    rw [text, toList_leafText]
    rfl

theorem toList_textOf : ∀ (args : List Formula) (depth : Nat),
    '[' :: (textOf args).toList ++ [']'] = Layout.compact.value depth (.arr (toJsonAll args))
  | [], depth => rfl
  | arg :: rest, depth => by
    have hrest := toList_textAfter rest depth
    rw [textOf, String.toList_append, toList_text arg (depth + 1), List.cons_append,
      List.append_assoc, hrest]
    rfl

theorem toList_textAfter : ∀ (args : List Formula) (depth : Nat),
    (textAfter args).toList ++ [']'] = Layout.compact.items depth (toJsonAll args)
  | [], depth => rfl
  | arg :: rest, depth => by
    have hrest := toList_textAfter rest depth
    rw [textAfter, String.toList_append, String.toList_append, toList_text arg (depth + 1),
      List.append_assoc, hrest]
    rfl

end

theorem text_eq_compact (formula : Formula) : formula.text = formula.toJson.compact := by
  rw [Json.compact, ← toList_text formula 0, String.ofList_toList]

-- The text of a query is read back as its record, up to the limit of the reader.
theorem read_text (formula : Formula) :
    (formula.nest ≤ Json.nestingLimit → Json.read formula.text = .ok formula.toJson.canonical) ∧
      (Json.nestingLimit < formula.nest →
        ∃ position, Json.read formula.text = .error ⟨.tooDeep, position⟩) := by
  rw [text_eq_compact, ← nest_toJson]
  exact Json.read_compact (isFloatFree_toJson formula)

theorem text_ne_empty (formula : Formula) : formula.text ≠ "" := by
  intro h
  have htext := toList_text formula 0
  rw [h] at htext
  cases formula <;> cases htext

theorem canonical_toJson_eq_obj (formula : Formula) :
    ∃ members, formula.toJson.canonical = .obj members := by
  cases formula <;> exact ⟨_, rfl⟩

-- A record of an operator and its field, as readers hold it, still has both.
theorem lookup_record (op field : String) (value : Json) (hfield : field ≠ "op") :
    (Members.ordered (Json.canonicalMembers [("op", .str op), (field, value)])).lookup "op" =
        some (.str op) ∧
      (Members.ordered (Json.canonicalMembers [("op", .str op), (field, value)])).lookup field =
        some value.canonical := by
  rw [Members.lookup_canonical, Members.lookup_canonical]
  simp only [List.reverse_cons, List.reverse_nil, List.nil_append, List.singleton_append,
    Members.lookup_cons, if_neg hfield.symm, if_true, Option.map_some]
  exact ⟨rfl, trivial⟩

-- The record of a combinator denotes what its arguments denote, put together.
theorem check_combinator_record {args : List Json} {formulas : List Formula}
    (h : List.Forall₂ (fun arg formula => check arg = .ok formula) (Json.canonicalItems args)
      formulas) :
    check (Json.obj [("op", .str "and"), ("args", .arr args)]).canonical = .ok (.and formulas) ∧
      check (Json.obj [("op", .str "or"), ("args", .arr args)]).canonical = .ok (.or formulas) := by
  constructor
  · obtain ⟨hop, hargs⟩ := lookup_record "and" "args" (.arr args) (by decide)
    have hnode := Node.ofRecord_eq_ok_iff.mpr (.inl ⟨_, hop, hargs, rfl⟩)
    exact check_eq_ok_iff.mpr ⟨_, formulas, hnode, h, rfl⟩
  · obtain ⟨hop, hargs⟩ := lookup_record "or" "args" (.arr args) (by decide)
    have hnode := Node.ofRecord_eq_ok_iff.mpr (.inr (.inl ⟨_, hop, hargs, rfl⟩))
    exact check_eq_ok_iff.mpr ⟨_, formulas, hnode, h, rfl⟩

mutual

-- The record of a query denotes this query.
theorem check_toJson : ∀ formula : Formula, check formula.toJson.canonical = .ok formula
  | .and args => (check_combinator_record (forall₂_toJsonAll args)).1
  | .or args => (check_combinator_record (forall₂_toJsonAll args)).2
  | .type name => by
    obtain ⟨hop, hname⟩ := lookup_record "type" "string" (.str name) (by decide)
    have hnode := Node.ofRecord_eq_ok_iff.mpr (.inr (.inr (.inl ⟨name, hop, hname, rfl⟩)))
    exact check_eq_ok_iff.mpr ⟨_, [], hnode, .nil, rfl⟩
  | .author feed => by
    obtain ⟨hop, hfeed⟩ := lookup_record "author" "feed" (.str feed) (by decide)
    have hnode := Node.ofRecord_eq_ok_iff.mpr (.inr (.inr (.inr ⟨feed, hop, hfeed, rfl⟩)))
    exact check_eq_ok_iff.mpr ⟨_, [], hnode, .nil, rfl⟩

theorem forall₂_toJsonAll : ∀ args : List Formula,
    List.Forall₂ (fun arg formula => check arg = .ok formula)
      (Json.canonicalItems (toJsonAll args)) args
  | [] => .nil
  | arg :: rest => .cons (check_toJson arg) (forall₂_toJsonAll rest)

end

theorem check_text {formula : Formula} (h : formula.nest ≤ Json.nestingLimit) :
    check (.str formula.text) = .ok formula := by
  have hread := (read_text formula).1 h
  obtain ⟨members, hmembers⟩ := canonical_toJson_eq_obj formula
  have hcheck := check_toJson formula
  rw [hmembers] at hread hcheck
  rw [check_of_read hread, hcheck]

theorem check_text_tooDeep {formula : Formula} (h : Json.nestingLimit < formula.nest) :
    ∃ position, check (.str formula.text) = .error (.notJson ⟨.tooDeep, position⟩) := by
  obtain ⟨position, hread⟩ := (read_text formula).2 h
  have hrecord := Query.record_complaint hread (text_ne_empty formula)
  exact ⟨position, check_of_record_error hrecord⟩

theorem check_text_eq_ok_iff {formula : Formula} :
    check (.str formula.text) = .ok formula ↔ formula.nest ≤ Json.nestingLimit := by
  refine ⟨fun hcheck => ?_, check_text⟩
  by_contra hnest
  obtain ⟨position, hposition⟩ := check_text_tooDeep (Nat.lt_of_not_le hnest)
  cases hcheck.symm.trans hposition

-- An object in which the arguments of a combinator are such objects again: no query in it is
-- given as a text.
inductive Plain : Json → Prop
  | obj {members} : (∀ name ∈ combinators, members.lookup "op" = some (.str name) →
      ∀ args, members.lookup "args" = some (.arr args) → ∀ arg ∈ args, Plain arg) →
      Plain (.obj members)

theorem Plain.eq_obj {value : Json} (h : Plain value) : ∃ members, value = .obj members := by
  cases h
  exact ⟨_, rfl⟩

mutual

-- The record of a query has no texts in the place of queries.
theorem plain_toJson : ∀ formula : Formula, Plain formula.toJson.canonical
  | .and args => by
    obtain ⟨_, hargs⟩ := lookup_record "and" "args" (.arr (toJsonAll args)) (by decide)
    refine .obj fun name _ _ found hfound => ?_
    cases hargs.symm.trans hfound
    exact plain_toJsonAll args
  | .or args => by
    obtain ⟨_, hargs⟩ := lookup_record "or" "args" (.arr (toJsonAll args)) (by decide)
    refine .obj fun name _ _ found hfound => ?_
    cases hargs.symm.trans hfound
    exact plain_toJsonAll args
  | .type name => by
    obtain ⟨hop, _⟩ := lookup_record "type" "string" (.str name) (by decide)
    refine .obj fun other hother hopOther => ?_
    cases hop.symm.trans hopOther
    exact absurd hother (by decide)
  | .author feed => by
    obtain ⟨hop, _⟩ := lookup_record "author" "feed" (.str feed) (by decide)
    refine .obj fun other hother hopOther => ?_
    cases hop.symm.trans hopOther
    exact absurd hother (by decide)

theorem plain_toJsonAll : ∀ args : List Formula,
    ∀ arg ∈ Json.canonicalItems (toJsonAll args), Plain arg
  | [] => by
    intro arg harg
    cases harg
  | formula :: rest => by
    intro arg harg
    rcases List.mem_cons.mp harg with rfl | hrest
    · exact plain_toJson formula
    · exact plain_toJsonAll rest arg hrest

end

theorem nestAll_le_of_forall₂ {args : List Json} {formulas : List Formula}
    (hnest : ∀ arg ∈ args, ∀ formula, check arg = .ok formula → formula.nest ≤ arg.nest)
    (hall : List.Forall₂ (fun arg formula => check arg = .ok formula) args formulas) :
    nestAll formulas ≤ Json.nestItems args := by
  induction hall with
  | nil => exact Nat.le_refl _
  | cons hfirst _ ih =>
    rw [nestAll, Json.nestItems]
    have hhead := hnest _ (by simp) _ hfirst
    have hrest := ih fun arg harg => hnest arg (List.mem_cons_of_mem _ harg)
    omega

theorem nest_fill_le {members : Members} {node : Node} {formulas : List Formula}
    (hnode : Node.ofRecord members = .ok node) (h : nestAll formulas ≤ Json.nestItems node.args) :
    (node.fill formulas).nest ≤ (Json.obj members).nest := by
  have hcombinator : ∀ args, members.lookup "args" = some (.arr args) →
      nestAll formulas ≤ Json.nestItems args →
      2 + nestAll formulas ≤ 1 + Json.nestMembers members := by
    intro args hargs hle
    have hlist := Json.nest_le_nestMembers hargs
    rw [Json.nest] at hlist
    omega
  rcases Node.ofRecord_eq_ok_iff.mp hnode with ⟨args, _, hargs, rfl⟩ | ⟨args, _, hargs, rfl⟩ |
    ⟨name, _, _, rfl⟩ | ⟨feed, _, _, rfl⟩
  · exact hcombinator args hargs h
  · exact hcombinator args hargs h
  · exact Nat.le_add_right 1 _
  · exact Nat.le_add_right 1 _

-- Without texts in it a query is nested no deeper than the value that it is given as.
theorem nest_le_of_check (query : Json) : Plain query → ∀ formula, check query = .ok formula →
    formula.nest ≤ query.nest := by
  induction query using induction_args with
  | step query ih =>
    intro hplain formula hcheck
    cases hplain with
    | @obj members hplain =>
      obtain ⟨node, formulas, hnode, hall, rfl⟩ := check_eq_ok_iff.mp hcheck
      have hnested : nestAll formulas ≤ Json.nestItems node.args := by
        refine nestAll_le_of_forall₂ ?_ hall
        intro arg harg
        obtain ⟨_, name, hrecord, hop, hname, hargs⟩ := Node.combinator_of_mem hnode harg
        cases hrecord
        exact ih node hnode arg harg (hplain name hname hop _ hargs arg harg)
      exact nest_fill_le hnode hnested

theorem nest_le_of_read {text : String} {value : Json} {formula : Formula}
    (hread : Json.read text = .ok value) (hplain : Plain value)
    (hcheck : check (.str text) = .ok formula) : formula.nest ≤ Json.nestingLimit := by
  obtain ⟨members, rfl⟩ := hplain.eq_obj
  rw [check_of_read hread] at hcheck
  exact Nat.le_trans (nest_le_of_check _ hplain _ hcheck) (Json.nest_le_of_read hread)

-- The text of a query is accepted, as this query, just if the query takes no more containers
-- inside each other than a reader does. A text without texts in it is never of a query that takes
-- more, so its canonical text is the last one.
theorem check_text_iff (formula : Formula) :
    (check (.str formula.text) = .ok formula ↔ formula.nest ≤ 127) ∧
    (127 < formula.nest →
      ∃ position, check (.str formula.text) = .error (.notJson ⟨.tooDeep, position⟩)) ∧
    (formula.nest ≤ 127 →
      parse (.str formula.text) = (some formula, []) ∧
      stringify (.str formula.text) = .ok formula.text ∧
      ∀ dedicated, compile dedicated (.str formula.text) = .ok (formula.operator dedicated)) ∧
    ∀ text value, Json.read text = .ok value → Plain value → check (.str text) = .ok formula →
      formula.nest ≤ 127 ∧ stringify (.str text) = .ok formula.text ∧
      check (.str formula.text) = .ok formula ∧
      stringify (.str formula.text) = .ok formula.text := by
  refine ⟨check_text_eq_ok_iff, check_text_tooDeep, ?_, ?_⟩
  · intro hnest
    exact results_of_check (check_text hnest)
  · intro text value hread hplain hcheck
    have hnest := nest_le_of_read hread hplain hcheck
    have hcanonical := check_text hnest
    exact ⟨hnest, (results_of_check hcheck).2.1, hcanonical, (results_of_check hcanonical).2.1⟩

-- A text with other spacing than the canonical one is brought to it.
theorem stringify_indented :
    stringify (.str (and [type "post", or []]).toJson.indented) =
      .ok (and [type "post", or []]).text := by
  have hread := (Json.read_indented (isFloatFree_toJson (and [type "post", or []]))).1 (by decide)
  have hcheck : check (.str (and [type "post", or []]).toJson.indented) =
      .ok (and [type "post", or []]) :=
    (check_of_read hread).trans (check_toJson (and [type "post", or []]))
  exact ((check_text_iff _).2.2.2 _ _ hread (plain_toJson _) hcheck).2.1

end FeedFilter.Formula
