import FeedFilter.Proofs.Formula.Depth

namespace FeedFilter.Formula

-- The record of a combinator with a text for each of its arguments.
def layer (op : String) (texts : List String) : Json :=
  .obj [("op", .str op), ("args", .arr (texts.map .str))]

mutual

-- The text of a query in layers: each argument stands in it as a string, which is the text of the
-- argument in layers.
def layered : Formula → String
  | .and args => (layer "and" (layeredAll args)).compact
  | .or args => (layer "or" (layeredAll args)).compact
  | .type name => (type name).text
  | .author feed => (author feed).text

def layeredAll : List Formula → List String
  | [] => []
  | arg :: rest => arg.layered :: layeredAll rest

end

example : (and [or [author "b"]]).layered =
    r#"{"op":"and","args":["{\"op\":\"or\",\"args\":["#
      ++ r#"\"{\\\"op\\\":\\\"author\\\",\\\"feed\\\":\\\"b\\\"}\""#
      ++ r#"]}"]}"# := by decide +kernel

theorem isFloatFree_layer (op : String) (texts : List String) :
    (layer op texts).isFloatFree = true := by
  have htexts : Json.areFloatFree (texts.map .str) = true := by
    induction texts with
    | nil => rfl
    | cons text rest ih =>
      rw [List.map_cons, Json.areFloatFree, ih]
      rfl
  simp [layer, Json.isFloatFree, Json.membersFloatFree, htexts]

-- The containers in the texts do not count.
theorem nest_layer (op : String) (texts : List String) : (layer op texts).nest = 2 := by
  have htexts : Json.nestItems (texts.map .str) = 0 := by
    induction texts with
    | nil => rfl
    | cons text rest ih =>
      rw [List.map_cons, Json.nestItems, ih]
      rfl
  simp [layer, Json.nest, Json.nestMembers, htexts]

theorem check_layer {texts : List String} {formulas : List Formula}
    (h : List.Forall₂ (fun text formula => check (.str text) = .ok formula) texts formulas) :
    check (.str (layer "and" texts).compact) = .ok (.and formulas) ∧
      check (.str (layer "or" texts).compact) = .ok (.or formulas) := by
  have hread : ∀ op, check (.str (layer op texts).compact) = check (layer op texts).canonical := by
    intro op
    have hnest : (layer op texts).nest ≤ Json.nestingLimit := by
      rw [nest_layer]
      decide
    exact check_of_read ((Json.read_compact (isFloatFree_layer op texts)).1 hnest)
  have hargs : List.Forall₂ (fun arg formula => check arg = .ok formula)
      (Json.canonicalItems (texts.map .str)) formulas := by
    rw [Json.canonicalItems_eq_map, List.map_map]
    exact List.forall₂_map_left_iff.mpr h
  rw [hread, hread]
  exact check_combinator_record hargs

mutual

-- The induction is on the query, so that each text is read on its own, with all levels left.
theorem check_layered : ∀ formula : Formula, check (.str formula.layered) = .ok formula
  | .and args => (check_layer (forall₂_layeredAll args)).1
  | .or args => (check_layer (forall₂_layeredAll args)).2
  | .type name => by
    have hnest : (type name).nest ≤ Json.nestingLimit := Nat.le_add_left 1 126
    exact check_text hnest
  | .author feed => by
    have hnest : (author feed).nest ≤ Json.nestingLimit := Nat.le_add_left 1 126
    exact check_text hnest

theorem forall₂_layeredAll : ∀ args : List Formula,
    List.Forall₂ (fun text formula => check (.str text) = .ok formula) (layeredAll args) args
  | [] => .nil
  | arg :: rest => .cons (check_layered arg) (forall₂_layeredAll rest)

end

-- Every layer is the text of a record that takes no more than two containers inside each other.
theorem layered_eq_compact (formula : Formula) :
    ∃ members, formula.layered = (Json.obj members).compact ∧
      (Json.obj members).isFloatFree = true ∧ (Json.obj members).nest ≤ 2 := by
  cases formula with
  | and args => exact ⟨_, rfl, isFloatFree_layer "and" _, Nat.le_of_eq (nest_layer "and" _)⟩
  | or args => exact ⟨_, rfl, isFloatFree_layer "or" _, Nat.le_of_eq (nest_layer "or" _)⟩
  | type name => exact ⟨_, text_eq_compact (type name), rfl, Nat.le_add_left 1 1⟩
  | author feed => exact ⟨_, text_eq_compact (author feed), rfl, Nat.le_add_left 1 1⟩

theorem readWithin_layered (formula : Formula) :
    ∃ members, Json.readWithin 2 formula.layered = .ok (.obj members) := by
  obtain ⟨members, hlayered, hfloat, hnest⟩ := layered_eq_compact formula
  have hlexes := Json.lexes_layout Layout.isSpacing_compact hfloat
  rw [hlayered]
  exact ⟨_, (Json.readWithin_of_lexes hlexes 2).1 hnest⟩

-- The limit of the reader holds for each text on its own: a query of any depth is accepted in
-- layers, each of which asks for no more than two levels, also if its own text is too deep.
theorem check_layered_unbounded :
    (∀ formula : Formula,
      check (.str formula.layered) = .ok formula ∧
      parse (.str formula.layered) = (some formula, []) ∧
      stringify (.str formula.layered) = .ok formula.text ∧
      (∀ dedicated, compile dedicated (.str formula.layered) = .ok (formula.operator dedicated)) ∧
      (∃ members, Json.readWithin 2 formula.layered = .ok (.obj members)) ∧
      (127 < formula.nest →
        ∃ position, check (.str formula.text) = .error (.notJson ⟨.tooDeep, position⟩))) ∧
    ∀ levels, ∃ formula : Formula, levels < formula.nest ∧
      check (.str formula.layered) = .ok formula := by
  constructor
  · intro formula
    have hcheck := check_layered formula
    obtain ⟨hparse, hstringify, hcompile⟩ := results_of_check hcheck
    exact ⟨hcheck, hparse, hstringify, hcompile, readWithin_layered formula, check_text_tooDeep⟩
  · intro levels
    have hnest := (nest_of_leafUnder false (leafUnder_wrapped "post" levels)).1
    refine ⟨wrapped levels (type "post"), ?_, check_layered _⟩
    omega

-- A leaf under 64 combinators is the first of which the text is too deep.
theorem check_layered_wrapped :
    127 < (wrapped 64 (type "post")).nest ∧
      check (.str (wrapped 64 (type "post")).layered) = .ok (wrapped 64 (type "post")) ∧
      ∃ position, check (.str (wrapped 64 (type "post")).text) =
        .error (.notJson ⟨.tooDeep, position⟩) := by
  have hnest : 127 < (wrapped 64 (type "post")).nest := by
    rw [(nest_of_leafUnder false (leafUnder_wrapped "post" 64)).1]
    decide
  obtain ⟨hcheck, _, _, _, _, hdeep⟩ := check_layered_unbounded.1 (wrapped 64 (type "post"))
  exact ⟨hnest, hcheck, hdeep hnest⟩

end FeedFilter.Formula
