import FeedFilter.Operator.Decode
import FeedFilter.Proofs.Json.Form
import FeedFilter.Proofs.Json.RoundTrip

namespace FeedFilter.Operator

mutual

-- The containers inside each other in the JSON of a tree. A node with parts is an object in an
-- object, and a combinator has the list of its children in that.
def nest : Operator → Nat
  | .and children => 3 + nestAll children
  | .or children => 3 + nestAll children
  | .author _ _ => 2
  | .type _ _ => 2
  | .isPrivate => 0
  | .isPublic => 0

def nestAll : List Operator → Nat
  | [] => 0
  | child :: rest => max child.nest (nestAll rest)

end

mutual

theorem isFloatFree_toJson : ∀ operator : Operator, operator.toJson.isFloatFree = true
  | .and children | .or children => by
    have := areFloatFree_toJsonAll children
    simp [toJson, Json.isFloatFree, Json.membersFloatFree, this]
  | .author feed dedicated => rfl
  | .type none dedicated | .type (some name) dedicated => rfl
  | .isPrivate | .isPublic => rfl

theorem areFloatFree_toJsonAll : ∀ children : List Operator,
    Json.areFloatFree (toJsonAll children) = true
  | [] => rfl
  | child :: rest => by
    rw [toJsonAll, Json.areFloatFree, isFloatFree_toJson child, areFloatFree_toJsonAll rest]
    rfl

end

-- The nodes with children, by their names.
def combinators : List (String × (List Operator → Operator)) :=
  [("And", .and), ("Or", .or)]

-- The readers of an object with one key, once the key has been read.
section Key

variable {levels start place : Nat} {key : Token} {colon : Option Token} {value : Outline}
  {next : Option Nat}

theorem ofFields_combinator {name : String} {make : List Operator → Operator}
    (hname : (name, make) ∈ combinators) (h : key.name = .ok name) :
    ofFields levels (.field key colon value next (.close place)) =
      (childrenOf levels value).map make := by
  simp only [combinators, List.mem_cons, Prod.mk.injEq, List.not_mem_nil, or_false] at hname
  rcases hname with ⟨rfl, rfl⟩ | ⟨rfl, rfl⟩
  all_goals
    simp only [ofFields, h]
    cases childrenOf levels value <;> rfl

theorem ofFields_author (h : key.name = .ok "AuthorPredicate") :
    ofFields levels (.field key colon value next (.close place)) = readAuthor levels value := by
  simp only [ofFields, h]
  cases readAuthor levels value <;> rfl

theorem ofFields_type (h : key.name = .ok "TypePredicate") :
    ofFields levels (.field key colon value next (.close place)) = readType levels value := by
  simp only [ofFields, h]
  cases readType levels value <;> rfl

theorem childrenOf_children (h : key.name = .ok "children") :
    childrenOf (levels + 1) (.object start (.field key colon value next (.close place))) =
      listOf levels value := by
  simp only [childrenOf, childrenIn, h]
  cases listOf levels value <;> rfl

end Key

section Parts

variable {levels : Nat} {outline : Outline}

theorem readsTo_readAuthor {feed : String} {dedicated : Bool}
    (h : outline.written levels =
      .ok (.obj [("feed_id", .str feed), ("dedicated", .bool dedicated)])) :
    ReadsTo (fun levels => readAuthor levels outline) 1 (.author feed dedicated) := by
  have hkeys : ["feed_id", "dedicated"].Nodup := by decide
  have hvalues : ReadsTo (fun levels => authorForm.read "an author predicate" levels outline) 1
      [.str feed, .bool dedicated] := by
    refine Form.readsTo_read h ?_ hkeys fun _ => rfl
    simp only [List.forall_mem_cons]
    exact ⟨⟨.text, rfl, feed, rfl⟩, ⟨.flag, rfl, dedicated, rfl⟩, nofun⟩
  exact hvalues.andThen rfl

theorem readsTo_readType {name : Option String} {dedicated : Bool}
    (h : outline.written levels =
      .ok (.obj [("value", ofNullable name), ("dedicated", .bool dedicated)])) :
    ReadsTo (fun levels => readType levels outline) 1 (.type name dedicated) := by
  have hkeys : ["value", "dedicated"].Nodup := by decide
  have hvalues : ReadsTo (fun levels => typeForm.read "a type predicate" levels outline) 1
      [ofNullable name, .bool dedicated] := by
    refine Form.readsTo_read h ?_ hkeys fun _ => rfl
    simp only [List.forall_mem_cons]
    exact ⟨⟨.nullable, rfl, FieldForm.holds_ofNullable name⟩, ⟨.flag, rfl, dedicated, rfl⟩, nofun⟩
  refine hvalues.andThen ?_
  cases name with
  | none => rfl
  | some name => rfl

theorem readsTo_name {name : String} {operator : Operator}
    (h : outline.written levels = .ok (.str name))
    (hname : (name, operator) ∈ [("IsPrivate", .isPrivate), ("IsPublic", Operator.isPublic)]) :
    ReadsTo (fun levels => ofOutline levels outline) 0 operator := by
  obtain ⟨start, reading, stop, rfl, hneeded⟩ := Outline.eq_text_of_written h
  simp only [List.mem_cons, Prod.mk.injEq, List.not_mem_nil, or_false] at hname
  have hread : readName ⟨start, .string reading, stop⟩ = .ok operator := by
    simp only [readName, hneeded]
    rcases hname with ⟨rfl, rfl⟩ | ⟨rfl, rfl⟩
    · rfl
    · rfl
  simp only [ofOutline, hread]
  exact ReadsTo.pure operator

variable {children : List Operator}
  (hchildren : ∀ {levels items}, items.written levels = .ok (toJsonAll children) →
    ReadsTo (fun levels => itemsOf levels items) (nestAll children) children)

include hchildren

theorem readsTo_childrenOf
    (h : outline.written levels = .ok (.obj [("children", .arr (toJsonAll children))])) :
    ReadsTo (fun levels => childrenOf levels outline) (1 + (1 + nestAll children)) children := by
  obtain ⟨_, start, key, colon, list, next, place, rfl, hkey, hlist⟩ :=
    Outline.eq_sole_of_written h
  obtain ⟨_, bracket, items, rfl, hitems⟩ := Outline.eq_list_of_written hlist
  have hreads : ReadsTo (fun levels => listOf levels (.list bracket items))
      (1 + nestAll children) children := (hchildren hitems).inside rfl fun _ => rfl
  exact hreads.inside rfl fun _ => childrenOf_children hkey

-- Each of the three containers of a combinator takes one level, and the children share the rest.
theorem readsTo_combinator {name : String} {make : List Operator → Operator}
    (hname : (name, make) ∈ combinators)
    (h : outline.written levels =
      .ok (.obj [(name, .obj [("children", .arr (toJsonAll children))])])) :
    ReadsTo (fun levels => ofOutline levels outline) (3 + nestAll children) (make children) := by
  obtain ⟨_, start, key, colon, value, next, place, rfl, hkey, hvalue⟩ :=
    Outline.eq_sole_of_written h
  have hparts := readsTo_childrenOf hchildren hvalue
  have hnest : 3 + nestAll children = 1 + (1 + (1 + nestAll children)) := by omega
  rw [hnest]
  refine (hparts.map make).inside rfl fun levels => ?_
  rw [ofOutline, ofFields_combinator hname hkey]

end Parts

mutual

-- Where the JSON of a tree is written, the reader of trees finds the tree, if it is given as many
-- levels as there are containers inside each other, and else a container that is too deep.
theorem readsTo_ofOutline : ∀ (operator : Operator) {outline : Outline} {levels : Nat},
    outline.written levels = .ok operator.toJson →
    ReadsTo (fun levels => ofOutline levels outline) operator.nest operator
  | .and children, outline, levels, h =>
    readsTo_combinator (readsTo_itemsOf children) (by simp [combinators]) h
  | .or children, outline, levels, h =>
    readsTo_combinator (readsTo_itemsOf children) (by simp [combinators]) h
  | .author feed dedicated, outline, levels, h => by
    obtain ⟨_, start, key, colon, value, next, place, rfl, hkey, hvalue⟩ :=
      Outline.eq_sole_of_written h
    refine (readsTo_readAuthor hvalue).inside rfl fun levels => ?_
    rw [ofOutline, ofFields_author hkey]
  | .type name dedicated, outline, levels, h => by
    obtain ⟨_, start, key, colon, value, next, place, rfl, hkey, hvalue⟩ :=
      Outline.eq_sole_of_written h
    refine (readsTo_readType hvalue).inside rfl fun levels => ?_
    rw [ofOutline, ofFields_type hkey]
  | .isPrivate, outline, levels, h => readsTo_name h (by simp)
  | .isPublic, outline, levels, h => readsTo_name h (by simp)

theorem readsTo_itemsOf : ∀ (children : List Operator) {levels : Nat} {items : Items},
    items.written levels = .ok (toJsonAll children) →
    ReadsTo (fun levels => itemsOf levels items) (nestAll children) children
  | [], levels, items, h => by
    rw [Items.eq_close_of_written h]
    exact ReadsTo.pure []
  | child :: rest, levels, items, h => by
    obtain ⟨start, value, more, rfl, hvalue, hmore⟩ := Items.eq_item_of_written h
    exact ReadsTo.bind List.cons (readsTo_ofOutline child hvalue) (readsTo_itemsOf rest hmore)

end

section Layout

variable {layout : Layout} (hlayout : layout.IsSpacing) (operator : Operator)

include hlayout

-- Whatever the spacing, the JSON of a tree is read back as the tree, up to the limit for containers
-- inside each other.
theorem decode_layout :
    (operator.nest ≤ Json.nestingLimit →
      decode (String.ofList (layout.value 0 operator.toJson)) = .ok operator) ∧
    (Json.nestingLimit < operator.nest → ∃ position,
      decode (String.ofList (layout.value 0 operator.toJson)) = .error ⟨.tooDeep, position⟩) := by
  obtain ⟨hwritten, hleft⟩ :=
    Outline.ofText_lexes (Json.lexes_layout hlayout (isFloatFree_toJson operator))
  have hjson := (hwritten operator.toJson.nest).1 (Nat.le_refl _)
  exact Json.decode_of_readsTo (readsTo_ofOutline operator hjson) hleft Json.nestingLimit

theorem decode_layout_eq_ok_iff :
    decode (String.ofList (layout.value 0 operator.toJson)) = .ok operator ↔
      operator.nest ≤ Json.nestingLimit := by
  obtain ⟨hok, herror⟩ := decode_layout hlayout operator
  refine ⟨fun hdecode => ?_, hok⟩
  by_contra hnest
  obtain ⟨position, hposition⟩ := herror (Nat.lt_of_not_le hnest)
  cases hdecode.symm.trans hposition

end Layout

end FeedFilter.Operator
