import FeedFilter.Json.Form
import FeedFilter.Operator.Basic
import FeedFilter.Proofs.Json.Keys
import FeedFilter.Proofs.Json.Outline

namespace FeedFilter

-- A reader that knows what it wants goes over the same outline as the reader that takes any value.
-- So what it finds can be told from the value that is written there.

-- The tokens that are values by themselves.
theorem Token.value_eq_ok {token : Token} {json : Json} (h : token.value = .ok json) :
    (token.lexeme = .null ∧ json = .null) ∨
      (∃ flag, token.lexeme = .bool flag ∧ json = .bool flag) ∨
      (∃ reading number, token.lexeme = .number reading ∧ json = .num number) ∨
      ∃ reading text, token.lexeme = .string reading ∧ reading.needed = .ok text ∧
        json = .str text := by
  obtain ⟨start, lexeme, stop⟩ := token
  cases lexeme with
  | null =>
    cases h
    exact .inl ⟨rfl, rfl⟩
  | bool flag =>
    cases h
    exact .inr (.inl ⟨flag, rfl, rfl⟩)
  | number reading =>
    obtain ⟨number, _, rfl⟩ := Except.map_eq_ok h
    exact .inr (.inr (.inl ⟨reading, number, rfl, rfl⟩))
  | string reading =>
    obtain ⟨text, hneeded, rfl⟩ := Except.map_eq_ok h
    exact .inr (.inr (.inr ⟨reading, text, rfl, hneeded, rfl⟩))
  | openList => cases h
  | closeList => cases h
  | openObject => cases h
  | closeObject => cases h
  | comma => cases h
  | colon => cases h
  | misspelt fault => cases h
  | stray => cases h

namespace Outline

variable {levels : Nat} {outline : Outline}

theorem eq_scalar_of_written {json : Json} (h : outline.written levels = .ok json)
    (hjson : json.isScalar = true) : ∃ token, outline = .scalar token ∧ token.value = .ok json := by
  cases outline with
  | scalar token => exact ⟨token, rfl, h⟩
  | broken fault => cases h
  | list start items =>
    cases levels with
    | zero => cases h
    | succ inner =>
      obtain ⟨found, _, rfl⟩ := Except.map_eq_ok h
      cases hjson
  | object start fields =>
    cases levels with
    | zero => cases h
    | succ inner =>
      obtain ⟨found, _, rfl⟩ := Except.map_eq_ok h
      cases hjson

theorem eq_object_of_written {members : Members} (h : outline.written levels = .ok (.obj members)) :
    ∃ inner start fields, levels = inner + 1 ∧ outline = .object start fields ∧
      fields.written inner = .ok members := by
  cases outline with
  | scalar token =>
    have hnest := Token.nest_value h
    rw [Json.nest] at hnest
    omega
  | broken fault => cases h
  | list start items =>
    cases levels with
    | zero => cases h
    | succ inner =>
      obtain ⟨found, _, hfound⟩ := Except.map_eq_ok h
      cases hfound
  | object start fields =>
    cases levels with
    | zero => cases h
    | succ inner =>
      obtain ⟨found, hwritten, hfound⟩ := Except.map_eq_ok h
      cases hfound
      exact ⟨inner, start, fields, rfl, rfl, hwritten⟩

theorem eq_list_of_written {items : List Json} (h : outline.written levels = .ok (.arr items)) :
    ∃ inner start found, outline = .list start found ∧ found.written inner = .ok items := by
  cases outline with
  | scalar token =>
    have hnest := Token.nest_value h
    rw [Json.nest] at hnest
    omega
  | broken fault => cases h
  | object start fields =>
    cases levels with
    | zero => cases h
    | succ inner =>
      obtain ⟨found, _, hfound⟩ := Except.map_eq_ok h
      cases hfound
  | list start items =>
    cases levels with
    | zero => cases h
    | succ inner =>
      obtain ⟨found, hwritten, hfound⟩ := Except.map_eq_ok h
      cases hfound
      exact ⟨inner, start, items, rfl, hwritten⟩

theorem eq_null_of_written (h : outline.written levels = .ok .null) :
    ∃ start stop, outline = .scalar ⟨start, .null, stop⟩ := by
  obtain ⟨⟨start, lexeme, stop⟩, rfl, hvalue⟩ := eq_scalar_of_written h rfl
  rcases Token.value_eq_ok hvalue with ⟨hlexeme, _⟩ | ⟨_, _, hjson⟩ | ⟨_, _, _, hjson⟩ |
    ⟨_, _, _, _, hjson⟩
  · cases hlexeme
    exact ⟨start, stop, rfl⟩
  all_goals cases hjson

theorem eq_flag_of_written {flag : Bool} (h : outline.written levels = .ok (.bool flag)) :
    ∃ start stop, outline = .scalar ⟨start, .bool flag, stop⟩ := by
  obtain ⟨⟨start, lexeme, stop⟩, rfl, hvalue⟩ := eq_scalar_of_written h rfl
  rcases Token.value_eq_ok hvalue with ⟨_, hjson⟩ | ⟨_, hlexeme, hjson⟩ | ⟨_, _, _, hjson⟩ |
    ⟨_, _, _, _, hjson⟩
  case inr.inl =>
    cases hlexeme
    cases hjson
    exact ⟨start, stop, rfl⟩
  all_goals cases hjson

theorem eq_text_of_written {text : String} (h : outline.written levels = .ok (.str text)) :
    ∃ start reading stop, outline = .scalar ⟨start, .string reading, stop⟩ ∧
      reading.needed = .ok text := by
  obtain ⟨⟨start, lexeme, stop⟩, rfl, hvalue⟩ := eq_scalar_of_written h rfl
  rcases Token.value_eq_ok hvalue with ⟨_, hjson⟩ | ⟨_, _, hjson⟩ | ⟨_, _, _, hjson⟩ |
    ⟨reading, _, hlexeme, hneeded, hjson⟩
  case inr.inr.inr =>
    cases hlexeme
    cases hjson
    exact ⟨start, reading, stop, rfl, hneeded⟩
  all_goals cases hjson

theorem readVariant_of_written {known : List String} {name : String}
    (h : outline.written levels = .ok (.str name)) (hname : name ∈ known) :
    outline.readVariant known = .ok name := by
  obtain ⟨start, reading, stop, rfl, hneeded⟩ := eq_text_of_written h
  have hknown : known.contains name = true := List.contains_iff_mem.mpr hname
  simp only [readVariant, hneeded, bind, Except.bind, Token.variant, hknown, if_true]

end Outline

-- The outline of a list or an object has a part for each that is written.
section Parts

variable {levels : Nat}

theorem Items.eq_close_of_written {items : Items} (h : items.written levels = .ok []) :
    items = .close := by
  cases items with
  | close => rfl
  | stuck gap => cases h
  | item start value more =>
    obtain ⟨first, _, h⟩ := Except.bind_eq_ok h
    obtain ⟨others, _, h⟩ := Except.bind_eq_ok h
    cases h

theorem Items.eq_item_of_written {items : Items} {item : Json} {rest : List Json}
    (h : items.written levels = .ok (item :: rest)) :
    ∃ start value more, items = .item start value more ∧ value.written levels = .ok item ∧
      more.written levels = .ok rest := by
  cases items with
  | close => cases h
  | stuck gap => cases h
  | item start value more =>
    obtain ⟨first, hfirst, h⟩ := Except.bind_eq_ok h
    obtain ⟨others, hothers, h⟩ := Except.bind_eq_ok h
    cases h
    exact ⟨start, value, more, rfl, hfirst, hothers⟩

theorem Fields.eq_close_of_written {fields : Fields} (h : fields.written levels = .ok []) :
    ∃ place, fields = .close place := by
  cases fields with
  | close place => exact ⟨place, rfl⟩
  | stuck gap => cases h
  | noKey found => cases h
  | field key colon value next more =>
    obtain ⟨name, _, h⟩ := Except.bind_eq_ok h
    obtain ⟨first, _, h⟩ := Except.bind_eq_ok h
    obtain ⟨others, _, h⟩ := Except.bind_eq_ok h
    cases h

theorem Fields.eq_field_of_written {fields : Fields} {name : String} {item : Json}
    {rest : Members} (h : fields.written levels = .ok ((name, item) :: rest)) :
    ∃ key colon value next more, fields = .field key colon value next more ∧
      key.name = .ok name ∧ value.written levels = .ok item ∧ more.written levels = .ok rest := by
  cases fields with
  | close place => cases h
  | stuck gap => cases h
  | noKey found => cases h
  | field key colon value next more =>
    obtain ⟨found, hname, h⟩ := Except.bind_eq_ok h
    obtain ⟨first, hfirst, h⟩ := Except.bind_eq_ok h
    obtain ⟨others, hothers, h⟩ := Except.bind_eq_ok h
    cases h
    exact ⟨key, colon, value, next, more, rfl, hname, hfirst, hothers⟩

theorem Outline.eq_sole_of_written {outline : Outline} {name : String} {item : Json}
    (h : outline.written levels = .ok (.obj [(name, item)])) :
    ∃ inner start key colon value next place,
      outline = .object start (.field key colon value next (.close place)) ∧
      key.name = .ok name ∧ value.written inner = .ok item := by
  obtain ⟨inner, start, fields, rfl, rfl, hfields⟩ := Outline.eq_object_of_written h
  obtain ⟨key, colon, value, next, more, rfl, hname, hvalue, hmore⟩ :=
    Fields.eq_field_of_written hfields
  obtain ⟨place, rfl⟩ := Fields.eq_close_of_written hmore
  exact ⟨inner, start, key, colon, value, next, place, rfl, hname, hvalue⟩

end Parts

-- The values that a field may hold.
def FieldForm.Holds : FieldForm → Json → Prop
  | .text, value => ∃ text, value = .str text
  | .nullable, value => value = .null ∨ ∃ text, value = .str text
  | .flag, value => ∃ flag, value = .bool flag

theorem FieldForm.holds_ofNullable (text : Option String) :
    nullable.Holds (Operator.ofNullable text) := by
  cases text with
  | none => exact .inl rfl
  | some text => exact .inr ⟨text, rfl⟩

theorem FieldForm.read_of_written {form : FieldForm} {levels : Nat} {outline : Outline}
    {value : Json} (h : outline.written levels = .ok value) (hvalue : form.Holds value) :
    form.read outline = .ok value := by
  cases form with
  | text =>
    obtain ⟨text, rfl⟩ := hvalue
    obtain ⟨start, reading, stop, rfl, hneeded⟩ := Outline.eq_text_of_written h
    simp only [read, Outline.readText, hneeded, Except.map]
  | nullable =>
    rcases hvalue with rfl | ⟨text, rfl⟩
    · obtain ⟨start, stop, rfl⟩ := Outline.eq_null_of_written h
      rfl
    · obtain ⟨start, reading, stop, rfl, hneeded⟩ := Outline.eq_text_of_written h
      simp only [read, Outline.readNullable, Outline.readText, hneeded, Except.map, Option.elim]
  | flag =>
    obtain ⟨flag, rfl⟩ := hvalue
    obtain ⟨start, stop, rfl⟩ := Outline.eq_flag_of_written h
    rfl

-- Fields that are all asked for and come once each are read whatever their order. Those that have
-- been read are kept with the last one first.
theorem Form.ofFields_of_written (form : Form) : ∀ (fields : Fields) {found members : Members}
    {levels : Nat}, fields.written levels = .ok members →
    (∀ member ∈ members, ∃ field, form.lookup member.1 = some field ∧ field.Holds member.2) →
    (members.map Prod.fst).Nodup → (∀ name ∈ members.map Prod.fst, found.lookup name = none) →
    ∃ place, form.ofFields found fields = form.complete (members.reverse ++ found) place
  | .close place, found, members, levels, h, hform, hkeys, hnew => by
    cases h
    exact ⟨place, rfl⟩
  | .stuck gap, found, members, levels, h, hform, hkeys, hnew => by cases h
  | .noKey key, found, members, levels, h, hform, hkeys, hnew => by cases h
  | .field key colon outline next more, found, members, levels, h, hform, hkeys, hnew => by
    obtain ⟨name, hname, h⟩ := Except.bind_eq_ok h
    obtain ⟨value, hvalue, h⟩ := Except.bind_eq_ok h
    obtain ⟨rest, hrest, h⟩ := Except.bind_eq_ok h
    cases h
    rw [List.map_cons, List.nodup_cons] at hkeys
    obtain ⟨field, hfield, hholds⟩ := hform (name, value) List.mem_cons_self
    have hread := FieldForm.read_of_written hvalue hholds
    have hfirst : found.lookup name = none := hnew name List.mem_cons_self
    have hlater : ∀ other ∈ rest.map Prod.fst,
        List.lookup other ((name, value) :: found) = none := by
      intro other hother
      have hne : other ≠ name := by
        rintro rfl
        exact hkeys.1 hother
      rw [Members.lookup_cons, if_neg hne]
      exact hnew other (List.mem_cons_of_mem _ hother)
    have hothers := fun member hmember => hform member (List.mem_cons_of_mem _ hmember)
    obtain ⟨place, hplace⟩ := form.ofFields_of_written more hrest hothers hkeys.2 hlater
    refine ⟨place, ?_⟩
    rw [List.reverse_cons, List.append_assoc, List.singleton_append, ← hplace]
    simp only [ofFields, hname, bind, Except.bind, hfield, hfirst, Option.isSome_none,
      Bool.false_eq_true, if_false, hread]

-- The record as a whole takes one level, and the values of its fields none.
theorem Form.readsTo_read {form : Form} {wanted : String} {levels : Nat} {outline : Outline}
    {members : Members} {values : List Json} (h : outline.written levels = .ok (.obj members))
    (hform : ∀ member ∈ members, ∃ field, form.lookup member.1 = some field ∧ field.Holds member.2)
    (hkeys : (members.map Prod.fst).Nodup)
    (hvalues : ∀ place, form.complete (members.reverse ++ []) place = .ok values) :
    ReadsTo (fun levels => form.read wanted levels outline) 1 values := by
  obtain ⟨inner, start, fields, rfl, rfl, hfields⟩ := Outline.eq_object_of_written h
  have hread : ∃ place, form.ofFields [] fields = form.complete (members.reverse ++ []) place :=
    form.ofFields_of_written fields hfields hform hkeys fun _ _ => rfl
  obtain ⟨place, hread⟩ := hread
  rw [hvalues] at hread
  exact (ReadsTo.pure values).inside rfl fun _ => hread

theorem Json.read_of_decode {text : String} {json : Json}
    (h : decode (Outline.written nestingLimit) text = .ok json) :
    read text = .ok json.canonical := by
  rw [read, readWithin, h]
  rfl

theorem Json.left_of_decode {α : Type} {form : Outline → Except Fault α} {text : String}
    {value : α} (h : decode form text = .ok value) : (Outline.ofText text).2 = [] := by
  obtain ⟨found, _, hrest⟩ := Except.bind_eq_ok (Except.mapError_eq_ok h)
  unfold Token.refuseMore at hrest
  split at hrest
  · assumption
  · cases hrest

-- If one form can be read from a text then nothing follows the value, and another form can be read
-- as well if it can be read from the value.
theorem Json.decode_of_decode {α β : Type} {form : Outline → Except Fault α}
    {other : Outline → Except Fault β} {text : String} {value : α} {result : β}
    (h : decode form text = .ok value) (hother : other (Outline.ofText text).1 = .ok result) :
    decode other text = .ok result := by
  simp only [decode, hother, left_of_decode h]
  rfl

end FeedFilter
