import FeedFilter.Proofs.Json.Lexing
import FeedFilter.Proofs.Json.Nesting

namespace FeedFilter

namespace Json

mutual

-- The lexemes with which a value is written.
def lexemes : Json → List Lexeme
  | .null => [.null]
  | .bool value => [.bool value]
  | .num number => [.ofNumber number]
  | .str text => [.ofText text]
  | .arr items =>
    match items with
    | [] => [.openList, .closeList]
    | item :: rest => .openList :: (item.lexemes ++ lexemesItems rest)
  | .obj members =>
    match members with
    | [] => [.openObject, .closeObject]
    | (key, item) :: rest =>
      .openObject :: .ofText key :: .colon :: (item.lexemes ++ lexemesMembers rest)

-- Those after the first item of a list.
def lexemesItems : List Json → List Lexeme
  | [] => [.closeList]
  | item :: rest => .comma :: (item.lexemes ++ lexemesItems rest)

-- Those after the first member of an object.
def lexemesMembers : List (String × Json) → List Lexeme
  | [] => [.closeObject]
  | (key, item) :: rest =>
    .comma :: .ofText key :: .colon :: (item.lexemes ++ lexemesMembers rest)

end

theorem lexemes_eq_cons (json : Json) :
    ∃ first rest, json.lexemes = first :: rest ∧ first.isCloseList = false := by
  match json with
  | .null | .bool _ | .num _ | .str _ | .arr [] | .obj [] => exact ⟨_, _, rfl, rfl⟩
  | .arr (_ :: _) | .obj (_ :: _) => exact ⟨_, _, rfl, rfl⟩

end Json

-- A reader that takes containers up to a depth finds a value of a nesting, or a container too
-- deep for it.
def ReadsTo {α : Type} (reader : Nat → Except Fault α) (nest : Nat) (found : α) : Prop :=
  ∀ levels, (nest ≤ levels → reader levels = .ok found) ∧
    (levels < nest → ∃ place, reader levels = .error ⟨.tooDeep, place⟩)

namespace ReadsTo

theorem pure {α : Type} (found : α) : ReadsTo (fun _ => .ok found) 0 found :=
  fun _ => ⟨fun _ => rfl, fun h => absurd h (Nat.not_lt_zero _)⟩

-- Of two readings one after the other the first that is too deep counts.
theorem bind {α β γ : Type} {first : Nat → Except Fault α} {second : Nat → Except Fault β}
    {m n : Nat} {a : α} {b : β} (f : α → β → γ) (hfirst : ReadsTo first m a)
    (hsecond : ReadsTo second n b) :
    ReadsTo (fun levels => do
      let a ← first levels
      let b ← second levels
      return f a b) (max m n) (f a b) := by
  intro levels
  constructor
  · intro h
    have ha := (hfirst levels).1 (by omega)
    have hb := (hsecond levels).1 (by omega)
    simp only [ha, hb]
    rfl
  · intro h
    by_cases hm : levels < m
    · obtain ⟨place, hplace⟩ := (hfirst levels).2 hm
      exact ⟨place, by simp only [hplace]; rfl⟩
    · have ha := (hfirst levels).1 (by omega)
      obtain ⟨place, hplace⟩ := (hsecond levels).2 (by omega)
      exact ⟨place, by simp only [ha, hplace]; rfl⟩

-- What is made of a reading is as deep as the reading.
theorem andThen {α β : Type} {reader : Nat → Except Fault α} {n : Nat} {a : α} {b : β}
    {next : α → Except Fault β} (hreader : ReadsTo reader n a) (hnext : next a = .ok b) :
    ReadsTo (fun levels => reader levels >>= next) n b := by
  intro levels
  constructor
  · intro h
    simp only [(hreader levels).1 h]
    exact hnext
  · intro h
    obtain ⟨place, hplace⟩ := (hreader levels).2 h
    exact ⟨place, by simp only [hplace]; rfl⟩

theorem map {α β : Type} {reader : Nat → Except Fault α} {n : Nat} {a : α} (f : α → β)
    (hreader : ReadsTo reader n a) : ReadsTo (fun levels => (reader levels).map f) n (f a) := by
  have hbind : (fun levels => (reader levels).map f) =
      fun levels => reader levels >>= fun a => .ok (f a) := by
    funext levels
    cases reader levels <;> rfl
  rw [hbind]
  exact hreader.andThen rfl

-- A container takes one level for itself.
theorem inside {α : Type} {outer reader : Nat → Except Fault α} {n place : Nat} {a : α}
    (hreader : ReadsTo reader n a) (hzero : outer 0 = .error (.upon .tooDeep place))
    (hsucc : ∀ levels, outer (levels + 1) = reader levels) : ReadsTo outer (1 + n) a := by
  intro levels
  cases levels with
  | zero => exact ⟨fun h => by omega, fun _ => ⟨_, hzero⟩⟩
  | succ levels =>
    rw [hsucc]
    have hinside := hreader levels
    exact ⟨fun h => hinside.1 (by omega), fun h => hinside.2 (by omega)⟩

end ReadsTo

theorem Token.name_ofText {token : Token} {text : String} (h : token.lexeme = .ofText text) :
    token.name = .ok text := by
  rw [Token.name, h]
  rfl

namespace Step

variable {all : List Token} {after : List Lexeme} {item : Json}

theorem first_part {closes : Lexeme → Bool} {token : Token} {rest : List Token}
    (h : closes token.lexeme = false) : first closes (token :: rest) = .part (token :: rest) := by
  simp [first, h]

theorem first_close {closes : Lexeme → Bool} {token : Token} {rest : List Token}
    (h : closes token.lexeme = true) : first closes (token :: rest) = .close token.start rest := by
  simp [first, h]

theorem next_part {closes : Lexeme → Bool} {comma token : Token} {rest : List Token}
    (hcloses : closes .comma = false) (hcomma : comma.lexeme = .comma)
    (h : closes token.lexeme = false) :
    next closes (comma :: token :: rest) = .part (token :: rest) := by
  simp [next, afterComma, hcomma, hcloses, h]

theorem next_close {closes : Lexeme → Bool} {token : Token} {rest : List Token}
    (h : closes token.lexeme = true) : next closes (token :: rest) = .close token.start rest := by
  simp [next, h]

-- No value begins with the bracket that closes a list.
theorem first_item (h : all.map Token.lexeme = item.lexemes ++ after) :
    first Lexeme.isCloseList all = .part all := by
  obtain ⟨lexeme, lexemes, hitem, hopen⟩ := item.lexemes_eq_cons
  rw [hitem, List.cons_append, List.map_eq_cons_iff] at h
  obtain ⟨token, rest, rfl, rfl, _⟩ := h
  exact first_part hopen

theorem next_item {comma : Token} (hcomma : comma.lexeme = .comma)
    (h : all.map Token.lexeme = item.lexemes ++ after) :
    next Lexeme.isCloseList (comma :: all) = .part all := by
  obtain ⟨lexeme, lexemes, hitem, hopen⟩ := item.lexemes_eq_cons
  rw [hitem, List.cons_append, List.map_eq_cons_iff] at h
  obtain ⟨token, rest, rfl, rfl, _⟩ := h
  exact next_part rfl hcomma hopen

end Step

theorem Items.ofStep_close (fuel place : Nat) (rest : List Token) :
    ReadsTo (Items.ofStep fuel (.close place rest)).1.written (Json.nestItems []) [] ∧
      (Items.ofStep fuel (.close place rest)).2 = rest := by
  rw [Items.ofStep]
  exact ⟨ReadsTo.pure [], rfl⟩

theorem Fields.ofStep_close (fuel place : Nat) (rest : List Token) :
    ReadsTo (Fields.ofStep fuel (.close place rest)).1.written (Json.nestMembers []) [] ∧
      (Fields.ofStep fuel (.close place rest)).2 = rest := by
  rw [Fields.ofStep]
  exact ⟨ReadsTo.pure [], rfl⟩

-- A list or an object is read from a part on if this part and those after it can be read.
section Parts

variable {fuel : Nat} {all : List Token}

theorem Items.ofStep_part {item : Json} {rest : List Json}
    (hvalue : ReadsTo (Outline.take fuel all).1.written item.nest item)
    (hmore : ReadsTo
      (Items.ofStep fuel (Step.next Lexeme.isCloseList (Outline.take fuel all).2)).1.written
      (Json.nestItems rest) rest) :
    ReadsTo (Items.ofStep (fuel + 1) (.part all)).1.written (Json.nestItems (item :: rest))
      (item :: rest) := by
  exact ReadsTo.bind List.cons hvalue hmore

theorem Fields.ofStep_part {key colon : Token} {name : String} {item : Json}
    {rest : List (String × Json)} (hkey : key.lexeme = .ofText name) (hcolon : colon.lexeme = .colon)
    (hvalue : ReadsTo (Outline.take fuel all).1.written item.nest item)
    (hmore : ReadsTo
      (Fields.ofStep fuel (Step.next Lexeme.isCloseObject (Outline.take fuel all).2)).1.written
      (Json.nestMembers rest) rest) :
    ReadsTo (Fields.ofStep (fuel + 1) (.part (key :: colon :: all))).1.written
      (Json.nestMembers ((name, item) :: rest)) ((name, item) :: rest) ∧
    (Fields.ofStep (fuel + 1) (.part (key :: colon :: all))).2 =
      (Fields.ofStep fuel (Step.next Lexeme.isCloseObject (Outline.take fuel all).2)).2 := by
  have hname := Token.name_ofText hkey
  simp only [Fields.ofStep, hkey, Lexeme.ofText, Token.afterColon, hcolon]
  refine ⟨?_, trivial⟩
  have hboth := ReadsTo.bind (fun value more => (name, value) :: more) hvalue hmore
  intro levels
  simp only [Fields.written, hname]
  exact hboth levels

end Parts

theorem Outline.take_scalar {fuel : Nat} {all : List Token} {lexeme : Lexeme}
    {after : List Lexeme} {json : Json} (h : all.map Token.lexeme = lexeme :: after)
    (hfuel : 2 ≤ fuel) (hlist : lexeme ≠ .openList) (hobject : lexeme ≠ .openObject)
    (hvalue : ∀ token : Token, token.lexeme = lexeme → token.value = .ok json) :
    ReadsTo (Outline.take fuel all).1.written 0 json ∧
      (Outline.take fuel all).2.map Token.lexeme = after := by
  obtain ⟨token, rest, rfl, htoken, hrest⟩ := List.map_eq_cons_iff.mp h
  obtain ⟨fuel, rfl⟩ : ∃ inner, fuel = inner + 1 := ⟨fuel - 1, by omega⟩
  have htake : Outline.take (fuel + 1) (token :: rest) = (.scalar token, rest) := by
    rw [Outline.take]
    split
    · next hopen => exact absurd (htoken.symm.trans hopen) hlist
    · next hopen => exact absurd (htoken.symm.trans hopen) hobject
    · rfl
  rw [htake]
  exact ⟨fun levels => ⟨fun _ => hvalue token htoken, fun h => absurd h (Nat.not_lt_zero _)⟩, hrest⟩

theorem Outline.take_list {fuel : Nat} {token : Token} {rest : List Token} {step : Step}
    {items : List Json} (hopen : token.lexeme = .openList)
    (hstep : Step.first Lexeme.isCloseList rest = step)
    (hitems : ReadsTo (Items.ofStep fuel step).1.written (Json.nestItems items) items) :
    ReadsTo (Outline.take (fuel + 1) (token :: rest)).1.written (Json.nest (.arr items))
        (.arr items) ∧
      (Outline.take (fuel + 1) (token :: rest)).2 = (Items.ofStep fuel step).2 := by
  subst hstep
  rw [Outline.take]
  simp only [hopen, Json.nest]
  exact ⟨(hitems.map Json.arr).inside rfl fun _ => rfl, trivial⟩

theorem Outline.take_object {fuel : Nat} {token : Token} {rest : List Token} {step : Step}
    {members : List (String × Json)} (hopen : token.lexeme = .openObject)
    (hstep : Step.first Lexeme.isCloseObject rest = step)
    (hmembers : ReadsTo (Fields.ofStep fuel step).1.written (Json.nestMembers members) members) :
    ReadsTo (Outline.take (fuel + 1) (token :: rest)).1.written (Json.nest (.obj members))
        (.obj members) ∧
      (Outline.take (fuel + 1) (token :: rest)).2 = (Fields.ofStep fuel step).2 := by
  subst hstep
  rw [Outline.take]
  simp only [hopen, Json.nest]
  exact ⟨(hmembers.map Json.obj).inside rfl fun _ => rfl, trivial⟩

theorem Outline.take_emptyList {fuel : Nat} {all : List Token} {after : List Lexeme}
    (h : all.map Token.lexeme = .openList :: .closeList :: after) (hfuel : 4 ≤ fuel) :
    ReadsTo (Outline.take fuel all).1.written (Json.nest (.arr [])) (.arr []) ∧
      (Outline.take fuel all).2.map Token.lexeme = after := by
  obtain ⟨token, more, rfl, hopen, hmore⟩ := List.map_eq_cons_iff.mp h
  obtain ⟨close, rest, rfl, hclose, hrest⟩ := List.map_eq_cons_iff.mp hmore
  obtain ⟨fuel, rfl⟩ : ∃ inner, fuel = inner + 1 := ⟨fuel - 1, by omega⟩
  obtain ⟨hitems, hleft⟩ := Items.ofStep_close fuel close.start rest
  have hstep : Step.first Lexeme.isCloseList (close :: rest) = .close close.start rest :=
    Step.first_close (by rw [hclose]; rfl)
  obtain ⟨hlist, hlistLeft⟩ := Outline.take_list hopen hstep hitems
  rw [hlistLeft, hleft]
  exact ⟨hlist, hrest⟩

theorem Outline.take_emptyObject {fuel : Nat} {all : List Token} {after : List Lexeme}
    (h : all.map Token.lexeme = .openObject :: .closeObject :: after) (hfuel : 4 ≤ fuel) :
    ReadsTo (Outline.take fuel all).1.written (Json.nest (.obj [])) (.obj []) ∧
      (Outline.take fuel all).2.map Token.lexeme = after := by
  obtain ⟨token, more, rfl, hopen, hmore⟩ := List.map_eq_cons_iff.mp h
  obtain ⟨close, rest, rfl, hclose, hrest⟩ := List.map_eq_cons_iff.mp hmore
  obtain ⟨fuel, rfl⟩ : ∃ inner, fuel = inner + 1 := ⟨fuel - 1, by omega⟩
  obtain ⟨hfields, hleft⟩ := Fields.ofStep_close fuel close.start rest
  have hstep : Step.first Lexeme.isCloseObject (close :: rest) = .close close.start rest :=
    Step.first_close (by rw [hclose]; rfl)
  obtain ⟨hobject, hobjectLeft⟩ := Outline.take_object hopen hstep hfields
  rw [hobjectLeft, hleft]
  exact ⟨hobject, hrest⟩

mutual

-- Tokens with the lexemes of a value are followed to the end of the value, and the value is read
-- from what was followed.
theorem Outline.take_lexemes : ∀ (json : Json) {fuel : Nat} {all : List Token}
    {after : List Lexeme}, all.map Token.lexeme = json.lexemes ++ after →
    2 * json.lexemes.length ≤ fuel →
    ReadsTo (Outline.take fuel all).1.written json.nest json ∧
      (Outline.take fuel all).2.map Token.lexeme = after
  | .null, fuel, all, after, h, hfuel =>
    Outline.take_scalar h hfuel nofun nofun
      fun token htoken => by rw [Token.value, htoken]
  | .bool value, fuel, all, after, h, hfuel =>
    Outline.take_scalar h hfuel nofun nofun
      fun token htoken => by rw [Token.value, htoken]
  | .num number, fuel, all, after, h, hfuel =>
    Outline.take_scalar h hfuel nofun nofun
      fun token htoken => by rw [Token.value, htoken]; rfl
  | .str text, fuel, all, after, h, hfuel =>
    Outline.take_scalar h hfuel nofun nofun
      fun token htoken => by rw [Token.value, htoken]; rfl
  | .arr [], fuel, all, after, h, hfuel => Outline.take_emptyList h hfuel
  | .arr (item :: rest), fuel, all, after, h, hfuel => by
    rw [Json.lexemes, List.cons_append, List.append_assoc, List.map_eq_cons_iff] at h
    obtain ⟨token, more, rfl, hopen, hmore⟩ := h
    simp only [Json.lexemes, List.length_cons, List.length_append] at hfuel
    obtain ⟨fuel, rfl⟩ : ∃ inner, fuel = inner + 2 := ⟨fuel - 2, by omega⟩
    have hitem : 2 * item.lexemes.length ≤ fuel := by omega
    have hrest : 2 * (Json.lexemesItems rest).length ≤ fuel := by omega
    obtain ⟨hvalue, hleft⟩ := Outline.take_lexemes item hmore hitem
    obtain ⟨hitems, hafter⟩ := Items.ofStep_lexemes rest hleft hrest
    obtain ⟨hlist, hlistLeft⟩ :=
      Outline.take_list hopen (Step.first_item hmore) (Items.ofStep_part hvalue hitems)
    rw [hlistLeft]
    exact ⟨hlist, hafter⟩
  | .obj [], fuel, all, after, h, hfuel => Outline.take_emptyObject h hfuel
  | .obj ((name, item) :: rest), fuel, all, after, h, hfuel => by
    simp only [Json.lexemes, List.cons_append, List.append_assoc] at h
    obtain ⟨token, more, rfl, hopen, hmore⟩ := List.map_eq_cons_iff.mp h
    obtain ⟨key, more, rfl, hkey, hmore⟩ := List.map_eq_cons_iff.mp hmore
    obtain ⟨colon, more, rfl, hcolon, hmore⟩ := List.map_eq_cons_iff.mp hmore
    simp only [Json.lexemes, List.length_cons, List.length_append] at hfuel
    obtain ⟨fuel, rfl⟩ : ∃ inner, fuel = inner + 2 := ⟨fuel - 2, by omega⟩
    have hitem : 2 * item.lexemes.length ≤ fuel := by omega
    have hrest : 2 * (Json.lexemesMembers rest).length ≤ fuel := by omega
    obtain ⟨hvalue, hleft⟩ := Outline.take_lexemes item hmore hitem
    obtain ⟨hmembers, hafter⟩ := Fields.ofStep_lexemes rest hleft hrest
    obtain ⟨hpart, hpartLeft⟩ := Fields.ofStep_part hkey hcolon hvalue hmembers
    have hstep : Step.first Lexeme.isCloseObject (key :: colon :: more) =
        .part (key :: colon :: more) :=
      Step.first_part (by rw [hkey]; rfl)
    obtain ⟨hobject, hobjectLeft⟩ := Outline.take_object hopen hstep hpart
    rw [hobjectLeft, hpartLeft]
    exact ⟨hobject, hafter⟩

theorem Items.ofStep_lexemes : ∀ (items : List Json) {fuel : Nat} {all : List Token}
    {after : List Lexeme}, all.map Token.lexeme = Json.lexemesItems items ++ after →
    2 * (Json.lexemesItems items).length ≤ fuel →
    ReadsTo (Items.ofStep fuel (Step.next Lexeme.isCloseList all)).1.written
        (Json.nestItems items) items ∧
      (Items.ofStep fuel (Step.next Lexeme.isCloseList all)).2.map Token.lexeme = after
  | [], fuel, all, after, h, hfuel => by
    obtain ⟨close, rest, rfl, hclose, hrest⟩ := List.map_eq_cons_iff.mp h
    obtain ⟨hitems, hleft⟩ := Items.ofStep_close fuel close.start rest
    rw [Step.next_close (by rw [hclose]; rfl), hleft]
    exact ⟨hitems, hrest⟩
  | item :: rest, fuel, all, after, h, hfuel => by
    rw [Json.lexemesItems, List.cons_append, List.append_assoc, List.map_eq_cons_iff] at h
    obtain ⟨comma, more, rfl, hcomma, hmore⟩ := h
    simp only [Json.lexemesItems, List.length_cons, List.length_append] at hfuel
    obtain ⟨fuel, rfl⟩ : ∃ inner, fuel = inner + 1 := ⟨fuel - 1, by omega⟩
    have hitem : 2 * item.lexemes.length ≤ fuel := by omega
    have hrest : 2 * (Json.lexemesItems rest).length ≤ fuel := by omega
    obtain ⟨hvalue, hleft⟩ := Outline.take_lexemes item hmore hitem
    obtain ⟨hitems, hafter⟩ := Items.ofStep_lexemes rest hleft hrest
    rw [Step.next_item hcomma hmore]
    exact ⟨Items.ofStep_part hvalue hitems, hafter⟩

theorem Fields.ofStep_lexemes : ∀ (members : List (String × Json)) {fuel : Nat}
    {all : List Token} {after : List Lexeme},
    all.map Token.lexeme = Json.lexemesMembers members ++ after →
    2 * (Json.lexemesMembers members).length ≤ fuel →
    ReadsTo (Fields.ofStep fuel (Step.next Lexeme.isCloseObject all)).1.written
        (Json.nestMembers members) members ∧
      (Fields.ofStep fuel (Step.next Lexeme.isCloseObject all)).2.map Token.lexeme = after
  | [], fuel, all, after, h, hfuel => by
    obtain ⟨close, rest, rfl, hclose, hrest⟩ := List.map_eq_cons_iff.mp h
    obtain ⟨hfields, hleft⟩ := Fields.ofStep_close fuel close.start rest
    rw [Step.next_close (by rw [hclose]; rfl), hleft]
    exact ⟨hfields, hrest⟩
  | (name, item) :: rest, fuel, all, after, h, hfuel => by
    simp only [Json.lexemesMembers, List.cons_append, List.append_assoc] at h
    obtain ⟨comma, more, rfl, hcomma, hmore⟩ := List.map_eq_cons_iff.mp h
    obtain ⟨key, more, rfl, hkey, hmore⟩ := List.map_eq_cons_iff.mp hmore
    obtain ⟨colon, more, rfl, hcolon, hmore⟩ := List.map_eq_cons_iff.mp hmore
    simp only [Json.lexemesMembers, List.length_cons, List.length_append] at hfuel
    obtain ⟨fuel, rfl⟩ : ∃ inner, fuel = inner + 1 := ⟨fuel - 1, by omega⟩
    have hitem : 2 * item.lexemes.length ≤ fuel := by omega
    have hrest : 2 * (Json.lexemesMembers rest).length ≤ fuel := by omega
    obtain ⟨hvalue, hleft⟩ := Outline.take_lexemes item hmore hitem
    obtain ⟨hmembers, hafter⟩ := Fields.ofStep_lexemes rest hleft hrest
    obtain ⟨hpart, hpartLeft⟩ := Fields.ofStep_part hkey hcolon hvalue hmembers
    rw [Step.next_part rfl hcomma (by rw [hkey]; rfl), hpartLeft]
    exact ⟨hpart, hafter⟩

end

theorem Outline.ofText_lexes {text : String} {json : Json} (h : Lexes text.toList json.lexemes) :
    ReadsTo (Outline.ofText text).1.written json.nest json ∧ (Outline.ofText text).2 = [] := by
  have hall : (tokens 0 text.toList).map Token.lexeme = json.lexemes ++ [] := by
    rw [h 0, List.append_nil]
  have hlength : (tokens 0 text.toList).length = json.lexemes.length := by
    have := congrArg List.length (h 0)
    simpa using this
  have hfuel : 2 * json.lexemes.length ≤ 2 * (tokens 0 text.toList).length := by omega
  obtain ⟨hreads, hleft⟩ := Outline.take_lexemes json hall hfuel
  exact ⟨hreads, List.map_eq_nil_iff.mp hleft⟩

namespace Json

-- What a form reads from the outline of a text, it reads from the text, if nothing is left over.
theorem decode_of_readsTo {α : Type} {form : Nat → Outline → Except Fault α} {text : String}
    {nest : Nat} {found : α}
    (hreads : ReadsTo (fun levels => form levels (Outline.ofText text).1) nest found)
    (hleft : (Outline.ofText text).2 = []) (levels : Nat) :
    (nest ≤ levels → decode (form levels) text = .ok found) ∧
      (levels < nest → ∃ position, decode (form levels) text = .error ⟨.tooDeep, position⟩) := by
  constructor
  · intro hnest
    simp only [decode, (hreads levels).1 hnest, hleft]
    rfl
  · intro hnest
    obtain ⟨place, hplace⟩ := (hreads levels).2 hnest
    refine ⟨.ofPlace text place, ?_⟩
    simp only [decode, hplace]
    rfl

-- A text is read as the value whose lexemes it has, up to the limit for containers inside each
-- other; beyond it the first container that is too deep is reported.
theorem readWithin_of_lexes {text : String} {json : Json} (h : Lexes text.toList json.lexemes)
    (levels : Nat) :
    (json.nest ≤ levels → readWithin levels text = .ok json.canonical) ∧
      (levels < json.nest → ∃ position, readWithin levels text = .error ⟨.tooDeep, position⟩) := by
  obtain ⟨hreads, hleft⟩ := Outline.ofText_lexes h
  have hdecode := decode_of_readsTo hreads hleft levels
  constructor
  · intro hnest
    rw [readWithin, hdecode.1 hnest]
    rfl
  · intro hnest
    obtain ⟨position, hposition⟩ := hdecode.2 hnest
    refine ⟨position, ?_⟩
    rw [readWithin, hposition]
    rfl

end Json

end FeedFilter
