import FeedFilter.Proofs.Json.Form
import FeedFilter.Proofs.Json.Scanning

namespace FeedFilter

open Lexeme (isCloseList isCloseObject)

namespace Json

mutual

-- All lexemes of a value stand for something.
theorem isClear_lexemes : ∀ json : Json, json.lexemes.all Lexeme.isClear = true
  | .null | .bool _ | .num _ | .str _ | .arr [] | .obj [] => rfl
  | .arr (item :: items) => by
    simp only [lexemes, List.all_cons, List.all_append, isClear_lexemes item,
      isClear_lexemesItems items]
    rfl
  | .obj ((key, item) :: members) => by
    simp only [lexemes, List.all_cons, List.all_append, isClear_lexemes item,
      isClear_lexemesMembers members]
    rfl

theorem isClear_lexemesItems : ∀ items : List Json,
    (lexemesItems items).all Lexeme.isClear = true
  | [] => rfl
  | item :: items => by
    simp only [lexemesItems, List.all_cons, List.all_append, isClear_lexemes item,
      isClear_lexemesItems items]
    rfl

theorem isClear_lexemesMembers : ∀ members : Members,
    (lexemesMembers members).all Lexeme.isClear = true
  | [] => rfl
  | (key, item) :: members => by
    simp only [lexemesMembers, List.all_cons, List.all_append, isClear_lexemes item,
      isClear_lexemesMembers members]
    rfl

end

end Json

-- The first tokens of some have these lexemes, and the others are left.
def Taken (all left : List Token) (lexemes : List Lexeme) : Prop :=
  ∃ taken, all = taken ++ left ∧ taken.map Token.lexeme = lexemes

namespace Taken

variable {all middle left : List Token} {lexemes others : List Lexeme}

theorem nil : Taken all all [] := ⟨[], rfl, rfl⟩

theorem cons {token : Token} {lexeme : Lexeme} (htoken : token.lexeme = lexeme)
    (h : Taken all left lexemes) : Taken (token :: all) left (lexeme :: lexemes) := by
  obtain ⟨taken, rfl, rfl⟩ := h
  exact ⟨token :: taken, rfl, by rw [List.map_cons, htoken]⟩

theorem append (hfirst : Taken all middle lexemes) (hsecond : Taken middle left others) :
    Taken all left (lexemes ++ others) := by
  obtain ⟨taken, rfl, rfl⟩ := hfirst
  obtain ⟨more, rfl, rfl⟩ := hsecond
  exact ⟨taken ++ more, by rw [List.append_assoc], by rw [List.map_append]⟩

end Taken

-- A lexeme that was found in a text: if it stands for something, it was written there.
def Lexeme.IsFound (lexeme : Lexeme) : Prop :=
  lexeme.isClear = true → ∃ written, lexeme.Spelling written

def Token.AreFound (all : List Token) : Prop :=
  ∀ token ∈ all, token.lexeme.IsFound

theorem Token.AreFound.tail {token : Token} {all : List Token} (h : Token.AreFound (token :: all)) :
    Token.AreFound all :=
  fun other hother => h other (List.mem_cons_of_mem token hother)

theorem Taken.areFound {all left : List Token} {lexemes : List Lexeme} (h : Taken all left lexemes)
    (hall : Token.AreFound all) : Token.AreFound left := by
  obtain ⟨taken, rfl, -⟩ := h
  exact fun token htoken => hall token (List.mem_append_right taken htoken)

-- What a lexeme says that was found in a text, it says to every reader.
theorem Lexeme.eq_ofText {reading : Reading String} {text : String}
    (h : (Lexeme.string reading).IsFound) (hneeded : reading.needed = .ok text) :
    Lexeme.string reading = .ofText text := by
  have hclear : (Lexeme.string reading).isClear = true := by
    rw [Lexeme.isClear, hneeded]
    rfl
  obtain ⟨written, hwritten⟩ := h hclear
  cases hwritten with
  | text => cases hneeded; rfl

theorem Lexeme.eq_ofNumber {reading : Reading Number} {number : Number}
    (h : (Lexeme.number reading).IsFound) (hneeded : reading.needed = .ok number) :
    Lexeme.number reading = .ofNumber number := by
  have hclear : (Lexeme.number reading).isClear = true := by
    rw [Lexeme.isClear, hneeded]
    rfl
  obtain ⟨written, hwritten⟩ := h hclear
  cases hwritten with
  | number => cases hneeded; rfl

theorem Token.lexemes_value {token : Token} {json : Json} (h : token.value = .ok json)
    (hfound : token.lexeme.IsFound) : json.lexemes = [token.lexeme] := by
  rcases Token.value_eq_ok h with ⟨hlexeme, rfl⟩ | ⟨flag, hlexeme, rfl⟩ |
    ⟨reading, number, hlexeme, rfl⟩ | ⟨reading, text, hlexeme, hneeded, rfl⟩
  · rw [hlexeme, Json.lexemes]
  · rw [hlexeme, Json.lexemes]
  · rw [Token.value, hlexeme] at h
    obtain ⟨found, hneeded, hnumber⟩ := Except.map_eq_ok h
    cases hnumber
    rw [hlexeme] at hfound ⊢
    rw [Json.lexemes, Lexeme.eq_ofNumber hfound hneeded]
  · rw [hlexeme] at hfound ⊢
    rw [Json.lexemes, Lexeme.eq_ofText hfound hneeded]

theorem Token.lexeme_of_name {token : Token} {name : String} (h : token.name = .ok name)
    (hfound : token.lexeme.IsFound) : token.lexeme = .ofText name := by
  unfold Token.name at h
  split at h
  · next reading hlexeme =>
    rw [hlexeme] at hfound ⊢
    exact Lexeme.eq_ofText hfound h
  · cases h

namespace Step

variable (closes : Lexeme → Bool) (all : List Token)

theorem first_cases :
    (∃ token rest, all = token :: rest ∧ closes token.lexeme = true ∧
      first closes all = .close token.start rest) ∨
    first closes all = .part all ∨ ∃ gap, first closes all = .stuck gap := by
  cases all with
  | nil => exact .inr (.inr ⟨_, rfl⟩)
  | cons token rest =>
    cases hcloses : closes token.lexeme with
    | true => exact .inl ⟨token, rest, rfl, hcloses, first_close hcloses⟩
    | false => exact .inr (.inl (first_part hcloses))

theorem next_cases :
    (∃ token rest, all = token :: rest ∧ closes token.lexeme = true ∧
      next closes all = .close token.start rest) ∨
    (∃ comma rest, all = comma :: rest ∧ comma.lexeme = .comma ∧ next closes all = .part rest) ∨
    ∃ gap, next closes all = .stuck gap := by
  cases all with
  | nil => exact .inr (.inr ⟨_, rfl⟩)
  | cons token rest =>
    cases hcloses : closes token.lexeme with
    | true => exact .inl ⟨token, rest, rfl, hcloses, next_close hcloses⟩
    | false =>
      simp only [next, hcloses, Bool.false_eq_true, if_false]
      split
      · next hcomma =>
        unfold afterComma
        split
        · exact .inr (.inl ⟨token, [], rfl, hcomma, rfl⟩)
        · next follower after =>
          split
          · exact .inr (.inr ⟨_, rfl⟩)
          · exact .inr (.inl ⟨token, _, rfl, hcomma, rfl⟩)
      · exact .inr (.inr ⟨_, rfl⟩)

end Step

theorem Lexeme.eq_closeList {lexeme : Lexeme} (h : lexeme.isCloseList = true) :
    lexeme = .closeList := by
  cases lexeme with
  | closeList => rfl
  | _ => cases h

theorem Lexeme.eq_closeObject {lexeme : Lexeme} (h : lexeme.isCloseObject = true) :
    lexeme = .closeObject := by
  cases lexeme with
  | closeObject => rfl
  | _ => cases h

-- From the tokens of a text on, what is followed and can be read takes exactly the lexemes of the
-- value that is read. A list and an object are followed from a part on.
def Outline.TakesLexemes (fuel : Nat) : Prop :=
  ∀ {all : List Token} {levels : Nat} {json : Json}, Token.AreFound all →
    (Outline.take fuel all).1.written levels = .ok json →
    Taken all (Outline.take fuel all).2 json.lexemes

def Items.TakesLexemes (fuel : Nat) : Prop :=
  ∀ {all : List Token} {levels : Nat} {items : List Json}, Token.AreFound all →
    (Items.ofStep fuel (.part all)).1.written levels = .ok items →
    ∃ item rest, items = item :: rest ∧
      Taken all (Items.ofStep fuel (.part all)).2 (item.lexemes ++ Json.lexemesItems rest)

def Fields.TakesLexemes (fuel : Nat) : Prop :=
  ∀ {all : List Token} {levels : Nat} {members : Members}, Token.AreFound all →
    (Fields.ofStep fuel (.part all)).1.written levels = .ok members →
    ∃ key item rest, members = (key, item) :: rest ∧
      Taken all (Fields.ofStep fuel (.part all)).2
        (.ofText key :: .colon :: (item.lexemes ++ Json.lexemesMembers rest))

theorem Token.eq_cons_of_afterColon {all rest : List Token} (h : afterColon all = .ok rest) :
    ∃ colon, all = colon :: rest ∧ colon.lexeme = .colon := by
  cases all with
  | nil => cases h
  | cons colon after =>
    simp only [afterColon] at h
    split at h
    · next hcolon =>
      cases h
      exact ⟨colon, rfl, hcolon⟩
    · cases h

section Parts

variable {fuel levels : Nat} {all : List Token} {token : Token}

theorem Items.taken_first {items : List Json} (hparts : TakesLexemes fuel)
    (hall : Token.AreFound all) (hopen : token.lexeme = .openList)
    (h : (ofStep fuel (Step.first isCloseList all)).1.written levels = .ok items) :
    Taken (token :: all) (ofStep fuel (Step.first isCloseList all)).2 (Json.arr items).lexemes := by
  obtain ⟨close, rest, rfl, hclose, hstep⟩ | hstep | ⟨gap, hstep⟩ :=
    Step.first_cases isCloseList all
  · rw [hstep, ofStep] at h ⊢
    cases h
    exact (Taken.nil.cons (Lexeme.eq_closeList hclose)).cons hopen
  · rw [hstep] at h ⊢
    obtain ⟨item, others, rfl, htaken⟩ := hparts hall h
    exact htaken.cons hopen
  · rw [hstep, ofStep] at h
    cases h

theorem Items.taken_next {items : List Json} (hparts : TakesLexemes fuel)
    (hall : Token.AreFound all)
    (h : (ofStep fuel (Step.next isCloseList all)).1.written levels = .ok items) :
    Taken all (ofStep fuel (Step.next isCloseList all)).2 (Json.lexemesItems items) := by
  obtain ⟨close, rest, rfl, hclose, hstep⟩ | ⟨comma, rest, rfl, hcomma, hstep⟩ | ⟨gap, hstep⟩ :=
    Step.next_cases isCloseList all
  · rw [hstep, ofStep] at h ⊢
    cases h
    exact Taken.nil.cons (Lexeme.eq_closeList hclose)
  · rw [hstep] at h ⊢
    obtain ⟨item, others, rfl, htaken⟩ := hparts hall.tail h
    exact htaken.cons hcomma
  · rw [hstep, ofStep] at h
    cases h

theorem Fields.taken_first {members : Members} (hparts : TakesLexemes fuel)
    (hall : Token.AreFound all) (hopen : token.lexeme = .openObject)
    (h : (ofStep fuel (Step.first isCloseObject all)).1.written levels = .ok members) :
    Taken (token :: all) (ofStep fuel (Step.first isCloseObject all)).2
      (Json.obj members).lexemes := by
  obtain ⟨close, rest, rfl, hclose, hstep⟩ | hstep | ⟨gap, hstep⟩ :=
    Step.first_cases isCloseObject all
  · rw [hstep, ofStep] at h ⊢
    cases h
    exact (Taken.nil.cons (Lexeme.eq_closeObject hclose)).cons hopen
  · rw [hstep] at h ⊢
    obtain ⟨key, item, others, rfl, htaken⟩ := hparts hall h
    exact htaken.cons hopen
  · rw [hstep, ofStep] at h
    cases h

theorem Fields.taken_next {members : Members} (hparts : TakesLexemes fuel)
    (hall : Token.AreFound all)
    (h : (ofStep fuel (Step.next isCloseObject all)).1.written levels = .ok members) :
    Taken all (ofStep fuel (Step.next isCloseObject all)).2 (Json.lexemesMembers members) := by
  obtain ⟨close, rest, rfl, hclose, hstep⟩ | ⟨comma, rest, rfl, hcomma, hstep⟩ | ⟨gap, hstep⟩ :=
    Step.next_cases isCloseObject all
  · rw [hstep, ofStep] at h ⊢
    cases h
    exact Taken.nil.cons (Lexeme.eq_closeObject hclose)
  · rw [hstep] at h ⊢
    obtain ⟨key, item, others, rfl, htaken⟩ := hparts hall.tail h
    exact htaken.cons hcomma
  · rw [hstep, ofStep] at h
    cases h

theorem Outline.takesLexemes_succ (hitems : Items.TakesLexemes fuel)
    (hfields : Fields.TakesLexemes fuel) : TakesLexemes (fuel + 1) := by
  intro all levels json hall h
  cases all with
  | nil => cases h
  | cons token rest =>
    have hfound := hall token List.mem_cons_self
    rw [take] at h ⊢
    split at h
    · next hopen =>
      cases levels with
      | zero => cases h
      | succ inner =>
        obtain ⟨items, hwritten, rfl⟩ := Except.map_eq_ok h
        exact Items.taken_first hitems hall.tail hopen hwritten
    · next hopen =>
      cases levels with
      | zero => cases h
      | succ inner =>
        obtain ⟨members, hwritten, rfl⟩ := Except.map_eq_ok h
        exact Fields.taken_first hfields hall.tail hopen hwritten
    · rw [Token.lexemes_value h hfound]
      exact Taken.nil.cons rfl

theorem Items.takesLexemes_succ (hvalue : Outline.TakesLexemes fuel)
    (hitems : Items.TakesLexemes fuel) : TakesLexemes (fuel + 1) := by
  intro all levels items hall h
  rw [ofStep] at h ⊢
  obtain ⟨item, hitem, h⟩ := Except.bind_eq_ok h
  obtain ⟨rest, hrest, h⟩ := Except.bind_eq_ok h
  cases h
  have htaken := hvalue hall hitem
  exact ⟨item, rest, rfl, htaken.append (taken_next hitems (htaken.areFound hall) hrest)⟩

theorem Fields.takesLexemes_succ (hvalue : Outline.TakesLexemes fuel)
    (hfields : Fields.TakesLexemes fuel) : TakesLexemes (fuel + 1) := by
  intro all levels members hall h
  cases all with
  | nil => cases h
  | cons key after =>
    have hfound := hall key List.mem_cons_self
    rw [ofStep] at h ⊢
    split at h
    · obtain ⟨name, hname, h⟩ := Except.bind_eq_ok h
      obtain ⟨item, hitem, h⟩ := Except.bind_eq_ok h
      obtain ⟨rest, hrest, h⟩ := Except.bind_eq_ok h
      cases h
      cases hcolon : Token.afterColon after with
      | error fault => simp [hcolon, Outline.written] at hitem
      | ok left =>
        simp only [hcolon] at hitem hrest ⊢
        obtain ⟨colon, rfl, hlexeme⟩ := Token.eq_cons_of_afterColon hcolon
        have htaken := hvalue hall.tail.tail hitem
        have hmembers := taken_next hfields (htaken.areFound hall.tail.tail) hrest
        exact ⟨name, item, rest, rfl, ((htaken.append hmembers).cons hlexeme).cons
          (Token.lexeme_of_name hname hfound)⟩
    · cases h

end Parts

theorem takesLexemes (fuel : Nat) :
    Outline.TakesLexemes fuel ∧ Items.TakesLexemes fuel ∧ Fields.TakesLexemes fuel := by
  induction fuel with
  | zero =>
    refine ⟨?_, ?_, ?_⟩
    · intro all levels json hall h
      cases all <;> cases h
    · intro all levels items hall h
      cases h
    · intro all levels members hall h
      cases h
  | succ fuel ih =>
    obtain ⟨hvalue, hitems, hfields⟩ := ih
    exact ⟨Outline.takesLexemes_succ hitems hfields, Items.takesLexemes_succ hvalue hitems,
      Fields.takesLexemes_succ hvalue hfields⟩

namespace Json

-- A text is read as a value just if it is a text for the value and no container in it is too deep.
theorem decode_written_eq_ok_iff {text : String} {json : Json} {levels : Nat} :
    decode (Outline.written levels) text = .ok json ↔
      json.SpelledBy text ∧ json.nest ≤ levels := by
  constructor
  · intro h
    have hwritten := written_of_decode h
    have hall : Token.AreFound (tokens 0 text.toList) := fun token htoken =>
      exists_spelling_of_mem_tokens htoken
    obtain ⟨taken, htokens, hlexemes⟩ := (takesLexemes _).1 hall hwritten
    have hleft : (Outline.ofText text).2 = [] := left_of_decode h
    rw [Outline.ofText] at hleft
    rw [hleft, List.append_nil] at htokens
    rw [← htokens] at hlexemes
    have hclear : ∀ token ∈ tokens 0 text.toList, token.lexeme.isClear = true := by
      intro token htoken
      have hmem : token.lexeme ∈ (tokens 0 text.toList).map Token.lexeme :=
        List.mem_map_of_mem htoken
      rw [hlexemes] at hmem
      exact List.all_eq_true.mp json.isClear_lexemes _ hmem
    have hspaced := spaced_tokens 0 text.toList hclear
    rw [hlexemes] at hspaced
    exact ⟨hspaced, Outline.nest_written _ hwritten⟩
  · rintro ⟨hspelled, hnest⟩
    obtain ⟨hreads, hleft⟩ := Outline.ofText_lexes (lexes_of_spelledBy hspelled)
    exact (decode_of_readsTo hreads hleft levels).1 hnest

theorem read_eq_ok_iff {text : String} {value : Json} :
    read text = .ok value ↔
      ∃ json : Json, json.SpelledBy text ∧ json.nest ≤ nestingLimit ∧ value = json.canonical := by
  constructor
  · intro h
    obtain ⟨json, hdecode, rfl⟩ := Except.map_eq_ok h
    obtain ⟨hspelled, hnest⟩ := decode_written_eq_ok_iff.mp hdecode
    exact ⟨json, hspelled, hnest, rfl⟩
  · rintro ⟨json, hspelled, hnest, rfl⟩
    exact (read_of_spelledBy hspelled).1 hnest

end Json

end FeedFilter
