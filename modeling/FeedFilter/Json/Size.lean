import FeedFilter.Fallible
import FeedFilter.Json.Reader

namespace FeedFilter

open FeedFilter.Text (bytes_toList)

namespace Json

mutual

-- The least number of bytes of a text in which a value is written, save that commas in lists and
-- the letters of a keyword or numeral after the first are not counted.
def size : Json → Nat
  | .null => 1
  | .bool _ => 1
  | .num _ => 1
  | .str text => text.utf8ByteSize + 2
  | .arr items => sizeItems items + 2
  | .obj members => sizeMembers members + 1

def sizeItems : List Json → Nat
  | [] => 0
  | item :: rest => item.size + sizeItems rest

-- A member takes a key with its quotes, a colon, a value, and a comma or the closing bracket.
def sizeMembers : List (String × Json) → Nat
  | [] => 0
  | (key, value) :: rest => key.utf8ByteSize + 4 + value.size + sizeMembers rest

end

theorem size_pos (json : Json) : 0 < json.size := by
  cases json <;> simp [size]

theorem sizeMembers_put (key : String) (value : Json) (members : Members) :
    sizeMembers (Members.put key value members)
      ≤ key.utf8ByteSize + 4 + value.size + sizeMembers members := by
  induction members with
  | nil => simp [Members.put, sizeMembers]
  | cons member rest ih =>
    obtain ⟨first, found⟩ := member
    unfold Members.put
    repeat' split
    · simp [sizeMembers]
    · simp only [sizeMembers]; omega
    · simp only [sizeMembers]; omega

theorem sizeMembers_foldl_put (members known : Members) :
    sizeMembers (members.foldl (fun known member => Members.put member.1 member.2 known) known)
      ≤ sizeMembers members + sizeMembers known := by
  induction members generalizing known with
  | nil => simp [sizeMembers]
  | cons member rest ih =>
    have := ih (Members.put member.1 member.2 known)
    have := sizeMembers_put member.1 member.2 known
    simp only [List.foldl_cons, sizeMembers]
    omega

theorem sizeMembers_ordered (members : Members) :
    sizeMembers members.ordered ≤ sizeMembers members := by
  simpa [Members.ordered, sizeMembers] using sizeMembers_foldl_put members []

mutual

theorem size_canonical : ∀ json : Json, json.canonical.size ≤ json.size
  | .null | .bool _ | .num _ | .str _ => by simp [canonical, size]
  | .arr items => by
    have := sizeItems_canonical items
    simp only [canonical, size]
    omega
  | .obj members => by
    have := sizeMembers_canonical members
    have := sizeMembers_ordered (canonicalMembers members)
    simp only [canonical, size]
    omega

theorem sizeItems_canonical : ∀ items : List Json,
    sizeItems (canonicalItems items) ≤ sizeItems items
  | [] => by simp [canonicalItems]
  | item :: rest => by
    have := size_canonical item
    have := sizeItems_canonical rest
    simp only [canonicalItems, sizeItems]
    omega

theorem sizeMembers_canonical : ∀ members : List (String × Json),
    sizeMembers (canonicalMembers members) ≤ sizeMembers members
  | [] => by simp [canonicalMembers]
  | (key, value) :: rest => by
    have := size_canonical value
    have := sizeMembers_canonical rest
    simp only [canonicalMembers, sizeMembers]
    omega

end

end Json

namespace Token

theorem size_value {token : Token} {json : Json} (h : token.value = .ok json) :
    json.size ≤ token.weight := by
  unfold value at h
  split at h
  case h_4 reading hlexeme =>
    obtain ⟨text, hneeded, rfl⟩ := Except.map_eq_ok h
    obtain ⟨needed, skipped⟩ := reading
    cases hneeded
    simp [weight, hlexeme, Json.size]
  case h_3 reading hlexeme =>
    obtain ⟨number, hneeded, rfl⟩ := Except.map_eq_ok h
    exact weight_pos token
  all_goals cases h
  all_goals exact weight_pos token

theorem weight_of_name {token : Token} {name : String} (h : token.name = .ok name) :
    token.weight = name.utf8ByteSize + 2 := by
  unfold Token.name at h
  split at h
  · next reading hlexeme =>
    obtain ⟨needed, skipped⟩ := reading
    cases h
    simp [weight, hlexeme]
  · cases h

theorem weights_afterColon {all rest : List Token} (h : afterColon all = .ok rest) :
    weights rest + 1 ≤ weights all := by
  cases all with
  | nil => cases h
  | cons token after =>
    have := token.weight_pos
    simp only [afterColon] at h
    split at h
    · cases h
      rw [weights_cons]
      omega
    · cases h

end Token

namespace Step

open Token (weights weights_cons)

-- The tokens that a step leaves to be read.
def left : Step → List Token
  | .close _ rest => rest
  | .part rest => rest
  | .stuck _ => []

theorem weights_left_first (closes : Lexeme → Bool) (all : List Token) :
    weights (first closes all).left ≤ weights all := by
  unfold first
  split
  · exact Nat.zero_le _
  · next token rest =>
    rw [weights_cons]
    split
    · exact Nat.le_add_left _ _
    · exact Nat.le_of_eq (weights_cons token rest)

theorem weights_first_close {closes : Lexeme → Bool} {all rest : List Token} {place : Nat}
    (h : first closes all = .close place rest) : weights rest + 1 ≤ weights all := by
  cases all with
  | nil => cases h
  | cons token after =>
    have := token.weight_pos
    simp only [first] at h
    split at h <;> cases h
    rw [weights_cons]
    omega

-- A step goes past a comma or a closing bracket, unless it leads nowhere.
theorem weights_left_next {closes : Lexeme → Bool} {all : List Token}
    (h : ∀ gap, next closes all ≠ .stuck gap) :
    weights (next closes all).left + 1 ≤ weights all := by
  cases all with
  | nil => exact absurd rfl (h .missing)
  | cons token rest =>
    have hpos := token.weight_pos
    rw [weights_cons]
    simp only [next] at h ⊢
    split
    · simp only [left]; omega
    · next hopen =>
      simp only [hopen] at h
      split
      · next hcomma =>
        simp only [hcomma, afterComma] at h ⊢
        cases rest with
        | nil => simp only [left]; omega
        | cons follower after =>
          cases hclose : closes follower.lexeme with
          | true => simp [hclose] at h
          | false => simp only [hclose, left, Bool.false_eq_true, if_false]; omega
      · simp at h

end Step

section Weights

open Token (weights weights_cons weight_pos)

-- What is read of a value, and the tokens left, weigh no more than the tokens there were. A list
-- and an object are followed from a part on. In a list each item, and in an object each member, is
-- followed by one token of its own.
def Outline.Weighs (fuel : Nat) : Prop :=
  ∀ {all : List Token} {levels : Nat} {json : Json},
    (Outline.take fuel all).1.written levels = .ok json →
    json.size + weights (Outline.take fuel all).2 ≤ weights all

def Items.Weighs (fuel : Nat) : Prop :=
  ∀ {all : List Token} {levels : Nat} {items : List Json},
    (Items.ofStep fuel (.part all)).1.written levels = .ok items →
    Json.sizeItems items + items.length + weights (Items.ofStep fuel (.part all)).2 ≤ weights all

def Fields.Weighs (fuel : Nat) : Prop :=
  ∀ {all : List Token} {levels : Nat} {members : Members},
    (Fields.ofStep fuel (.part all)).1.written levels = .ok members →
    Json.sizeMembers members + weights (Fields.ofStep fuel (.part all)).2 ≤ weights all

variable {fuel levels : Nat} {step : Step} {all : List Token}

theorem Items.length_pos_of_part {items : List Json}
    (h : (ofStep fuel (.part all)).1.written levels = .ok items) : 0 < items.length := by
  cases fuel with
  | zero => cases h
  | succ fuel =>
    rw [ofStep] at h
    obtain ⟨value, _, h⟩ := Except.bind_eq_ok h
    obtain ⟨more, _, h⟩ := Except.bind_eq_ok h
    cases h
    exact Nat.succ_pos _

theorem Items.ne_stuck {items : List Json}
    (h : (ofStep fuel step).1.written levels = .ok items) : ∀ gap, step ≠ .stuck gap := by
  rintro gap rfl
  rw [ofStep] at h
  cases h

theorem Fields.ne_stuck {members : Members}
    (h : (ofStep fuel step).1.written levels = .ok members) : ∀ gap, step ≠ .stuck gap := by
  rintro gap rfl
  rw [ofStep] at h
  cases h

theorem Items.weights_ofStep {items : List Json} (hparts : Weighs fuel)
    (h : (ofStep fuel step).1.written levels = .ok items) :
    Json.sizeItems items + items.length + weights (ofStep fuel step).2 ≤ weights step.left := by
  cases step with
  | close place rest =>
    rw [ofStep] at h ⊢
    cases h
    simp [Json.sizeItems, Step.left]
  | part all => exact hparts h
  | stuck gap => exact absurd rfl (ne_stuck h gap)

theorem Fields.weights_ofStep {members : Members} (hparts : Weighs fuel)
    (h : (ofStep fuel step).1.written levels = .ok members) :
    Json.sizeMembers members + weights (ofStep fuel step).2 ≤ weights step.left := by
  cases step with
  | close place rest =>
    rw [ofStep] at h ⊢
    cases h
    simp [Json.sizeMembers, Step.left]
  | part all => exact hparts h
  | stuck gap => exact absurd rfl (ne_stuck h gap)

-- The closing bracket is a token of its own, also where no item stands before it.
theorem Items.weights_first {items : List Json} (hparts : Weighs fuel)
    (h : (ofStep fuel (Step.first Lexeme.isCloseList all)).1.written levels = .ok items) :
    Json.sizeItems items + 1 + weights (ofStep fuel (Step.first Lexeme.isCloseList all)).2
      ≤ weights all := by
  cases hfirst : Step.first Lexeme.isCloseList all with
  | close place rest =>
    have hclose := Step.weights_first_close hfirst
    rw [hfirst, ofStep] at h
    cases h
    simp only [ofStep, Json.sizeItems]
    omega
  | part rest =>
    have hleft := Step.weights_left_first Lexeme.isCloseList all
    rw [hfirst] at h hleft
    have hlength := length_pos_of_part h
    have hweighs := hparts h
    rw [Step.left] at hleft
    omega
  | stuck gap => exact absurd hfirst (ne_stuck h gap)

theorem Outline.weighs_succ (hitems : Items.Weighs fuel) (hfields : Fields.Weighs fuel) :
    Weighs (fuel + 1) := by
  intro all levels json h
  cases all with
  | nil => cases h
  | cons token rest =>
    have hpos := weight_pos token
    rw [weights_cons]
    simp only [take] at h ⊢
    split at h
    · cases levels with
      | zero => cases h
      | succ inner =>
        obtain ⟨items, hwritten, rfl⟩ := Except.map_eq_ok h
        have hfirst := Items.weights_first hitems hwritten
        simp only [Json.size]
        omega
    · cases levels with
      | zero => cases h
      | succ inner =>
        obtain ⟨members, hwritten, rfl⟩ := Except.map_eq_ok h
        have hfirst := Fields.weights_ofStep hfields hwritten
        have hleft := Step.weights_left_first Lexeme.isCloseObject rest
        simp only [Json.size]
        omega
    · exact Nat.add_le_add_right (Token.size_value h) _

theorem Items.weighs_succ (hvalue : Outline.Weighs fuel) (hitems : Items.Weighs fuel) :
    Weighs (fuel + 1) := by
  intro all levels items h
  simp only [ofStep] at h ⊢
  obtain ⟨value, hitem, h⟩ := Except.bind_eq_ok h
  obtain ⟨more, hmore, h⟩ := Except.bind_eq_ok h
  cases h
  have hfirst := hvalue hitem
  have hrest := weights_ofStep hitems hmore
  have hnext := Step.weights_left_next (ne_stuck hmore)
  rw [Json.sizeItems, List.length_cons]
  omega

theorem Fields.weighs_succ (hvalue : Outline.Weighs fuel) (hfields : Fields.Weighs fuel) :
    Weighs (fuel + 1) := by
  intro all levels members h
  cases all with
  | nil => cases h
  | cons key after =>
    rw [ofStep] at h ⊢
    split at h
    · obtain ⟨name, hname, h⟩ := Except.bind_eq_ok h
      obtain ⟨value, hmember, h⟩ := Except.bind_eq_ok h
      obtain ⟨more, hmore, h⟩ := Except.bind_eq_ok h
      cases h
      cases hcolon : Token.afterColon after with
      | error fault =>
        rw [hcolon] at hmember
        cases hmember
      | ok rest =>
        simp only [hcolon] at hmember hmore ⊢
        have hkey := Token.weight_of_name hname
        have hpassed := Token.weights_afterColon hcolon
        have hfirst := hvalue hmember
        have hrest := weights_ofStep hfields hmore
        have hnext := Step.weights_left_next (ne_stuck hmore)
        rw [Json.sizeMembers, weights_cons]
        omega
    · cases h

theorem weighs (fuel : Nat) :
    Outline.Weighs fuel ∧ Items.Weighs fuel ∧ Fields.Weighs fuel := by
  induction fuel with
  | zero =>
    refine ⟨?_, ?_, ?_⟩
    · intro all levels json h
      cases all <;> cases h
    · intro all levels items h
      cases h
    · intro all levels members h
      cases h
  | succ fuel ih =>
    obtain ⟨houtline, hitems, hfields⟩ := ih
    exact ⟨Outline.weighs_succ hitems hfields, Items.weighs_succ houtline hitems,
      Fields.weighs_succ houtline hfields⟩

end Weights

namespace Json

theorem written_of_decode {α : Type} {form : Outline → Except Fault α} {text : String} {value : α}
    (h : decode form text = .ok value) : form (Outline.ofText text).1 = .ok value := by
  obtain ⟨found, hform, hrest⟩ := Except.bind_eq_ok (Except.mapError_eq_ok h)
  rw [hform]
  unfold Token.refuseMore at hrest
  split at hrest
  · cases hrest
    rfl
  · cases hrest

theorem size_le_of_readWithin {levels : Nat} {text : String} {value : Json}
    (h : readWithin levels text = .ok value) : value.size ≤ text.utf8ByteSize := by
  obtain ⟨json, hdecode, rfl⟩ := Except.map_eq_ok h
  have hwritten := written_of_decode hdecode
  have := (weighs _).1 hwritten
  have := Token.weights_tokens 0 text.toList
  have := size_canonical json
  rw [bytes_toList] at *
  omega

-- A value is no larger than the text that it is read from.
theorem size_le_of_read {text : String} {value : Json} (h : read text = .ok value) :
    value.size ≤ text.utf8ByteSize :=
  size_le_of_readWithin h

end Json

end FeedFilter
