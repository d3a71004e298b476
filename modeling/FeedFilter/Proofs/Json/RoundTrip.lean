import FeedFilter.Proofs.Json.Spelling

namespace FeedFilter

namespace Json

mutual

-- No number in the value is a float. What is written for a float is read back with a rounding of
-- its own.
def isFloatFree : Json → Bool
  | .null => true
  | .bool _ => true
  | .num (.int _ _) => true
  | .num (.float _) => false
  | .str _ => true
  | .arr items => areFloatFree items
  | .obj members => membersFloatFree members

def areFloatFree : List Json → Bool
  | [] => true
  | item :: rest => item.isFloatFree && areFloatFree rest

def membersFloatFree : List (String × Json) → Bool
  | [] => true
  | (_, item) :: rest => item.isFloatFree && membersFloatFree rest

end

end Json

namespace Layout

-- A layout puts nothing but spacing between the lexemes.
def IsSpacing (layout : Layout) : Prop :=
  (∀ depth, ∀ c ∈ layout.gap depth, Token.isSpacing c = true) ∧
    ∀ c ∈ layout.colon, Token.isSpacing c = true

theorem isSpacing_compact : compact.IsSpacing := by
  constructor
  · intro depth c hc
    cases hc
  · intro c hc
    cases hc

theorem isSpacing_indented : indented.IsSpacing := by
  constructor
  · intro depth c hc
    rcases List.mem_cons.mp hc with rfl | hc
    · rfl
    · rw [List.eq_of_mem_replicate hc]
      rfl
  · intro c hc
    rw [List.mem_singleton.mp hc]
    rfl

mutual

-- What is laid out for a value without floats are its lexemes, each in one of its spellings.
theorem spaced_value {layout : Layout} (hlayout : layout.IsSpacing) : ∀ (json : Json) (depth : Nat)
    {rest : List Char} {after : List Lexeme}, json.isFloatFree = true → Spaced after rest →
    Spaced (json.lexemes ++ after) (layout.value depth json ++ rest)
  | .null, depth, rest, after, hfloat, h => .lexeme .null h
  | .bool true, depth, rest, after, hfloat, h => .lexeme .true h
  | .bool false, depth, rest, after, hfloat, h => .lexeme .false h
  | .num (.int value inRange), depth, rest, after, hfloat, h =>
    .lexeme (Lexeme.spelling_intChars value inRange) h
  | .str text, depth, rest, after, hfloat, h => .lexeme (Lexeme.spelling_literalChars text) h
  | .arr [], depth, rest, after, hfloat, h => by
    have hlist := Spaced.lexeme .openList (Spaced.lexeme .closeList h)
    exact hlist
  | .arr (item :: items), depth, rest, after, hfloat, h => by
    simp only [Json.isFloatFree, Json.areFloatFree, Bool.and_eq_true] at hfloat
    have hitems := spaced_items hlayout items depth hfloat.2 h
    have hitem := spaced_value hlayout item (depth + 1) hfloat.1 hitems
    simp only [Layout.value, Json.lexemes, List.cons_append, List.append_assoc]
    exact .lexeme .openList (.blank (hlayout.1 (depth + 1)) hitem)
  | .obj [], depth, rest, after, hfloat, h => by
    have hobject := Spaced.lexeme .openObject (Spaced.lexeme .closeObject h)
    exact hobject
  | .obj ((key, item) :: members), depth, rest, after, hfloat, h => by
    simp only [Json.isFloatFree, Json.membersFloatFree, Bool.and_eq_true] at hfloat
    have hmembers := spaced_members hlayout members depth hfloat.2 h
    have hitem := spaced_value hlayout item (depth + 1) hfloat.1 hmembers
    simp only [Layout.value, Json.lexemes, List.cons_append, List.append_assoc]
    exact .lexeme .openObject (.blank (hlayout.1 (depth + 1))
      (.lexeme (Lexeme.spelling_literalChars key) (.lexeme .colon (.blank hlayout.2 hitem))))

theorem spaced_items {layout : Layout} (hlayout : layout.IsSpacing) :
    ∀ (items : List Json) (depth : Nat) {rest : List Char} {after : List Lexeme},
    Json.areFloatFree items = true → Spaced after rest →
    Spaced (Json.lexemesItems items ++ after) (layout.items depth items ++ rest)
  | [], depth, rest, after, hfloat, h => by
    rw [Layout.items, List.append_assoc]
    exact .blank (hlayout.1 depth) (.lexeme .closeList h)
  | item :: items, depth, rest, after, hfloat, h => by
    simp only [Json.areFloatFree, Bool.and_eq_true] at hfloat
    have hitems := spaced_items hlayout items depth hfloat.2 h
    have hitem := spaced_value hlayout item (depth + 1) hfloat.1 hitems
    simp only [Layout.items, Json.lexemesItems, List.cons_append, List.append_assoc]
    exact .lexeme .comma (.blank (hlayout.1 (depth + 1)) hitem)

theorem spaced_members {layout : Layout} (hlayout : layout.IsSpacing) :
    ∀ (members : List (String × Json)) (depth : Nat) {rest : List Char} {after : List Lexeme},
    Json.membersFloatFree members = true → Spaced after rest →
    Spaced (Json.lexemesMembers members ++ after) (layout.members depth members ++ rest)
  | [], depth, rest, after, hfloat, h => by
    rw [Layout.members, List.append_assoc]
    exact .blank (hlayout.1 depth) (.lexeme .closeObject h)
  | (key, item) :: members, depth, rest, after, hfloat, h => by
    simp only [Json.membersFloatFree, Bool.and_eq_true] at hfloat
    have hmembers := spaced_members hlayout members depth hfloat.2 h
    have hitem := spaced_value hlayout item (depth + 1) hfloat.1 hmembers
    simp only [Layout.members, Json.lexemesMembers, List.cons_append, List.append_assoc]
    exact .lexeme .comma (.blank (hlayout.1 (depth + 1))
      (.lexeme (Lexeme.spelling_literalChars key) (.lexeme .colon (.blank hlayout.2 hitem))))

end

end Layout

namespace Json

theorem spelledBy_layout {layout : Layout} (hlayout : layout.IsSpacing) {json : Json}
    (hfloat : json.isFloatFree = true) :
    json.SpelledBy (String.ofList (layout.value 0 json)) := by
  have h := Layout.spaced_value hlayout json 0 hfloat Spaced.nil
  simpa [SpelledBy] using h

theorem lexes_layout {layout : Layout} (hlayout : layout.IsSpacing) {json : Json}
    (hfloat : json.isFloatFree = true) :
    Lexes (String.ofList (layout.value 0 json)).toList json.lexemes :=
  lexes_of_spelledBy (spelledBy_layout hlayout hfloat)

-- What is written for a value without floats is read as the value, as far as it is not nested too
-- deep.
theorem read_layout {layout : Layout} (hlayout : layout.IsSpacing) {json : Json}
    (hfloat : json.isFloatFree = true) :
    (json.nest ≤ nestingLimit → read (String.ofList (layout.value 0 json)) = .ok json.canonical) ∧
      (nestingLimit < json.nest →
        ∃ position, read (String.ofList (layout.value 0 json)) = .error ⟨.tooDeep, position⟩) :=
  read_of_spelledBy (spelledBy_layout hlayout hfloat)

theorem read_compact {json : Json} (hfloat : json.isFloatFree = true) :
    (json.nest ≤ nestingLimit → read json.compact = .ok json.canonical) ∧
      (nestingLimit < json.nest →
        ∃ position, read json.compact = .error ⟨.tooDeep, position⟩) :=
  read_layout Layout.isSpacing_compact hfloat

-- What is written is read back member by member, in the order and with the repeats of the value,
-- by a reader that allows for as many containers as the value takes.
theorem decode_layout {layout : Layout} (hlayout : layout.IsSpacing) {json : Json} {levels : Nat}
    (hfloat : json.isFloatFree = true) (hnest : json.nest ≤ levels) :
    decode (Outline.written levels) (String.ofList (layout.value 0 json)) = .ok json := by
  obtain ⟨hreads, hleft⟩ := Outline.ofText_lexes (lexes_layout hlayout hfloat)
  exact (decode_of_readsTo hreads hleft levels).1 hnest

theorem decode_compact {json : Json} (hfloat : json.isFloatFree = true)
    (hnest : json.nest ≤ nestingLimit) :
    decode (Outline.written nestingLimit) json.compact = .ok json :=
  decode_layout Layout.isSpacing_compact hfloat hnest

-- No two values have the same text, however deep they are nested.
theorem eq_of_compact_eq {json other : Json} (hjson : json.isFloatFree = true)
    (hother : other.isFloatFree = true) (h : json.compact = other.compact) : json = other := by
  have hread := decode_layout Layout.isSpacing_compact hjson (Nat.le_max_left json.nest other.nest)
  have hreadOther :=
    decode_layout Layout.isSpacing_compact hother (Nat.le_max_right json.nest other.nest)
  rw [← compact, h] at hread
  exact Except.ok.inj (hread.symm.trans hreadOther)

theorem read_indented {json : Json} (hfloat : json.isFloatFree = true) :
    (json.nest ≤ nestingLimit → read json.indented = .ok json.canonical) ∧
      (nestingLimit < json.nest →
        ∃ position, read json.indented = .error ⟨.tooDeep, position⟩) :=
  read_layout Layout.isSpacing_indented hfloat

end Json

end FeedFilter
