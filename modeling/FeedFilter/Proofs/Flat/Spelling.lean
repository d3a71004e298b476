import FeedFilter.Proofs.Flat.Equality

namespace FeedFilter.Flat

-- The members of a query in any order. A field may be written more than once, and then it is the
-- last time that counts.
structure WrittenAs (flat : Flat) (members : Members) : Prop where
  names : ∀ member ∈ members, member.1 ∈ fieldNames
  last : ∀ field ∈ flat.fields, members.reverse.lookup field.1 = some field.2

variable {accepts : String → Bool} {flat : Flat} {members : Members} {text : String}

-- Members that are hidden by later ones take no room, for the names are counted when each is there
-- only once.
theorem fits_of_writtenAs (h : flat.WrittenAs members) :
    Fits (Members.ordered (Json.canonicalMembers members)) flat := by
  have hlookup : ∀ {name : String} {value : Json}, (name, value) ∈ flat.fields →
      value.canonical = value →
      (Members.ordered (Json.canonicalMembers members)).lookup name = some value := by
    intro name value hfield hvalue
    rw [Members.lookup_canonical, h.last (name, value) hfield, Option.map_some, hvalue]
  have hsubset : (members.map Prod.fst).dedup ⊆ fieldNames := by
    intro name hname
    obtain ⟨member, hmember, rfl⟩ := List.mem_map.mp (List.mem_dedup.mp hname)
    exact h.names member hmember
  have hbound := (List.subperm_of_subset (List.nodup_dedup _) hsubset).length_le
  rw [← Json.length_ordered_canonicalMembers] at hbound
  exact ⟨hbound, hlookup (by simp [fields]) rfl,
    hlookup (by simp [fields]) (canonical_ofNullable flat.type), hlookup (by simp [fields]) rfl⟩

theorem check_of_spelledBy (hwritten : flat.WrittenAs members)
    (hspelled : (Json.obj members).SpelledBy text)
    (hnest : (Json.obj members).nest ≤ Json.nestingLimit) :
    check accepts (.str text) = verdict accepts flat := by
  have hread := (Json.read_of_spelledBy hspelled).1 hnest
  rw [check_of_record (Query.record_text hread), ofRecord_of_fits (fits_of_writtenAs hwritten)]

theorem equate_of_check {left right : Json} (hleft : check accepts left = .ok flat)
    (hright : check accepts right = .ok flat) : equate accepts left right = (true, []) := by
  simp [equate, (results_of_check hleft).1, (results_of_check hright).1]

-- The canonical text of a query does not depend on how the query was written: in which order, with
-- which spacing and escapes, and with which values that later ones replace.
theorem stringify_of_spelledBy (hparts : flat.IsConsistent) (hfeed : accepts flat.author = true)
    (hwritten : flat.WrittenAs members) (hspelled : (Json.obj members).SpelledBy text)
    (hnest : (Json.obj members).nest ≤ Json.nestingLimit) :
    stringify accepts (.str text) = .ok flat.text ∧
      parse accepts (.str text) = (some flat, []) ∧
      equate accepts (.str text) flat.toValue = (true, []) := by
  have hverdict : verdict accepts flat = .ok flat :=
    verdict_eq_ok_iff.mpr ⟨hparts, hfeed, rfl⟩
  have htext : check accepts (.str text) = .ok flat :=
    (check_of_spelledBy hwritten hspelled hnest).trans hverdict
  have hvalue : check accepts flat.toValue = .ok flat :=
    (check_toValue accepts flat).trans hverdict
  obtain ⟨hparse, hstringify, _⟩ := results_of_check htext
  exact ⟨hstringify, hparse, equate_of_check htext hvalue⟩

-- Members of which the third takes the place of the second, and a text for them with a line break,
-- a tab, blanks and an escape.
def replacing : Members :=
  [("type", .null), ("author", .arr [.null]), ("author", .str "@a"), ("private", .bool true)]

def replacingText : String :=
  "\n" ++ r#"{"type" : null,"author":[null],"# ++ "\t" ++ r#""author":"\u0040a","private":true} "#

theorem stringify_replacingText :
    (Json.obj replacing).SpelledBy replacingText ∧
      stringify (fun _ => true) (.str replacingText) = .ok (encrypted "@a").text := by
  have hblank : ' ' ∈ [' ', '\t', '\n', '\r'] := by decide
  have htab : '\t' ∈ [' ', '\t', '\n', '\r'] := by decide
  have hbreak : '\n' ∈ [' ', '\t', '\n', '\r'] := by decide
  have hunit : Literal.unit? '0' '0' '4' '0' = some '@'.toNat := rfl
  have hid : Literal.Spelling ['@', 'a'] _ :=
    .unit hunit rfl rfl (.plain (by decide) (by decide) (by decide) .nil)
  have hname := Lexeme.spelling_literalChars "author"
  -- From the last member to the first.
  have hprivate := Spaced.lexeme (Lexeme.spelling_literalChars "private") (.lexeme .colon
    (.lexeme .true (.lexeme .closeObject (.space hblank .nil))))
  have hauthor := Spaced.lexeme hname (.lexeme .colon (.lexeme (.text hid) (.lexeme .comma hprivate)))
  have hreplaced := Spaced.lexeme hname (.lexeme .colon (.lexeme .openList (.lexeme .null
    (.lexeme .closeList (.lexeme .comma (.space htab hauthor))))))
  have htype := Spaced.lexeme (Lexeme.spelling_literalChars "type") (.space hblank (.lexeme .colon
    (.space hblank (.lexeme .null (.lexeme .comma hreplaced)))))
  have htext := Spaced.space hbreak (.lexeme .openObject htype)
  have hspelled : (Json.obj replacing).SpelledBy replacingText := htext
  have hwritten : (encrypted "@a").WrittenAs replacing := by
    constructor
    · decide
    · simp [fields, encrypted, Operator.ofNullable, replacing, Members.lookup_cons]
  exact ⟨hspelled,
    (stringify_of_spelledBy (fun _ => rfl) rfl hwritten hspelled (by decide)).1⟩

end FeedFilter.Flat
