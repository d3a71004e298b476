import FeedFilter.Proofs.Flat.Check
import FeedFilter.Proofs.Json.RoundTrip

namespace FeedFilter.Flat

theorem toList_text (flat : Flat) (depth : Nat) :
    flat.text.toList =
      r#"{"author":"#.toList ++ literalChars flat.author ++
        r#","type":"#.toList ++ Layout.compact.value depth (Operator.ofNullable flat.type) ++
        r#","private":"#.toList ++ Layout.compact.value depth (.bool flat.isPrivate) ++
        ['}'] := by
  obtain ⟨author, type, isPrivate⟩ := flat
  cases type with
  | none => cases isPrivate <;> simp [text, Operator.ofNullable, Layout.value]
  | some name => cases isPrivate <;> simp [text, Operator.ofNullable, Layout.value]

-- The text that is put together by hand is the compact one of the record.
theorem text_eq_compact (flat : Flat) : flat.text = flat.toJson.compact := by
  have htext : flat.text.toList = Layout.compact.value 0 flat.toJson := by
    rw [toList_text flat 1]
    simp only [List.append_assoc]
    rfl
  rw [Json.compact, ← htext, String.ofList_toList]

theorem isFloatFree_toJson (flat : Flat) : flat.toJson.isFloatFree = true := by
  obtain ⟨author, type, isPrivate⟩ := flat
  cases type with
  | none => rfl
  | some name => rfl

theorem nest_toJson (flat : Flat) : flat.toJson.nest = 1 := by
  obtain ⟨author, type, isPrivate⟩ := flat
  cases type with
  | none => rfl
  | some name => rfl

-- The text of a query is read back as its record.
theorem read_text (flat : Flat) : Json.read flat.text = .ok flat.toValue := by
  have hnest : flat.toJson.nest ≤ Json.nestingLimit := by
    rw [nest_toJson]
    decide
  rw [text_eq_compact]
  exact (Json.read_compact flat.isFloatFree_toJson).1 hnest

theorem canonical_ofNullable (text : Option String) :
    (Operator.ofNullable text).canonical = Operator.ofNullable text := by
  cases text with
  | none => rfl
  | some text => rfl

-- Readers hold the fields in the order of their names.
theorem toValue_eq (flat : Flat) :
    flat.toValue = .obj [("author", .str flat.author), ("private", .bool flat.isPrivate),
      ("type", Operator.ofNullable flat.type)] := by
  have hauthor : ¬"type" < "author" ∧ "type" ≠ "author" := by decide
  have hprivate : ¬"private" < "author" ∧ "private" ≠ "author" := by decide
  have htype : "private" < "type" := by decide
  simp only [toValue, toJson, Json.canonical, Json.canonicalMembers, canonical_ofNullable,
    Members.ordered, List.foldl_cons, List.foldl_nil, Members.put, if_neg hauthor.1,
    if_neg hauthor.2, if_neg hprivate.1, if_neg hprivate.2, if_pos htype]

theorem fits_toValue (flat : Flat) : ∃ members, flat.toValue = .obj members ∧ Fits members flat :=
  ⟨_, flat.toValue_eq, ⟨Nat.le_refl 3, rfl, rfl, rfl⟩⟩

theorem check_toValue (accepts : String → Bool) (flat : Flat) :
    check accepts flat.toValue = verdict accepts flat := by
  obtain ⟨members, hvalue, hfits⟩ := fits_toValue flat
  rw [hvalue, check_of_record (Query.record_obj members), ofRecord_of_fits hfits]

theorem check_text (accepts : String → Bool) (flat : Flat) :
    check accepts (.str flat.text) = verdict accepts flat := by
  obtain ⟨members, hvalue, hfits⟩ := fits_toValue flat
  have hread := read_text flat
  rw [hvalue] at hread
  rw [check_of_record (Query.record_text hread), ofRecord_of_fits hfits]

-- The text of a query stands for the query whatever is in its fields: it is accepted or refused
-- as its record is. So the canonical text of a query that is accepted in any form is accepted
-- itself, for the same query.
theorem check_text_eq_check_toValue (accepts : String → Bool) (flat : Flat) :
    check accepts (.str flat.text) = check accepts flat.toValue ∧
    check accepts flat.toValue =
      (if flat.isPrivate && flat.type.isSome then .error .privateWithType
      else if accepts flat.author then .ok flat
      else .error (.badFeed flat.author)) ∧
    ∀ query, (parse accepts query).1 = some flat →
      stringify accepts query = .ok flat.text ∧
      check accepts (.str flat.text) = .ok flat ∧
      parse accepts (.str flat.text) = (some flat, []) ∧
      stringify accepts (.str flat.text) = .ok flat.text ∧
      ∀ dedicated, compile accepts dedicated query = .ok (flat.operator dedicated) ∧
        compile accepts dedicated (.str flat.text) = .ok (flat.operator dedicated) := by
  refine ⟨(check_text accepts flat).trans (check_toValue accepts flat).symm,
    check_toValue accepts flat, ?_⟩
  intro query hparse
  have hcheck : check accepts query = .ok flat := (Query.attempt_fst_eq_some_iff.mp hparse).2
  obtain ⟨members, _, hrecord⟩ := Except.bind_eq_ok hcheck
  obtain ⟨_, hparts, hfeed⟩ := ofRecord_eq_ok_iff.mp hrecord
  have htext : check accepts (.str flat.text) = .ok flat := by
    rw [check_text]
    exact verdict_eq_ok_iff.mpr ⟨hparts, hfeed, rfl⟩
  obtain ⟨_, hstringify, hcompile⟩ := results_of_check hcheck
  obtain ⟨hparseText, hstringifyText, hcompileText⟩ := results_of_check htext
  exact ⟨hstringify, htext, hparseText, hstringifyText,
    fun dedicated => ⟨hcompile dedicated, hcompileText dedicated⟩⟩

-- The record of a query that is accepted is brought to the canonical text.
theorem stringify_toValue_published :
    stringify (fun _ => true) (published "@a" "post").toValue =
      .ok (published "@a" "post").text := by
  have hcheck := check_toValue (fun _ => true) (published "@a" "post")
  have hparse : (parse (fun _ => true) (published "@a" "post").toValue).1 =
      some (published "@a" "post") :=
    Query.attempt_fst_eq_some_iff.mpr ⟨rfl, hcheck⟩
  exact ((check_text_eq_check_toValue _ _).2.2 _ hparse).1

end FeedFilter.Flat
