import FeedFilter.Flat.Decode
import FeedFilter.Proofs.Flat.Record
import FeedFilter.Proofs.Json.Form

namespace FeedFilter.Flat

variable {flat : Flat} {written : Members}

theorem isScalar_ofNullable (text : Option String) :
    (Operator.ofNullable text).isScalar = true := by
  cases text with
  | none => rfl
  | some text => rfl

-- The fields that a reader finds are those that are written, for none is hidden by another.
theorem fits_of_fits_ordered (hkeys : (written.map Prod.fst).Nodup)
    (h : Fits (Members.ordered (Json.canonicalMembers written)) flat) : Fits written flat := by
  have hbound := h.bound
  rw [Json.length_ordered_of_nodup hkeys] at hbound
  exact ⟨hbound, Json.lookup_of_lookup_scalar hkeys rfl h.author,
    Json.lookup_of_lookup_scalar hkeys (isScalar_ofNullable _) h.type,
    Json.lookup_of_lookup_scalar hkeys rfl h.isPrivate⟩

-- Each of the three fields is one that the form asks for and holds what the form allows.
theorem holds_of_fits (h : Fits written flat) :
    ∀ member ∈ written, ∃ field, form.lookup member.1 = some field ∧ field.Holds member.2 := by
  intro member hmember
  have hfield := (perm_of_fits h).mem_iff.mpr hmember
  simp only [fields, List.mem_cons, List.not_mem_nil, or_false] at hfield
  rcases hfield with rfl | rfl | rfl
  · exact ⟨.text, rfl, flat.author, rfl⟩
  · exact ⟨.flag, rfl, flat.isPrivate, rfl⟩
  · exact ⟨.nullable, rfl, FieldForm.holds_ofNullable flat.type⟩

theorem complete_of_fits {found : Members} (h : Fits found flat) (place : Nat) :
    form.complete found place =
      .ok [.str flat.author, Operator.ofNullable flat.type, .bool flat.isPrivate] := by
  simp only [form, Form.complete, h.author, h.type, h.isPrivate]
  rfl

theorem ofValues_fields (flat : Flat) :
    ofValues [.str flat.author, Operator.ofNullable flat.type, .bool flat.isPrivate] =
      some flat := by
  obtain ⟨author, type, isPrivate⟩ := flat
  cases type with
  | none => rfl
  | some name => rfl

theorem readsTo_ofOutline {levels : Nat} {outline : Outline}
    (h : outline.written levels = .ok (.obj written)) (hkeys : (written.map Prod.fst).Nodup)
    (hfits : Fits written flat) : ReadsTo (fun levels => ofOutline levels outline) 1 flat := by
  have hreverse : Fits (written.reverse ++ []) flat := by
    rw [List.append_nil]
    exact fits_of_perm ((perm_of_fits hfits).trans written.reverse_perm.symm)
  have hvalues : ReadsTo (fun levels => form.read "a flat query" levels outline) 1
      [.str flat.author, Operator.ofNullable flat.type, .bool flat.isPrivate] :=
    Form.readsTo_read h (holds_of_fits hfits) hkeys (complete_of_fits hreverse)
  refine hvalues.andThen ?_
  rw [ofValues_fields]

-- A text that is accepted is read back as the same query if no key comes twice in it.
theorem decode_of_check {accepts : String → Bool} {text : String} {json : Json}
    (hdecode : Json.decode (Outline.written Json.nestingLimit) text = .ok json)
    (hkeys : json.DistinctKeys) (hcheck : check accepts (.str text) = .ok flat) :
    decode text = .ok flat := by
  have hread := Json.read_of_decode hdecode
  obtain ⟨hvalue, _⟩ := check_str_iff.mp hcheck
  have hcanonical : json.canonical = .obj flat.fields := by
    rw [← toValue_eq_obj]
    exact Except.ok.inj (hread.symm.trans hvalue)
  obtain ⟨written, rfl, hfields⟩ := Json.eq_obj_of_canonical hcanonical
  cases hkeys with
  | obj hkeys _ =>
    have hfits : Fits written flat := by
      apply fits_of_fits_ordered hkeys
      rw [← hfields]
      exact fits_of_perm (List.Perm.refl _)
    have hreads := readsTo_ofOutline (Json.written_of_decode hdecode) hkeys hfits
    exact Json.decode_of_decode hdecode ((hreads Json.nestingLimit).1 (by decide))

end FeedFilter.Flat
