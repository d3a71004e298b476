import FeedFilter.Proofs.Flat.Text
import FeedFilter.Proofs.Json.Keys
import Mathlib.Data.List.Nodup

namespace FeedFilter.Flat

-- The fields of a query in the order of their names.
def fields (flat : Flat) : Members :=
  [("author", .str flat.author), ("private", .bool flat.isPrivate),
    ("type", Operator.ofNullable flat.type)]

theorem toValue_eq_obj (flat : Flat) : flat.toValue = .obj flat.fields :=
  flat.toValue_eq

theorem toValue_eq_obj_iff {flat : Flat} {members : Members} :
    Json.obj members = flat.toValue ↔ members = flat.fields := by
  rw [toValue_eq_obj, Json.obj.injEq]

theorem ascending_fields (flat : Flat) : flat.fields.Ascending := by
  have hprivate : "author" < "private" := by decide
  have htype : "author" < "type" ∧ "private" < "type" := by decide
  simp only [fields, Members.Ascending, List.pairwise_cons, List.forall_mem_cons]
  exact ⟨⟨hprivate, htype.1, nofun⟩, ⟨htype.2, nofun⟩, nofun, .nil⟩

variable {accepts : String → Bool} {members : Members} {flat : Flat}

-- Three names are looked up and found, so that a record of no more than three members has no room
-- for a fourth name. That the names are the right ones is never asked.
theorem perm_of_fits (h : Fits members flat) : flat.fields.Perm members := by
  have hfields : flat.fields.Nodup :=
    List.Nodup.of_map Prod.fst (Members.nodup_of_ascending flat.ascending_fields)
  have hsubset : flat.fields ⊆ members := by
    intro member hmember
    simp only [fields, List.mem_cons, List.not_mem_nil, or_false] at hmember
    rcases hmember with rfl | rfl | rfl
    · exact Members.mem_of_lookup h.author
    · exact Members.mem_of_lookup h.isPrivate
    · exact Members.mem_of_lookup h.type
  exact (List.subperm_of_subset hfields hsubset).perm_of_length_le h.bound

theorem fits_of_perm (h : flat.fields.Perm members) : Fits members flat := by
  have hlookup := Members.lookup_perm h (Members.nodup_of_ascending flat.ascending_fields)
  exact ⟨Nat.le_of_eq h.length_eq.symm, (hlookup "author").symm, (hlookup "type").symm,
    (hlookup "private").symm⟩

theorem fits_iff_eq (h : members.Ascending) : Fits members flat ↔ members = flat.fields := by
  constructor
  · intro hfits
    exact Members.eq_of_perm h flat.ascending_fields (perm_of_fits hfits).symm
  · rintro rfl
    exact fits_of_perm (List.Perm.refl _)

theorem mem_keys_iff (h : Fits members flat) (name : String) :
    name ∈ members.map Prod.fst ↔ name ∈ fieldNames := by
  have hkeys := (perm_of_fits h).map Prod.fst
  rw [← hkeys.mem_iff]
  have hnames : (flat.fields.map Prod.fst).Perm fieldNames := by
    apply List.Perm.cons
    exact List.Perm.swap _ _ _
  exact hnames.mem_iff

theorem Fits.lookup_eq_none (h : Fits members flat) {name : String} (hname : name ∉ fieldNames) :
    members.lookup name = none := by
  rwa [Members.lookup_eq_none_iff, mem_keys_iff h]

theorem check_obj_iff (h : members.Ascending) :
    check accepts (.obj members) = .ok flat ↔
      Json.obj members = flat.toValue ∧ accepts flat.author = true ∧ flat.IsConsistent := by
  rw [check_of_record (Query.record_obj members), ofRecord_eq_ok_iff, fits_iff_eq h,
    toValue_eq_obj_iff, and_comm (a := flat.IsConsistent)]

-- A text is a way to give an object, and a reader keeps its keys in order.
theorem check_str_iff {text : String} :
    check accepts (.str text) = .ok flat ↔
      Json.read text = .ok flat.toValue ∧ accepts flat.author = true ∧ flat.IsConsistent := by
  constructor
  · intro hcheck
    obtain ⟨members, hrecord, hmembers⟩ := Except.bind_eq_ok hcheck
    rcases Query.record_eq_ok_iff.mp hrecord with htext | ⟨found, htext, hread⟩
    · cases htext
    · cases htext
      have hobj : check accepts (.obj members) = .ok flat :=
        (check_of_record (Query.record_obj members)).trans hmembers
      obtain ⟨hvalue, hrest⟩ := (check_obj_iff (Json.ascending_of_read hread)).mp hobj
      exact ⟨hvalue ▸ hread, hrest⟩
  · rintro ⟨hread, hrest⟩
    rw [toValue_eq_obj] at hread
    have hobj : check accepts (.obj flat.fields) = .ok flat :=
      (check_obj_iff flat.ascending_fields).mpr ⟨flat.toValue_eq_obj.symm, hrest⟩
    rw [check_of_record (Query.record_text hread)]
    rwa [check_of_record (Query.record_obj flat.fields)] at hobj

-- An object is accepted as a query just if it is the record of this query, no more and no less,
-- and the query stands the tests of its fields. So checking undoes the making of records.
theorem check_eq_ok_iff_toValue (accepts : String → Bool) (flat : Flat) :
    (∀ members : Members, members.Ascending →
      (check accepts (.obj members) = .ok flat ↔
        Json.obj members = flat.toValue ∧ accepts flat.author = true ∧ flat.IsConsistent)) ∧
    (∀ members : Members, check accepts (.obj members) = .ok flat →
      ∀ name, name ∈ members.map Prod.fst ↔ name ∈ fieldNames) ∧
    (∀ members others : Members, members.Ascending → others.Ascending →
      check accepts (.obj members) = .ok flat → check accepts (.obj others) = .ok flat →
      members = others) ∧
    ∀ text, check accepts (.str text) = .ok flat ↔
      Json.read text = .ok flat.toValue ∧ accepts flat.author = true ∧ flat.IsConsistent := by
  refine ⟨fun members => check_obj_iff, ?_, ?_, fun text => check_str_iff⟩
  · intro members hcheck
    rw [check_of_record (Query.record_obj members)] at hcheck
    exact mem_keys_iff (ofRecord_eq_ok_iff.mp hcheck).1
  · intro members others hmembers hothers hfirst hsecond
    obtain ⟨hvalue, _⟩ := (check_obj_iff hmembers).mp hfirst
    obtain ⟨hother, _⟩ := (check_obj_iff hothers).mp hsecond
    exact Json.obj.inj (hvalue.trans hother.symm)

-- A public query for messages without a type is accepted. Another name in the place of the type
-- makes a record of no query.
theorem check_fields_untyped :
    (Flat.mk "@a" none false).fields.Ascending ∧
      check (fun _ => true) (.obj (Flat.mk "@a" none false).fields) =
        .ok (Flat.mk "@a" none false) ∧
      ∀ flat, check (fun _ => true)
        (.obj [("author", .str "@a"), ("note", .null), ("private", .bool false)]) ≠ .ok flat := by
  have hascending := ascending_fields (Flat.mk "@a" none false)
  refine ⟨hascending, ?_, ?_⟩
  · apply ((check_eq_ok_iff_toValue _ _).1 _ hascending).mpr
    refine ⟨(toValue_eq_obj _).symm, rfl, ?_⟩
    intro hprivate
    cases hprivate
  · intro flat hcheck
    have htype := ((check_eq_ok_iff_toValue _ flat).2.1 _ hcheck "type").mpr (by decide)
    exact absurd htype (by decide)

end FeedFilter.Flat
