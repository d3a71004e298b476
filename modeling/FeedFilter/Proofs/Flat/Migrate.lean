import FeedFilter.Proofs.Flat.Record

namespace FeedFilter.Flat

open Query (textField_eq_ok_iff)

-- The fields of a former record, and no room for others.
structure FitsFormer (members : Members) (author type : String) : Prop where
  bound : members.length ≤ formerFieldNames.length
  author : members.lookup "author" = some (.str author)
  type : members.lookup "type" = some (.str type)

variable {accepts : String → Bool} {members : Members} {author type : String}

-- There is no test for other names. Two are looked up, and there are no more than two.
theorem FitsFormer.lookup_eq_none (h : FitsFormer members author type) {name : String}
    (hname : name ∉ formerFieldNames) : members.lookup name = none := by
  refine Members.lookup_eq_none_of_bound (by decide) h.bound ?_ hname
  simp only [formerFieldNames, List.forall_mem_cons]
  exact ⟨⟨_, h.author⟩, ⟨_, h.type⟩, nofun⟩

theorem migrate_eq_ok_iff {query : Json} {flat : Flat} :
    migrate accepts query = .ok flat ↔
      ∃ members author type, Query.record query = .ok members ∧
        FitsFormer members author type ∧ accepts author = true ∧ flat = published author type := by
  constructor
  · intro h
    obtain ⟨members, hrecord, h⟩ := Except.bind_eq_ok h
    obtain ⟨_, hbound, h⟩ := Except.bind_eq_ok h
    obtain ⟨author, hauthor, h⟩ := Except.bind_eq_ok h
    obtain ⟨type, htype, h⟩ := Except.bind_eq_ok h
    obtain ⟨_, hfeed, h⟩ := Except.bind_eq_ok h
    cases h
    have hfits : FitsFormer members author type :=
      ⟨limitFields_eq_ok_iff.mp hbound, textField_eq_ok_iff.mp hauthor,
        textField_eq_ok_iff.mp htype⟩
    refine ⟨members, author, type, hrecord, hfits, ?_, rfl⟩
    by_contra hrefused
    rw [checkFeed, if_neg hrefused] at hfeed
    cases hfeed
  · rintro ⟨members, author, type, hrecord, hfits, hfeed, rfl⟩
    have hbound := limitFields_eq_ok_iff.mpr hfits.bound
    have hauthor := textField_eq_ok_iff.mpr hfits.author
    have htype := textField_eq_ok_iff.mpr hfits.type
    simp only [migrate, hrecord, hbound, hauthor, htype, bind, Except.bind, checkFeed, if_pos hfeed]
    rfl

-- A former record fails as a query of today for what it does not say, and for nothing else.
theorem FitsFormer.ofRecord_eq (h : FitsFormer members author type) :
    ofRecord accepts members = .error (.missingField "private") := by
  have hnames : formerFieldNames.length ≤ fieldNames.length := by decide
  have hbound : limitFields fieldNames members = .ok () :=
    limitFields_eq_ok_iff.mpr (Nat.le_trans h.bound hnames)
  have hauthor := textField_eq_ok_iff.mpr h.author
  have htype : typeField members = .ok (some type) := typeField_eq_ok_iff.mpr h.type
  have hprivate : privateField members = .error (.missingField "private") := by
    rw [privateField, h.lookup_eq_none (by decide)]
  simp only [ofRecord, hbound, hauthor, htype, hprivate, bind, Except.bind]

theorem check_of_migrate {others : String → Bool} {query : Json} {flat : Flat}
    (h : migrate others query = .ok flat) :
    check accepts query = .error (.missingField "private") := by
  obtain ⟨members, author, type, hrecord, hfits, _⟩ := migrate_eq_ok_iff.mp h
  rw [check_of_record hrecord, hfits.ofRecord_eq]

-- The record of a query for public messages is a former record with one member put into it.
theorem fits_put_iff {flat : Flat} (h : members.lookup "private" = none) :
    Fits (members.put "private" (.bool false)) flat ∧ flat.type ≠ none ↔
      ∃ author type, FitsFormer members author type ∧ flat = published author type := by
  have hlength : (members.put "private" (.bool false)).length = members.length + 1 :=
    (Members.put_perm _ (Members.lookup_eq_none_iff.mp h)).length_eq
  constructor
  · rintro ⟨⟨hbound, hauthor, htype, hprivate⟩, hne⟩
    obtain ⟨author, type, isPrivate⟩ := flat
    obtain ⟨name, rfl⟩ := Option.ne_none_iff_exists'.mp hne
    simp only [Members.lookup_put, String.reduceEq, if_true, if_false] at hauthor htype hprivate
    cases hprivate
    rw [hlength] at hbound
    exact ⟨author, name, ⟨Nat.le_of_succ_le_succ hbound, hauthor, htype⟩, rfl⟩
  · rintro ⟨author, type, ⟨hbound, hauthor, htype⟩, rfl⟩
    refine ⟨⟨?_, ?_, ?_, ?_⟩, nofun⟩
    · rw [hlength]
      exact Nat.succ_le_succ hbound
    · rw [Members.lookup_put, if_neg (by decide), hauthor]
      rfl
    · rw [Members.lookup_put, if_neg (by decide), htype]
      rfl
    · rw [Members.lookup_put, if_pos rfl]
      rfl

theorem isConsistent_published (author type : String) : (published author type).IsConsistent :=
  nofun

-- Both forms in which a query is written come back as the query.
theorem given_published {given : Json} (hfeed : accepts author = true)
    (hgiven : given = .str (published author type).text ∨
      given = (published author type).toValue) :
    check accepts given = .ok (published author type) := by
  have hverdict : verdict accepts (published author type) = .ok (published author type) :=
    verdict_eq_ok_iff.mpr ⟨isConsistent_published author type, hfeed, rfl⟩
  rcases hgiven with rfl | rfl
  · rw [check_text, hverdict]
  · rw [check_toValue, hverdict]

-- A former record is migrated just if it is accepted once it says that it is not private. As it
-- stands it is refused for not saying so, and what it is migrated to is accepted in both forms. A
-- record that does say whether it is private is never migrated.
theorem migrate_eq_ok_iff_check_put (accepts : String → Bool) (query : Json) (flat : Flat) :
    (migrate accepts query = .ok flat ↔
      ∃ members, Query.record query = .ok members ∧ members.lookup "private" = none ∧
        check accepts (.obj (members.put "private" (.bool false))) = .ok flat ∧
        flat.type ≠ none) ∧
    (migrate accepts query = .ok flat →
      check accepts query = .error (.missingField "private") ∧
      (∃ members author type, Query.record query = .ok members ∧
        members.lookup "author" = some (.str author) ∧
        members.lookup "type" = some (.str type) ∧ flat = published author type) ∧
      ∀ given, given = .str flat.text ∨ given = flat.toValue →
        check accepts given = .ok flat ∧ parse accepts given = (some flat, []) ∧
        ∀ dedicated, compile accepts dedicated given =
          .ok (.and [.author flat.author dedicated, .type flat.type dedicated, .isPublic])) ∧
    ∀ members value, Query.record query = .ok members →
      members.lookup "private" = some value → ∃ error, migrate accepts query = .error error := by
  refine ⟨?_, ?_, ?_⟩
  · rw [migrate_eq_ok_iff]
    constructor
    · rintro ⟨members, author, type, hrecord, hfits, hfeed, rfl⟩
      have hnone : members.lookup "private" = none := hfits.lookup_eq_none (by decide)
      obtain ⟨hput, hne⟩ := (fits_put_iff hnone).mpr ⟨author, type, hfits, rfl⟩
      refine ⟨members, hrecord, hnone, ?_, hne⟩
      rw [check_of_record (Query.record_obj _)]
      exact ofRecord_eq_ok_iff.mpr ⟨hput, isConsistent_published author type, hfeed⟩
    · rintro ⟨members, hrecord, hnone, hcheck, hne⟩
      rw [check_of_record (Query.record_obj _)] at hcheck
      obtain ⟨hput, _, hfeed⟩ := ofRecord_eq_ok_iff.mp hcheck
      obtain ⟨author, type, hfits, rfl⟩ := (fits_put_iff hnone).mp ⟨hput, hne⟩
      exact ⟨members, author, type, hrecord, hfits, hfeed, rfl⟩
  · intro h
    obtain ⟨members, author, type, hrecord, hfits, hfeed, rfl⟩ := migrate_eq_ok_iff.mp h
    refine ⟨check_of_migrate h, ⟨members, author, type, hrecord, hfits.author, hfits.type, rfl⟩, ?_⟩
    intro given hgiven
    have hcheck := given_published hfeed hgiven
    obtain ⟨hparse, _, hcompile⟩ := results_of_check hcheck
    exact ⟨hcheck, hparse, hcompile⟩
  · intro members value hrecord hvalue
    cases hmigrate : migrate accepts query with
    | error error => exact ⟨error, rfl⟩
    | ok flat =>
      obtain ⟨found, author, type, hfound, hfits, _⟩ := migrate_eq_ok_iff.mp hmigrate
      cases hrecord.symm.trans hfound
      cases hvalue.symm.trans (hfits.lookup_eq_none (by decide))

-- The former record is given as a text, with its type first.
theorem migrate_text_type_first :
    migrate (fun _ => true) (.str (Json.obj [("type", .str "post"), ("author", .str "@a")]).compact) =
        .ok (published "@a" "post") ∧
      check (fun _ => true)
          (.str (Json.obj [("type", .str "post"), ("author", .str "@a")]).compact) =
        .error (.missingField "private") ∧
      ∃ error, migrate (fun _ => true) (published "@a" "post").toValue = .error error := by
  have hread : Json.read (Json.obj [("type", .str "post"), ("author", .str "@a")]).compact =
      .ok (.obj [("author", .str "@a"), ("type", .str "post")]) :=
    (Json.read_compact rfl).1 (by decide)
  have hrecord := Query.record_text hread
  have hput : check (fun _ => true)
      (.obj (Members.put "private" (.bool false) [("author", .str "@a"), ("type", .str "post")])) =
        .ok (published "@a" "post") := rfl
  obtain ⟨hiff, hmigrated, _⟩ := migrate_eq_ok_iff_check_put (fun _ => true)
    (.str (Json.obj [("type", .str "post"), ("author", .str "@a")]).compact) (published "@a" "post")
  have hmigrate := hiff.mpr ⟨_, hrecord, rfl, hput, nofun⟩
  obtain ⟨members, hvalue, hfits⟩ := fits_toValue (published "@a" "post")
  have hnow : Query.record (published "@a" "post").toValue = .ok members := by
    rw [hvalue, Query.record_obj]
  exact ⟨hmigrate, (hmigrated hmigrate).1,
    (migrate_eq_ok_iff_check_put (fun _ => true) _ (published "@a" "post")).2.2 _ _ hnow
      hfits.isPrivate⟩

end FeedFilter.Flat
