import FeedFilter.Proofs.Json.Reading
import FeedFilter.Proofs.Json.RoundTrip
import FeedFilter.Settings
import Mathlib.Data.Option.Defs

namespace FeedFilter

namespace Outline

variable {levels : Nat} {outline : Outline}

theorem readFlag_eq_ok_iff {flag : Bool} :
    outline.readFlag = .ok flag ↔ outline.written levels = .ok (.bool flag) := by
  constructor
  · intro h
    unfold readFlag at h
    split at h
    · cases h
      rfl
    · cases h
  · intro h
    obtain ⟨start, stop, rfl⟩ := eq_flag_of_written h
    rfl

theorem readNull_eq_ok_iff {wanted : String} :
    outline.readNull wanted = .ok () ↔ outline.written levels = .ok .null := by
  constructor
  · intro h
    unfold readNull at h
    split at h
    · rfl
    · cases h
  · intro h
    obtain ⟨start, stop, rfl⟩ := eq_null_of_written h
    rfl

end Outline

theorem Token.variant_eq_ok_iff {known : List String} {name found : String} {place : Nat} :
    Token.variant known name place = .ok found ↔ name ∈ known ∧ found = name := by
  rw [variant, List.contains_eq_mem]
  by_cases h : name ∈ known
  · simp [h, eq_comm]
  · simp [h]

theorem Items.finish_eq_ok_iff {items : Items} : items.finish = .ok () ↔ items = .close := by
  constructor
  · intro h
    unfold finish at h
    split at h
    · rfl
    all_goals cases h
  · rintro rfl
    rfl

theorem Fields.finish_eq_ok_iff {fields : Fields} {next : Option Nat} :
    Fields.finish next fields = .ok () ↔ ∃ place, fields = .close place := by
  constructor
  · intro h
    unfold finish at h
    split at h
    · exact ⟨_, rfl⟩
    all_goals cases h
  · rintro ⟨place, rfl⟩
    rfl

namespace FeedCheck

-- A check is given by its name, or by an object with the name as its key and nothing to say.
inductive GivenBy (check : FeedCheck) : Json → Prop
  | name : GivenBy check (.str check.name)
  | key : GivenBy check (.obj [(check.name, .null)])

theorem name_mem_names (check : FeedCheck) : check.name ∈ names := by
  cases check <;> decide

theorem ofName_name (check : FeedCheck) : ofName check.name = check := by
  cases check <;> rfl

theorem name_ofName {name : String} (h : name ∈ names) : (ofName name).name = name := by
  simp only [names, List.mem_cons, List.not_mem_nil, or_false] at h
  obtain rfl | rfl := h <;> rfl

variable {levels : Nat} {outline : Outline} {check : FeedCheck}

theorem exists_written_of_ofOutline (h : ofOutline levels outline = .ok check) :
    ∃ json, outline.written levels = .ok json ∧ check.GivenBy json := by
  unfold ofOutline at h
  split at h
  · next start reading stop =>
    obtain ⟨found, hneeded, h⟩ := Except.bind_eq_ok h
    obtain ⟨name, hvariant, h⟩ := Except.bind_eq_ok h
    cases h
    obtain ⟨hname, rfl⟩ := Token.variant_eq_ok_iff.mp hvariant
    refine ⟨.str name, ?_, ?_⟩
    · simp only [Outline.written, Token.value, hneeded]
      rfl
    · have hgiven : (ofName name).GivenBy (.str (ofName name).name) := .name
      rwa [name_ofName hname] at hgiven
  · cases h
  · cases h
  · cases h
  · cases h
  · next inner start key colon value next more =>
    obtain ⟨found, hkey, h⟩ := Except.bind_eq_ok h
    obtain ⟨name, hvariant, h⟩ := Except.bind_eq_ok h
    obtain ⟨_, hnull, h⟩ := Except.bind_eq_ok h
    obtain ⟨_, hfinish, h⟩ := Except.bind_eq_ok h
    cases h
    obtain ⟨hname, rfl⟩ := Token.variant_eq_ok_iff.mp hvariant
    obtain ⟨place, rfl⟩ := Fields.finish_eq_ok_iff.mp hfinish
    have hvalue : value.written inner = .ok .null := Outline.readNull_eq_ok_iff.mp hnull
    have hgiven : (ofName name).GivenBy (.obj [((ofName name).name, .null)]) := .key
    rw [name_ofName hname] at hgiven
    refine ⟨_, ?_, hgiven⟩
    simp only [Outline.written, Fields.written, hkey, hvalue, bind, Except.bind]
    rfl
  · cases h

theorem ofOutline_of_written {json : Json} (h : outline.written levels = .ok json)
    (hgiven : check.GivenBy json) : ofOutline levels outline = .ok check := by
  have hvariant : ∀ place, Token.variant names check.name place = .ok check.name := fun place =>
    Token.variant_eq_ok_iff.mpr ⟨check.name_mem_names, rfl⟩
  cases hgiven with
  | name =>
    obtain ⟨start, reading, stop, rfl, hneeded⟩ := Outline.eq_text_of_written h
    simp only [ofOutline, hneeded, bind, Except.bind, hvariant, ofName_name]
    rfl
  | key =>
    obtain ⟨inner, start, fields, rfl, rfl, hfields⟩ := Outline.eq_object_of_written h
    obtain ⟨key, colon, value, next, more, rfl, hname, hvalue, hmore⟩ :=
      Fields.eq_field_of_written hfields
    obtain ⟨place, rfl⟩ := Fields.eq_close_of_written hmore
    have hnull : value.readNull "unit" = .ok () := Outline.readNull_eq_ok_iff.mpr hvalue
    simp only [ofOutline, hname, bind, Except.bind, hvariant, hnull, Fields.finish, ofName_name]
    rfl

end FeedCheck

namespace Settings

-- What the members of an object say: each is named for a setting and has a value for it, and no
-- setting is named twice.
structure SaidByMembers (members : Members) (dedicated : Option Bool)
    (feedCheck : Option FeedCheck) : Prop where
  names : ∀ member ∈ members, member.1 ∈ fieldNames
  nodup : (members.map Prod.fst).Nodup
  dedicated : members.lookup "dedicated" = dedicated.map .bool
  feedCheck : Option.Rel (fun value (check : FeedCheck) => check.GivenBy value)
    (members.lookup "feed_id_check") feedCheck

-- What the items of a list say, of which the last ones may be left out.
inductive SaidByItems : List Json → Option Bool → Option FeedCheck → Prop
  | none : SaidByItems [] none none
  | first (flag : Bool) : SaidByItems [.bool flag] (some flag) none
  | both (flag : Bool) {check : FeedCheck} {value : Json} (h : check.GivenBy value) :
      SaidByItems [.bool flag, value] (some flag) (some check)

-- The settings that a value gives in so many words.
inductive Says : Json → Option Bool → Option FeedCheck → Prop
  | members {members : Members} {dedicated : Option Bool} {feedCheck : Option FeedCheck}
      (h : SaidByMembers members dedicated feedCheck) : Says (.obj members) dedicated feedCheck
  | items {items : List Json} {dedicated : Option Bool} {feedCheck : Option FeedCheck}
      (h : SaidByItems items dedicated feedCheck) : Says (.arr items) dedicated feedCheck

section Members

variable {members : Members} {name : String} {value : Json} {dedicated : Option Bool}
  {feedCheck : Option FeedCheck}

theorem eq_none_of_rel {α β : Type} {r : α → β → Prop} {found : Option α}
    (h : Option.Rel r found none) : found = none := by
  cases found with
  | none => rfl
  | some value => cases h

theorem saidByMembers_nil_iff :
    SaidByMembers [] dedicated feedCheck ↔ dedicated = none ∧ feedCheck = none := by
  constructor
  · rintro ⟨-, -, hdedicated, hcheck⟩
    cases hcheck
    exact ⟨Option.map_eq_none_iff.mp hdedicated.symm, rfl⟩
  · rintro ⟨rfl, rfl⟩
    exact ⟨nofun, List.nodup_nil, rfl, .none⟩

theorem saidByMembers_cons_iff :
    SaidByMembers ((name, value) :: members) dedicated feedCheck ↔
      (name = "dedicated" ∧ ∃ flag, value = .bool flag ∧ dedicated = some flag ∧
        SaidByMembers members none feedCheck) ∨
      (name = "feed_id_check" ∧ ∃ check : FeedCheck, check.GivenBy value ∧ feedCheck = some check ∧
        SaidByMembers members dedicated none) := by
  constructor
  · rintro ⟨hnames, hnodup, hdedicated, hcheck⟩
    rw [List.forall_mem_cons] at hnames
    rw [List.map_cons, List.nodup_cons] at hnodup
    rw [Members.lookup_cons] at hdedicated hcheck
    have hnone : members.lookup name = none := Members.lookup_eq_none_iff.mpr hnodup.1
    obtain rfl | rfl : name = "dedicated" ∨ name = "feed_id_check" := by
      simpa [fieldNames] using hnames.1
    · rw [if_pos rfl] at hdedicated
      rw [if_neg (by decide)] at hcheck
      obtain ⟨flag, rfl, rfl⟩ := Option.map_eq_some_iff.mp hdedicated.symm
      exact .inl ⟨rfl, flag, rfl, rfl, hnames.2, hnodup.2, hnone, hcheck⟩
    · rw [if_neg (by decide)] at hdedicated
      rw [if_pos rfl] at hcheck
      cases hcheck with
      | some hgiven =>
        exact .inr ⟨rfl, _, hgiven, rfl, hnames.2, hnodup.2, hdedicated, hnone ▸ .none⟩
  · rintro (⟨rfl, flag, rfl, rfl, hnames, hnodup, hdedicated, hcheck⟩ |
      ⟨rfl, check, hgiven, rfl, hnames, hnodup, hdedicated, hcheck⟩)
    · have hnew := Members.lookup_eq_none_iff.mp hdedicated
      refine ⟨?_, List.nodup_cons.mpr ⟨hnew, hnodup⟩, ?_, ?_⟩
      · exact List.forall_mem_cons.mpr ⟨List.mem_cons_self, hnames⟩
      · rw [Members.lookup_cons, if_pos rfl]
        rfl
      · rwa [Members.lookup_cons, if_neg (by decide)]
    · have hnew := Members.lookup_eq_none_iff.mp (eq_none_of_rel hcheck)
      refine ⟨?_, List.nodup_cons.mpr ⟨hnew, hnodup⟩, ?_, ?_⟩
      · exact List.forall_mem_cons.mpr ⟨List.mem_cons_of_mem _ List.mem_cons_self, hnames⟩
      · rwa [Members.lookup_cons, if_neg (by decide)]
      · rw [Members.lookup_cons, if_pos rfl]
        exact .some hgiven

end Members

section Forms

variable {levels : Nat} {dedicated : Option Bool} {feedCheck : Option FeedCheck}
  {settings : Settings}

-- The settings that result if some are given and the others are left as they are by default.
def ofGiven (dedicated : Option Bool) (feedCheck : Option FeedCheck) : Settings :=
  ⟨dedicated.getD false, feedCheck.getD .ssb⟩

-- A field is the flag or the check of authors, and has not been read before.
theorem ofFields_field_eq_ok_iff {key : Token} {colon : Option Token} {value : Outline}
    {next : Option Nat} {more : Fields} :
    ofFields levels dedicated feedCheck (.field key colon value next more) = .ok settings ↔
      (key.name = .ok "dedicated" ∧ dedicated = none ∧ ∃ flag,
        value.readFlag = .ok flag ∧ ofFields levels (some flag) feedCheck more = .ok settings) ∨
      (key.name = .ok "feed_id_check" ∧ feedCheck = none ∧ ∃ check,
        FeedCheck.ofOutline levels value = .ok check ∧
          ofFields levels dedicated (some check) more = .ok settings) := by
  constructor
  · intro h
    obtain ⟨name, hname, h⟩ := Except.bind_eq_ok h
    by_cases hdedicated : name = "dedicated"
    · rw [if_pos hdedicated] at h
      split at h
      · cases h
      · next hnew =>
        obtain ⟨flag, hflag, h⟩ := Except.bind_eq_ok h
        exact .inl ⟨hdedicated ▸ hname, Option.not_isSome_iff_eq_none.mp hnew, flag, hflag, h⟩
    · rw [if_neg hdedicated] at h
      split at h
      · next hfeedCheck =>
        split at h
        · cases h
        · next hnew =>
          obtain ⟨check, hcheck, h⟩ := Except.bind_eq_ok h
          exact .inr ⟨hfeedCheck ▸ hname, Option.not_isSome_iff_eq_none.mp hnew, check, hcheck, h⟩
      · cases h
  · have hother : ("feed_id_check" : String) ≠ "dedicated" := by decide
    rintro (⟨hname, rfl, flag, hread, h⟩ | ⟨hname, rfl, check, hread, h⟩)
    · simpa [ofFields, hname, hread, bind, Except.bind] using h
    · simpa [ofFields, hname, hread, hother, bind, Except.bind] using h

-- What has been read before the members at hand is not said again in them.
theorem exists_written_of_ofFields : ∀ (fields : Fields) {dedicated : Option Bool}
    {feedCheck : Option FeedCheck}, ofFields levels dedicated feedCheck fields = .ok settings →
    ∃ members flag check, fields.written levels = .ok members ∧
      SaidByMembers members flag check ∧ (dedicated.isSome = true → flag = none) ∧
      (feedCheck.isSome = true → check = none) ∧
      settings = ofGiven (dedicated.or flag) (feedCheck.or check)
  | .close place, dedicated, feedCheck, h => by
    cases h
    refine ⟨[], none, none, rfl, saidByMembers_nil_iff.mpr ⟨rfl, rfl⟩, fun _ => rfl,
      fun _ => rfl, ?_⟩
    rw [Option.or_none, Option.or_none]
    rfl
  | .stuck gap, dedicated, feedCheck, h => by cases h
  | .noKey found, dedicated, feedCheck, h => by cases h
  | .field key colon value next more, dedicated, feedCheck, h => by
    obtain ⟨hname, rfl, flag, hread, h⟩ | ⟨hname, rfl, check, hread, h⟩ :=
      ofFields_field_eq_ok_iff.mp h
    · have hvalue : value.written levels = .ok (.bool flag) :=
        Outline.readFlag_eq_ok_iff.mp hread
      obtain ⟨members, _, check, hmembers, hsaid, hnone, hcheck, rfl⟩ :=
        exists_written_of_ofFields more h
      cases hnone rfl
      refine ⟨_ :: members, some flag, check, ?_,
        saidByMembers_cons_iff.mpr (.inl ⟨rfl, flag, rfl, rfl, hsaid⟩), by simp, hcheck, rfl⟩
      simp only [Fields.written, hname, hvalue, hmembers, bind, Except.bind]
      rfl
    · obtain ⟨json, hvalue, hgiven⟩ := FeedCheck.exists_written_of_ofOutline hread
      obtain ⟨members, flag, _, hmembers, hsaid, hflag, hnone, rfl⟩ :=
        exists_written_of_ofFields more h
      cases hnone rfl
      refine ⟨_ :: members, flag, some check, ?_,
        saidByMembers_cons_iff.mpr (.inr ⟨rfl, check, hgiven, rfl, hsaid⟩), hflag, by simp, rfl⟩
      simp only [Fields.written, hname, hvalue, hmembers, bind, Except.bind]
      rfl

theorem ofFields_of_written : ∀ (fields : Fields) {members : Members}
    {dedicated flag : Option Bool} {feedCheck check : Option FeedCheck},
    fields.written levels = .ok members → SaidByMembers members flag check →
    (dedicated.isSome = true → flag = none) → (feedCheck.isSome = true → check = none) →
    ofFields levels dedicated feedCheck fields =
      .ok (ofGiven (dedicated.or flag) (feedCheck.or check))
  | .close place, members, dedicated, flag, feedCheck, check, h, hsaid, hflag, hcheck => by
    cases h
    obtain ⟨rfl, rfl⟩ := saidByMembers_nil_iff.mp hsaid
    rw [Option.or_none, Option.or_none]
    rfl
  | .stuck gap, members, dedicated, flag, feedCheck, check, h, hsaid, hflag, hcheck => by cases h
  | .noKey found, members, dedicated, flag, feedCheck, check, h, hsaid, hflag, hcheck => by cases h
  | .field key colon value next more, members, dedicated, flag, feedCheck, check, h, hall, hflag,
      hcheck => by
    obtain ⟨name, hname, h⟩ := Except.bind_eq_ok h
    obtain ⟨json, hvalue, h⟩ := Except.bind_eq_ok h
    obtain ⟨rest, hrest, h⟩ := Except.bind_eq_ok h
    cases h
    apply ofFields_field_eq_ok_iff.mpr
    obtain ⟨rfl, found, rfl, rfl, hsaid⟩ | ⟨rfl, found, hgiven, rfl, hsaid⟩ :=
      saidByMembers_cons_iff.mp hall
    · have hnew : dedicated = none :=
        Option.not_isSome_iff_eq_none.mp fun hsome => Option.some_ne_none found (hflag hsome)
      subst hnew
      exact .inl ⟨hname, rfl, found, Outline.readFlag_eq_ok_iff.mpr hvalue,
        ofFields_of_written more hrest hsaid (fun _ => rfl) hcheck⟩
    · have hnew : feedCheck = none :=
        Option.not_isSome_iff_eq_none.mp fun hsome => Option.some_ne_none found (hcheck hsome)
      subst hnew
      exact .inr ⟨hname, rfl, found, FeedCheck.ofOutline_of_written hvalue hgiven,
        ofFields_of_written more hrest hsaid hflag fun _ => rfl⟩

theorem exists_written_of_ofItems {items : Items} (h : ofItems levels items = .ok settings) :
    ∃ found flag check, items.written levels = .ok found ∧ SaidByItems found flag check ∧
      settings = ofGiven flag check := by
  cases items with
  | close =>
    cases h
    exact ⟨[], none, none, rfl, .none, rfl⟩
  | stuck gap => cases h
  | item start first more =>
    obtain ⟨flag, hflag, h⟩ := Except.bind_eq_ok h
    have hfirst : first.written levels = .ok (.bool flag) := Outline.readFlag_eq_ok_iff.mp hflag
    cases more with
    | close =>
      cases h
      refine ⟨[.bool flag], some flag, none, ?_, .first flag, rfl⟩
      simp only [Items.written, hfirst, bind, Except.bind]
      rfl
    | stuck gap => cases h
    | item start second more =>
      obtain ⟨check, hcheck, h⟩ := Except.bind_eq_ok h
      obtain ⟨_, hfinish, h⟩ := Except.bind_eq_ok h
      cases h
      cases Items.finish_eq_ok_iff.mp hfinish
      obtain ⟨json, hsecond, hgiven⟩ := FeedCheck.exists_written_of_ofOutline hcheck
      refine ⟨[.bool flag, json], some flag, some check, ?_, .both flag hgiven, rfl⟩
      simp only [Items.written, hfirst, hsecond, bind, Except.bind]
      rfl

theorem ofItems_of_written {items : Items} {found : List Json} {flag : Option Bool}
    {check : Option FeedCheck} (h : items.written levels = .ok found)
    (hsaid : SaidByItems found flag check) : ofItems levels items = .ok (ofGiven flag check) := by
  cases hsaid with
  | none =>
    cases Items.eq_close_of_written h
    rfl
  | first flag =>
    obtain ⟨start, first, more, rfl, hfirst, hmore⟩ := Items.eq_item_of_written h
    cases Items.eq_close_of_written hmore
    have hflag : first.readFlag = .ok flag := Outline.readFlag_eq_ok_iff.mpr hfirst
    simp only [ofItems, hflag, bind, Except.bind]
    rfl
  | both flag hgiven =>
    obtain ⟨start, first, more, rfl, hfirst, hmore⟩ := Items.eq_item_of_written h
    obtain ⟨start, second, more, rfl, hsecond, hmore⟩ := Items.eq_item_of_written hmore
    cases Items.eq_close_of_written hmore
    have hflag : first.readFlag = .ok flag := Outline.readFlag_eq_ok_iff.mpr hfirst
    have hcheck := FeedCheck.ofOutline_of_written hsecond hgiven
    simp only [ofItems, hflag, hcheck, Items.finish, bind, Except.bind]
    rfl

-- The outlines that settings are read from are those of values that say them.
theorem ofOutline_eq_ok_iff {outline : Outline} :
    ofOutline levels outline = .ok settings ↔
      ∃ json dedicated feedCheck, outline.written levels = .ok json ∧
        Says json dedicated feedCheck ∧ settings = ofGiven dedicated feedCheck := by
  constructor
  · intro h
    unfold ofOutline at h
    split at h
    · cases h
    · cases h
    · next inner start fields =>
      obtain ⟨members, dedicated, feedCheck, hmembers, hsaid, _, _, rfl⟩ :=
        exists_written_of_ofFields fields h
      refine ⟨.obj members, dedicated, feedCheck, ?_, .members hsaid, rfl⟩
      rw [Outline.written, hmembers]
      rfl
    · next inner start items =>
      obtain ⟨found, dedicated, feedCheck, hfound, hsaid, rfl⟩ := exists_written_of_ofItems h
      refine ⟨.arr found, dedicated, feedCheck, ?_, .items hsaid, rfl⟩
      rw [Outline.written, hfound]
      rfl
    · cases h
  · rintro ⟨json, dedicated, feedCheck, h, hsays, rfl⟩
    cases hsays with
    | members hsaid =>
      obtain ⟨inner, start, fields, rfl, rfl, hfields⟩ := Outline.eq_object_of_written h
      exact ofFields_of_written fields hfields hsaid (by simp) (by simp)
    | items hsaid =>
      obtain ⟨_, start, items, rfl, _⟩ := Outline.eq_list_of_written h
      cases levels with
      | zero => cases h
      | succ inner =>
        obtain ⟨found, hfound, hitems⟩ := Except.map_eq_ok h
        cases hitems
        exact ofItems_of_written hfound hsaid

end Forms

-- At most two containers stand inside each other where settings are given, far from the limit.
section Nesting

variable {json : Json} {dedicated : Option Bool} {feedCheck : Option FeedCheck}

theorem nest_le_of_givenBy {check : FeedCheck} (h : check.GivenBy json) : json.nest ≤ 1 := by
  cases h with
  | name => exact Nat.zero_le 1
  | key => exact Nat.le_refl 1

theorem nestMembers_le {members : Members} (h : SaidByMembers members dedicated feedCheck) :
    Json.nestMembers members ≤ 1 := by
  induction members generalizing dedicated feedCheck with
  | nil => exact Nat.zero_le 1
  | cons member rest ih =>
    rw [Json.nestMembers]
    obtain ⟨-, flag, hvalue, -, hrest⟩ | ⟨-, check, hgiven, -, hrest⟩ :=
      saidByMembers_cons_iff.mp h
    · rw [hvalue]
      exact Nat.max_le.mpr ⟨Nat.zero_le 1, ih hrest⟩
    · exact Nat.max_le.mpr ⟨nest_le_of_givenBy hgiven, ih hrest⟩

theorem nestItems_le {items : List Json} (h : SaidByItems items dedicated feedCheck) :
    Json.nestItems items ≤ 1 := by
  cases h with
  | none => exact Nat.zero_le 1
  | first flag => exact Nat.zero_le 1
  | both flag hgiven =>
    have hcheck := nest_le_of_givenBy hgiven
    simp only [Json.nestItems, Json.nest]
    omega

theorem nest_le_of_says (h : Says json dedicated feedCheck) : json.nest ≤ Json.nestingLimit := by
  have hlimit : 1 + 1 ≤ Json.nestingLimit := by decide
  cases h with
  | members hsaid => exact Nat.le_trans (Nat.add_le_add_left (nestMembers_le hsaid) 1) hlimit
  | items hsaid => exact Nat.le_trans (Nat.add_le_add_left (nestItems_le hsaid) 1) hlimit

end Nesting

theorem says_toJson (settings : Settings) :
    Says settings.toJson (some settings.dedicated) (some settings.feedCheck) := by
  have hcheck := saidByMembers_cons_iff.mpr (.inr ⟨rfl, settings.feedCheck, .name, rfl,
    saidByMembers_nil_iff.mpr ⟨rfl, rfl⟩⟩)
  exact .members (saidByMembers_cons_iff.mpr (.inl ⟨rfl, _, rfl, rfl, hcheck⟩))

variable {text : String} {settings : Settings}

theorem decode_eq_ok_iff_spelledBy :
    decode text = .ok settings ↔
      ∃ json dedicated feedCheck, json.SpelledBy text ∧ Says json dedicated feedCheck ∧
        settings = ofGiven dedicated feedCheck := by
  constructor
  · intro h
    obtain ⟨json, dedicated, feedCheck, hwritten, hsays, hsettings⟩ :=
      ofOutline_eq_ok_iff.mp (Json.written_of_decode h)
    have hspelled := (Json.decode_written_eq_ok_iff.mp (Json.decode_of_decode h hwritten)).1
    exact ⟨json, dedicated, feedCheck, hspelled, hsays, hsettings⟩
  · rintro ⟨json, dedicated, feedCheck, hspelled, hsays, rfl⟩
    have hdecode := Json.decode_written_eq_ok_iff.mpr ⟨hspelled, nest_le_of_says hsays⟩
    exact Json.decode_of_decode hdecode (ofOutline_eq_ok_iff.mpr
      ⟨json, dedicated, feedCheck, Json.written_of_decode hdecode, hsays, rfl⟩)

-- A text gives settings just if it is written as an object or a list that says some of them, in
-- any order and spelling, and nothing else. What it does not say is restricted, so that nothing is
-- allowed unless a text says so. What is written for settings gives them back.
theorem decode_eq_ok_iff (text : String) :
    (∀ settings, decode text = .ok settings ↔
      ∃ json dedicated feedCheck, json.SpelledBy text ∧ Says json dedicated feedCheck ∧
        settings = ⟨dedicated.getD false, feedCheck.getD .ssb⟩) ∧
    (∀ settings, decode text = .ok settings →
      (settings.dedicated = true ↔ ∃ json feedCheck, json.SpelledBy text ∧
        Says json (some true) feedCheck) ∧
      (settings.feedCheck = .sigil ↔ ∃ json dedicated, json.SpelledBy text ∧
        Says json dedicated (some .sigil))) ∧
    ∀ settings : Settings, decode settings.text = .ok settings := by
  refine ⟨fun settings => decode_eq_ok_iff_spelledBy, fun settings h => ⟨?_, ?_⟩, ?_⟩
  · constructor
    · intro hdedicated
      obtain ⟨json, dedicated, feedCheck, hspelled, hsays, rfl⟩ := decode_eq_ok_iff_spelledBy.mp h
      cases dedicated with
      | none => cases hdedicated
      | some flag =>
        cases hdedicated
        exact ⟨json, feedCheck, hspelled, hsays⟩
    · rintro ⟨json, feedCheck, hspelled, hsays⟩
      have hsame := decode_eq_ok_iff_spelledBy.mpr ⟨json, _, _, hspelled, hsays, rfl⟩
      cases h.symm.trans hsame
      rfl
  · constructor
    · intro hcheck
      obtain ⟨json, dedicated, feedCheck, hspelled, hsays, rfl⟩ := decode_eq_ok_iff_spelledBy.mp h
      cases feedCheck with
      | none => cases hcheck
      | some check =>
        cases hcheck
        exact ⟨json, dedicated, hspelled, hsays⟩
    · rintro ⟨json, dedicated, hspelled, hsays⟩
      have hsame := decode_eq_ok_iff_spelledBy.mpr ⟨json, _, _, hspelled, hsays, rfl⟩
      cases h.symm.trans hsame
      rfl
  · intro settings
    have hspelled : settings.toJson.SpelledBy settings.text :=
      Json.spelledBy_layout Layout.isSpacing_compact rfl
    exact decode_eq_ok_iff_spelledBy.mpr ⟨_, _, _, hspelled, says_toJson settings, rfl⟩

-- The lenient check of authors is named by a key with an escape in it, after a line break.
def lenientText : String :=
  "\n" ++ r#"{"feed_id_check":{"\u0073igil":null}}"#

theorem decode_lenientText :
    decode lenientText = .ok ⟨false, .sigil⟩ ∧
      ∃ json dedicated, json.SpelledBy lenientText ∧ Says json dedicated (some .sigil) := by
  have hbreak : '\n' ∈ [' ', '\t', '\n', '\r'] := by decide
  have hunit : Literal.unit? '0' '0' '7' '3' = some 's'.toNat := rfl
  have hletters : Literal.Spelling ['i', 'g', 'i', 'l'] ['i', 'g', 'i', 'l'] :=
    Literal.spelling_escaped ['i', 'g', 'i', 'l']
  have hkey := Lexeme.Spelling.text (.unit hunit rfl rfl hletters)
  have hcheck := Spaced.lexeme .openObject (.lexeme hkey (.lexeme .colon (.lexeme .null
    (.lexeme .closeObject (.lexeme .closeObject .nil)))))
  have htext := Spaced.space hbreak (.lexeme .openObject
    (.lexeme (Lexeme.spelling_literalChars "feed_id_check") (.lexeme .colon hcheck)))
  have hspelled : (Json.obj [("feed_id_check", .obj [("sigil", .null)])]).SpelledBy lenientText :=
    htext
  have hsays : Says (.obj [("feed_id_check", .obj [("sigil", .null)])]) none (some .sigil) :=
    .members (saidByMembers_cons_iff.mpr (.inr ⟨rfl, .sigil, .key, rfl,
      saidByMembers_nil_iff.mpr ⟨rfl, rfl⟩⟩))
  have hdecode : decode lenientText = .ok ⟨false, .sigil⟩ :=
    ((decode_eq_ok_iff lenientText).1 _).mpr ⟨_, none, some .sigil, hspelled, hsays, rfl⟩
  exact ⟨hdecode, (((decode_eq_ok_iff lenientText).2.1 _ hdecode).2).mp rfl⟩

end Settings

end FeedFilter
