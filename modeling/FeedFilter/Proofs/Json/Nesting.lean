import FeedFilter.Json.Size

namespace FeedFilter

namespace Json

mutual

-- The number of containers that stand inside each other at most, the value itself included.
def nest : Json → Nat
  | .null => 0
  | .bool _ => 0
  | .num _ => 0
  | .str _ => 0
  | .arr items => 1 + nestItems items
  | .obj members => 1 + nestMembers members

def nestItems : List Json → Nat
  | [] => 0
  | item :: rest => max item.nest (nestItems rest)

def nestMembers : List (String × Json) → Nat
  | [] => 0
  | (_, value) :: rest => max value.nest (nestMembers rest)

end

theorem nest_le_nestMembers {members : Members} {name : String} {value : Json}
    (h : members.lookup name = some value) : value.nest ≤ nestMembers members := by
  induction members with
  | nil => cases h
  | cons member rest ih =>
    obtain ⟨key, first⟩ := member
    rw [nestMembers]
    rw [List.lookup_cons] at h
    split at h
    · cases h
      exact Nat.le_max_left _ _
    · exact Nat.le_trans (ih h) (Nat.le_max_right _ _)

theorem nestMembers_put (key : String) (value : Json) (members : Members) :
    nestMembers (Members.put key value members) ≤ max value.nest (nestMembers members) := by
  induction members with
  | nil => simp [Members.put, nestMembers]
  | cons member rest ih =>
    obtain ⟨first, found⟩ := member
    unfold Members.put
    repeat' split
    all_goals
      simp only [nestMembers] at ih ⊢
      omega

theorem nestMembers_foldl_put (members known : Members) :
    nestMembers (members.foldl (fun known member => Members.put member.1 member.2 known) known)
      ≤ max (nestMembers members) (nestMembers known) := by
  induction members generalizing known with
  | nil => simp [nestMembers]
  | cons member rest ih =>
    have hrest := ih (Members.put member.1 member.2 known)
    have hput := nestMembers_put member.1 member.2 known
    simp only [List.foldl_cons, nestMembers]
    omega

theorem nestMembers_ordered (members : Members) :
    nestMembers members.ordered ≤ nestMembers members := by
  simpa [Members.ordered, nestMembers] using nestMembers_foldl_put members []

mutual

-- Members that are hidden by later ones with their key take their containers with them.
theorem nest_canonical_le : ∀ json : Json, json.canonical.nest ≤ json.nest
  | .null | .bool _ | .num _ | .str _ => by simp [canonical]
  | .arr items => by
    have := nestItems_canonical_le items
    simp only [canonical, nest]
    omega
  | .obj members => by
    have hmembers := nestMembers_canonical_le members
    have hordered := nestMembers_ordered (canonicalMembers members)
    simp only [canonical, nest]
    omega

theorem nestItems_canonical_le : ∀ items : List Json,
    nestItems (canonicalItems items) ≤ nestItems items
  | [] => by simp [canonicalItems]
  | item :: rest => by
    have hitem := nest_canonical_le item
    have hrest := nestItems_canonical_le rest
    simp only [canonicalItems, nestItems]
    omega

theorem nestMembers_canonical_le : ∀ members : List (String × Json),
    nestMembers (canonicalMembers members) ≤ nestMembers members
  | [] => by simp [canonicalMembers]
  | (key, value) :: rest => by
    have hvalue := nest_canonical_le value
    have hrest := nestMembers_canonical_le rest
    simp only [canonicalMembers, nestMembers]
    omega

end

end Json

theorem Token.nest_value {token : Token} {json : Json} (h : token.value = .ok json) :
    json.nest = 0 := by
  unfold value at h
  split at h
  case h_3 =>
    obtain ⟨number, _, rfl⟩ := Except.map_eq_ok h
    rfl
  case h_4 =>
    obtain ⟨text, _, rfl⟩ := Except.map_eq_ok h
    rfl
  all_goals cases h
  all_goals rfl

mutual

theorem Outline.nest_written : ∀ (outline : Outline) {levels : Nat} {json : Json},
    outline.written levels = .ok json → json.nest ≤ levels
  | .scalar token, levels, json, h => by
    rw [Token.nest_value h]
    exact Nat.zero_le _
  | .broken fault, levels, json, h => by cases h
  | .list start items, 0, json, h => by cases h
  | .list start items, inner + 1, json, h => by
    obtain ⟨found, hfound, rfl⟩ := Except.map_eq_ok h
    have := items.nest_written hfound
    rw [Json.nest]
    omega
  | .object start fields, 0, json, h => by cases h
  | .object start fields, inner + 1, json, h => by
    obtain ⟨found, hfound, rfl⟩ := Except.map_eq_ok h
    have := fields.nest_written hfound
    rw [Json.nest]
    omega

theorem Items.nest_written : ∀ (items : Items) {levels : Nat} {found : List Json},
    items.written levels = .ok found → Json.nestItems found ≤ levels
  | .close, levels, found, h => by
    cases h
    exact Nat.zero_le _
  | .stuck gap, levels, found, h => by cases h
  | .item start value more, levels, found, h => by
    obtain ⟨first, hfirst, h⟩ := Except.bind_eq_ok h
    obtain ⟨others, hothers, h⟩ := Except.bind_eq_ok h
    cases h
    exact Nat.max_le.mpr ⟨value.nest_written hfirst, more.nest_written hothers⟩

theorem Fields.nest_written : ∀ (fields : Fields) {levels : Nat} {found : List (String × Json)},
    fields.written levels = .ok found → Json.nestMembers found ≤ levels
  | .close place, levels, found, h => by
    cases h
    exact Nat.zero_le _
  | .stuck gap, levels, found, h => by cases h
  | .noKey key, levels, found, h => by cases h
  | .field key colon value next more, levels, found, h => by
    obtain ⟨name, _, h⟩ := Except.bind_eq_ok h
    obtain ⟨first, hfirst, h⟩ := Except.bind_eq_ok h
    obtain ⟨others, hothers, h⟩ := Except.bind_eq_ok h
    cases h
    exact Nat.max_le.mpr ⟨value.nest_written hfirst, more.nest_written hothers⟩

end

namespace Json

theorem nest_le_of_readWithin {levels : Nat} {text : String} {value : Json}
    (h : readWithin levels text = .ok value) : value.nest ≤ levels := by
  obtain ⟨json, hdecode, rfl⟩ := Except.map_eq_ok h
  exact Nat.le_trans (nest_canonical_le json) (Outline.nest_written _ (written_of_decode hdecode))

theorem nest_le_of_read {text : String} {value : Json} (h : read text = .ok value) :
    value.nest ≤ nestingLimit :=
  nest_le_of_readWithin h

end Json

end FeedFilter
