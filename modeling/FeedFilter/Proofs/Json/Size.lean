import FeedFilter.Json.Size
import FeedFilter.Proofs.Json.Keys

namespace FeedFilter.Json

theorem size_le_sizeItems {item : Json} {items : List Json} (h : item ∈ items) :
    item.size ≤ sizeItems items := by
  induction items with
  | nil => cases h
  | cons first rest ih =>
    rw [sizeItems]
    rcases List.mem_cons.mp h with rfl | h
    · exact Nat.le_add_right _ _
    · exact Nat.le_trans (ih h) (Nat.le_add_left _ _)

theorem size_le_sizeMembers {members : Members} {key : String} {value : Json}
    (h : (key, value) ∈ members) :
    key.utf8ByteSize + 4 + value.size ≤ sizeMembers members := by
  induction members with
  | nil => cases h
  | cons member rest ih =>
    rw [sizeMembers]
    rcases List.mem_cons.mp h with rfl | h
    · exact Nat.le_add_right _ _
    · exact Nat.le_trans (ih h) (Nat.le_add_left _ _)

-- Members that are found under different names are different members.
theorem size_lookup_add_le {members : Members} {name other : String} {value found : Json}
    (hne : name ≠ other) (hname : members.lookup name = some value)
    (hother : members.lookup other = some found) :
    (name.utf8ByteSize + 4 + value.size) + (other.utf8ByteSize + 4 + found.size) ≤
      sizeMembers members := by
  induction members with
  | nil => cases hname
  | cons member rest ih =>
    obtain ⟨key, first⟩ := member
    rw [Members.lookup_cons] at hname hother
    rw [sizeMembers]
    by_cases hkey : name = key
    · subst hkey
      rw [if_pos rfl] at hname
      rw [if_neg hne.symm] at hother
      cases hname
      have hrest := size_le_sizeMembers (Members.mem_of_lookup hother)
      omega
    · rw [if_neg hkey] at hname
      by_cases hkey : other = key
      · subst hkey
        rw [if_pos rfl] at hother
        cases hother
        have hrest := size_le_sizeMembers (Members.mem_of_lookup hname)
        omega
      · rw [if_neg hkey] at hother
        have hrest := ih hname hother
        omega

-- A text stands in a value: as the value, in an item of a list, or as a key or in a member of an
-- object.
inductive Occurs (text : String) : Json → Prop
  | text : Occurs text (.str text)
  | item {item items} : item ∈ items → Occurs text item → Occurs text (.arr items)
  | key {value members} : (text, value) ∈ members → Occurs text (.obj members)
  | member {key value members} : (key, value) ∈ members → Occurs text value →
      Occurs text (.obj members)

theorem size_of_occurs {text : String} {value : Json} (h : Occurs text value) :
    text.utf8ByteSize + 2 ≤ value.size := by
  induction h with
  | text => exact Nat.le_refl _
  | item hitem _ ih =>
    have hitems := size_le_sizeItems hitem
    rw [size]
    omega
  | key hkey =>
    have hmembers := size_le_sizeMembers hkey
    rw [size]
    omega
  | member hmember _ ih =>
    have hmembers := size_le_sizeMembers hmember
    rw [size]
    omega

-- Quotes are lost when a text is read, and no escape is shorter than what it stands for.
theorem utf8ByteSize_lt_of_read {text inner : String} {value : Json}
    (hread : read text = .ok value) (h : Occurs inner value) :
    inner.utf8ByteSize < text.utf8ByteSize := by
  have hinner := size_of_occurs h
  have hvalue := size_le_of_read hread
  omega

end FeedFilter.Json
