import FeedFilter.Json.Size
import FeedFilter.Query.Record

namespace FeedFilter.Query

-- The record of a query is no larger than the query: a text is larger than what it holds.
theorem size_record {query : Json} {members : Members} (h : record query = .ok members) :
    (Json.obj members).size ≤ query.size := by
  unfold record at h
  split at h
  · split at h
    · cases h; exact Nat.le_refl _
    · split at h
      · next found hread =>
        cases h
        have := Json.size_le_of_read hread
        simp only [Json.size] at this ⊢
        omega
      · cases h
      · cases h
    · cases h
  · cases h

theorem size_lookup {members : Members} {name : String} {value : Json}
    (h : members.lookup name = some value) : value.size ≤ Json.sizeMembers members := by
  induction members with
  | nil => cases h
  | cons member rest ih =>
    obtain ⟨key, first⟩ := member
    rw [List.lookup_cons] at h
    rw [Json.sizeMembers]
    split at h
    · cases h; omega
    · have := ih h; omega

end FeedFilter.Query
