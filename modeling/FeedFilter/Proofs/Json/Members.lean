import FeedFilter.Json.Basic

namespace FeedFilter.Members

-- The first member with a name counts.
theorem lookup_cons (key name : String) (value : Json) (rest : Members) :
    List.lookup name ((key, value) :: rest) = if name = key then some value else rest.lookup name := by
  by_cases h : name = key
  · subst h
    simp
  · rw [if_neg h, List.lookup_cons, beq_false_of_ne h]

-- No order of the members is needed here: the new member stands before all others that could
-- hide it.
theorem lookup_put (key name : String) (value : Json) (members : Members) :
    (members.put key value).lookup name = if name = key then some value else members.lookup name := by
  induction members with
  | nil => rw [put, lookup_cons]
  | cons member rest ih =>
    obtain ⟨first, found⟩ := member
    rw [put]
    by_cases hless : key < first
    · rw [if_pos hless, lookup_cons]
    · rw [if_neg hless]
      by_cases hsame : key = first
      · subst hsame
        rw [if_pos rfl, lookup_cons, lookup_cons]
        by_cases h : name = key <;> simp [h]
      · rw [if_neg hsame, lookup_cons, lookup_cons, ih]
        by_cases h : name = key
        · subst h
          simp [hsame]
        · simp [h]

theorem lookup_foldl_put (members known : Members) (name : String) :
    (members.foldl (fun known member => put member.1 member.2 known) known).lookup name =
      (members.reverse.lookup name).or (known.lookup name) := by
  induction members generalizing known with
  | nil => simp
  | cons member rest ih =>
    obtain ⟨key, value⟩ := member
    rw [List.foldl_cons, ih, lookup_put, List.reverse_cons, List.lookup_append, Option.or_assoc,
      lookup_cons]
    by_cases h : name = key <;> simp [h]

-- Of members with one key the last counts.
theorem lookup_ordered (members : Members) (name : String) :
    members.ordered.lookup name = members.reverse.lookup name := by
  rw [ordered, lookup_foldl_put]
  simp

theorem lookup_map (f : Json → Json) (members : Members) (name : String) :
    (members.map fun member => (member.1, f member.2)).lookup name = (members.lookup name).map f := by
  induction members with
  | nil => rfl
  | cons member rest ih =>
    obtain ⟨key, value⟩ := member
    rw [List.map_cons, lookup_cons, lookup_cons, ih]
    by_cases h : name = key <;> simp [h]

-- Looking up in an object as readers hold it.
theorem lookup_canonical (members : Members) (name : String) :
    (ordered (Json.canonicalMembers members)).lookup name =
      (members.reverse.lookup name).map Json.canonical := by
  rw [lookup_ordered, Json.canonicalMembers_eq_map, ← List.map_reverse, lookup_map]

end FeedFilter.Members
