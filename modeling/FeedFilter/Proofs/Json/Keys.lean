import FeedFilter.Fallible
import FeedFilter.Json.Reader
import FeedFilter.Proofs.Json.Members
import Mathlib.Data.List.Dedup
import Mathlib.Data.List.Perm.Subperm

namespace FeedFilter.Members

-- Each key is less than all keys after it. Readers hold objects so, and then there is only one
-- list of members for what can be looked up.
def Ascending (members : Members) : Prop :=
  members.Pairwise fun first second => first.1 < second.1

section Keys

variable {members others : Members} {name : String} {value : Json}

theorem mem_of_lookup (h : members.lookup name = some value) : (name, value) ∈ members := by
  obtain ⟨before, after, rfl, _⟩ := List.lookup_eq_some_iff.mp h
  simp

theorem lookup_eq_some_iff_mem (hkeys : (members.map Prod.fst).Nodup) :
    members.lookup name = some value ↔ (name, value) ∈ members := by
  refine ⟨mem_of_lookup, ?_⟩
  induction members with
  | nil => intro h; cases h
  | cons member rest ih =>
    obtain ⟨key, first⟩ := member
    rw [List.map_cons, List.nodup_cons] at hkeys
    intro h
    rw [lookup_cons]
    rcases List.mem_cons.mp h with hfirst | hrest
    · cases hfirst
      rw [if_pos rfl]
    · have hne : name ≠ key := by
        rintro rfl
        exact hkeys.1 (List.mem_map.mpr ⟨_, hrest, rfl⟩)
      rw [if_neg hne]
      exact ih hkeys.2 hrest

-- Without repeated keys the order of the members makes no difference to what is looked up.
theorem lookup_perm (hperm : members.Perm others) (hkeys : (members.map Prod.fst).Nodup)
    (name : String) : members.lookup name = others.lookup name := by
  have hothers : (others.map Prod.fst).Nodup := (hperm.map Prod.fst).nodup_iff.mp hkeys
  apply Option.ext
  intro value
  rw [lookup_eq_some_iff_mem hkeys, lookup_eq_some_iff_mem hothers]
  exact hperm.mem_iff

theorem nodup_of_ascending (h : members.Ascending) : (members.map Prod.fst).Nodup := by
  rw [List.Nodup, List.pairwise_map]
  apply h.imp
  intro first second hless hsame
  rw [hsame] at hless
  exact String.lt_irrefl _ hless

theorem lookup_eq_none_iff : members.lookup name = none ↔ name ∉ members.map Prod.fst := by
  rw [List.lookup_eq_none_iff, List.mem_map]
  constructor
  · rintro h ⟨member, hmember, rfl⟩
    simpa using h member hmember
  · intro h member hmember
    rw [bne_iff_ne]
    rintro rfl
    exact h ⟨member, hmember, rfl⟩

-- Names that are all looked up and found leave no room for another, if there are no more members
-- than names.
theorem perm_keys_of_lookup {names : List String} (hnames : names.Nodup)
    (hbound : members.length ≤ names.length)
    (hfound : ∀ name ∈ names, ∃ value, members.lookup name = some value) :
    names.Perm (members.map Prod.fst) := by
  have hsubset : names ⊆ members.map Prod.fst := by
    intro name hname
    obtain ⟨value, hvalue⟩ := hfound name hname
    exact List.mem_map.mpr ⟨_, mem_of_lookup hvalue, rfl⟩
  apply (List.subperm_of_subset hnames hsubset).perm_of_length_le
  rwa [List.length_map]

theorem lookup_eq_none_of_bound {names : List String} (hnames : names.Nodup)
    (hbound : members.length ≤ names.length)
    (hfound : ∀ name ∈ names, ∃ value, members.lookup name = some value) (hname : name ∉ names) :
    members.lookup name = none := by
  rwa [lookup_eq_none_iff, ← (perm_keys_of_lookup hnames hbound hfound).mem_iff]

theorem eq_of_perm (hmembers : members.Ascending) (hothers : others.Ascending)
    (hperm : members.Perm others) : members = others := by
  apply List.Perm.eq_of_pairwise _ hmembers hothers hperm
  intro first second _ _ hless hgreater
  exact absurd hgreater (String.lt_asymm hless)

end Keys

section Order

variable {key : String} {value : Json} {member : String × Json}

theorem mem_put {members : Members} (h : member ∈ members.put key value) :
    member = (key, value) ∨ member ∈ members := by
  induction members with
  | nil => exact .inl (List.mem_singleton.mp h)
  | cons first rest ih =>
    rw [put] at h
    by_cases hless : key < first.1
    · rw [if_pos hless] at h
      exact List.mem_cons.mp h
    · rw [if_neg hless] at h
      by_cases hsame : key = first.1
      · rw [if_pos hsame] at h
        rcases List.mem_cons.mp h with hfirst | hrest
        · exact .inl hfirst
        · exact .inr (List.mem_cons_of_mem _ hrest)
      · rw [if_neg hsame] at h
        rcases List.mem_cons.mp h with rfl | hrest
        · exact .inr List.mem_cons_self
        · rcases ih hrest with hnew | hold
          · exact .inl hnew
          · exact .inr (List.mem_cons_of_mem _ hold)

theorem ascending_put {members : Members} (h : members.Ascending) :
    (members.put key value).Ascending := by
  induction members with
  | nil => exact List.pairwise_singleton _ _
  | cons first rest ih =>
    obtain ⟨hfirst, hrest⟩ := List.pairwise_cons.mp h
    rw [put]
    by_cases hless : key < first.1
    · rw [if_pos hless]
      apply List.pairwise_cons.mpr
      refine ⟨?_, h⟩
      intro member hmember
      rcases List.mem_cons.mp hmember with rfl | hmember
      · exact hless
      · exact String.lt_trans hless (hfirst member hmember)
    · rw [if_neg hless]
      by_cases hsame : key = first.1
      · rw [if_pos hsame]
        apply List.pairwise_cons.mpr
        refine ⟨?_, hrest⟩
        intro member hmember
        rw [hsame]
        exact hfirst member hmember
      · rw [if_neg hsame]
        apply List.pairwise_cons.mpr
        refine ⟨?_, ih hrest⟩
        intro member hmember
        rcases mem_put hmember with rfl | hold
        · exact Std.lt_of_le_of_ne hless (Ne.symm hsame)
        · exact hfirst member hold

theorem ascending_foldl_put (members : Members) {known : Members} (h : known.Ascending) :
    (members.foldl (fun known member => put member.1 member.2 known) known).Ascending := by
  induction members generalizing known with
  | nil => exact h
  | cons member rest ih => exact ih (ascending_put h)

theorem ascending_ordered (members : Members) : members.ordered.Ascending :=
  ascending_foldl_put members List.Pairwise.nil

-- A key that is new leaves all members where they were.
theorem put_perm (value : Json) {members : Members} (h : key ∉ members.map Prod.fst) :
    (members.put key value).Perm ((key, value) :: members) := by
  induction members with
  | nil => exact List.Perm.refl _
  | cons first rest ih =>
    rw [List.map_cons, List.mem_cons, not_or] at h
    rw [put]
    by_cases hless : key < first.1
    · rw [if_pos hless]
    · rw [if_neg hless, if_neg h.1]
      have hrest := (ih h.2).cons first
      exact hrest.trans (List.Perm.swap _ _ _)

theorem foldl_put_perm {members known : Members}
    (h : ((members ++ known).map Prod.fst).Nodup) :
    (members.foldl (fun known member => put member.1 member.2 known) known).Perm
      (members ++ known) := by
  induction members generalizing known with
  | nil => exact List.Perm.refl _
  | cons member rest ih =>
    rw [List.cons_append, List.map_cons, List.nodup_cons, List.map_append, List.mem_append,
      not_or] at h
    have hput := put_perm member.2 h.1.2
    have hmoved : (rest ++ known.put member.1 member.2).Perm (member :: (rest ++ known)) :=
      (hput.append_left rest).trans List.perm_middle
    have hkeys : ((rest ++ known.put member.1 member.2).map Prod.fst).Nodup := by
      rw [(hmoved.map Prod.fst).nodup_iff, List.map_cons, List.nodup_cons, List.map_append,
        List.mem_append, not_or]
      exact h
    exact (ih hkeys).trans hmoved

-- Putting members in order loses none of them if no key is repeated.
theorem ordered_perm {members : Members} (h : (members.map Prod.fst).Nodup) :
    members.ordered.Perm members := by
  have hkeys : ((members ++ []).map Prod.fst).Nodup := by rwa [List.append_nil]
  have hperm := foldl_put_perm hkeys
  rwa [List.append_nil] at hperm

theorem ordered_of_ascending {members : Members} (h : members.Ascending) :
    members.ordered = members :=
  eq_of_perm (ascending_ordered members) h (ordered_perm (nodup_of_ascending h))

-- No key is lost, and of one that is repeated one is left.
theorem mem_keys_ordered {members : Members} {name : String} :
    name ∈ members.ordered.map Prod.fst ↔ name ∈ members.map Prod.fst := by
  rw [← not_iff_not, ← lookup_eq_none_iff, lookup_ordered, lookup_eq_none_iff, List.map_reverse,
    List.mem_reverse]

theorem length_ordered (members : Members) :
    members.ordered.length = (members.map Prod.fst).dedup.length := by
  have hkeys := nodup_of_ascending (ascending_ordered members)
  have hperm : (members.ordered.map Prod.fst).Perm (members.map Prod.fst).dedup := by
    rw [List.perm_ext_iff_of_nodup hkeys (List.nodup_dedup _)]
    intro name
    rw [mem_keys_ordered, List.mem_dedup]
  rw [← hperm.length_eq, List.length_map]

theorem put_map (f : Json → Json) (members : Members) :
    Members.put key (f value) (members.map fun member => (member.1, f member.2)) =
      (members.put key value).map fun member => (member.1, f member.2) := by
  induction members with
  | nil => rfl
  | cons first rest ih =>
    rw [List.map_cons, put, put, ih]
    by_cases hless : key < first.1
    · rw [if_pos hless, if_pos hless]
      rfl
    · by_cases hsame : key = first.1
      · rw [if_neg hless, if_neg hless, if_pos hsame, if_pos hsame]
        rfl
      · rw [if_neg hless, if_neg hless, if_neg hsame, if_neg hsame]
        rfl

theorem foldl_put_map (f : Json → Json) (members known : Members) :
    (members.map fun member => (member.1, f member.2)).foldl
        (fun known member => put member.1 member.2 known)
        (known.map fun member => (member.1, f member.2)) =
      (members.foldl (fun known member => put member.1 member.2 known) known).map
        fun member => (member.1, f member.2) := by
  induction members generalizing known with
  | nil => rfl
  | cons member rest ih => rw [List.map_cons, List.foldl_cons, List.foldl_cons, put_map, ih]

-- The order is one of the keys alone.
theorem ordered_map (f : Json → Json) (members : Members) :
    ordered (members.map fun member => (member.1, f member.2)) =
      members.ordered.map fun member => (member.1, f member.2) :=
  foldl_put_map f members []

end Order

end FeedFilter.Members

namespace FeedFilter.Json

-- A value with nothing inside.
def isScalar : Json → Bool
  | .arr _ => false
  | .obj _ => false
  | _ => true

-- What a value was before its members were put in order.
section Canonical

variable {json value : Json}

theorem eq_of_canonical_scalar (h : json.canonical = value) (hvalue : value.isScalar = true) :
    json = value := by
  subst h
  cases json with
  | arr items => cases hvalue
  | obj members => cases hvalue
  | null => rfl
  | bool value => rfl
  | num value => rfl
  | str text => rfl

theorem eq_obj_of_canonical {members : Members} (h : json.canonical = .obj members) :
    ∃ written, json = .obj written ∧ members = Members.ordered (canonicalMembers written) := by
  cases json with
  | obj written => exact ⟨written, rfl, (Json.obj.inj h).symm⟩
  | null => cases h
  | bool value => cases h
  | num value => cases h
  | str text => cases h
  | arr items => cases h

theorem eq_arr_of_canonical {items : List Json} (h : json.canonical = .arr items) :
    ∃ written, json = .arr written ∧ items = canonicalItems written := by
  cases json with
  | arr written => exact ⟨written, rfl, (Json.arr.inj h).symm⟩
  | null => cases h
  | bool value => cases h
  | num value => cases h
  | str text => cases h
  | obj members => cases h

end Canonical

mutual

-- A value as a reader holds it stays as it is.
theorem canonical_canonical : ∀ json : Json, json.canonical.canonical = json.canonical
  | .null | .bool _ | .num _ | .str _ => rfl
  | .arr items => by
    rw [canonical, canonical, canonicalItems_canonicalItems items]
  | .obj members => by
    have hmembers := canonicalMembers_canonicalMembers members
    have hascending := Members.ascending_ordered (canonicalMembers members)
    rw [canonicalMembers_eq_map] at hmembers
    rw [canonical, canonical, canonicalMembers_eq_map (Members.ordered _), ← Members.ordered_map,
      hmembers, Members.ordered_of_ascending hascending]

theorem canonicalItems_canonicalItems : ∀ items : List Json,
    canonicalItems (canonicalItems items) = canonicalItems items
  | [] => rfl
  | item :: rest => by
    rw [canonicalItems, canonicalItems, canonical_canonical item,
      canonicalItems_canonicalItems rest]

theorem canonicalMembers_canonicalMembers : ∀ members : Members,
    canonicalMembers (canonicalMembers members) = canonicalMembers members
  | [] => rfl
  | (key, value) :: rest => by
    rw [canonicalMembers, canonicalMembers, canonical_canonical value,
      canonicalMembers_canonicalMembers rest]

end

-- Readers give objects with ascending keys, whatever their order in the text.
theorem ascending_of_read {text : String} {members : Members} (h : read text = .ok (.obj members)) :
    members.Ascending := by
  obtain ⟨json, _, hcanonical⟩ := Except.map_eq_ok h
  obtain ⟨written, _, rfl⟩ := eq_obj_of_canonical hcanonical
  exact Members.ascending_ordered _

-- No object in a value has two members with one key. This is said of a value as it is written, for
-- in one that has been read the members that are hidden by others are gone.
inductive DistinctKeys : Json → Prop
  | null : DistinctKeys .null
  | bool {value} : DistinctKeys (.bool value)
  | num {number} : DistinctKeys (.num number)
  | str {text} : DistinctKeys (.str text)
  | arr {items} : (∀ item ∈ items, DistinctKeys item) → DistinctKeys (.arr items)
  | obj {members} : (members.map Prod.fst).Nodup →
      (∀ member ∈ members, DistinctKeys member.2) → DistinctKeys (.obj members)

-- What a reader finds in an object is what is written in it, if no key is repeated.
section Written

variable {written : Members} {name : String} {value : Json}

theorem ordered_canonicalMembers_perm (h : (written.map Prod.fst).Nodup) :
    (Members.ordered (canonicalMembers written)).Perm
      (written.map fun member => (member.1, member.2.canonical)) := by
  rw [canonicalMembers_eq_map]
  apply Members.ordered_perm
  rw [List.map_map]
  exact h

theorem length_ordered_canonicalMembers (written : Members) :
    (Members.ordered (canonicalMembers written)).length = (written.map Prod.fst).dedup.length := by
  rw [Members.length_ordered, canonicalMembers_eq_map, List.map_map]
  rfl

theorem lookup_ordered_of_nodup (h : (written.map Prod.fst).Nodup) (name : String) :
    (Members.ordered (canonicalMembers written)).lookup name =
      (written.lookup name).map canonical := by
  rw [Members.lookup_perm (ordered_canonicalMembers_perm h)
    (Members.nodup_of_ascending (Members.ascending_ordered _)), Members.lookup_map]

theorem length_ordered_of_nodup (h : (written.map Prod.fst).Nodup) :
    (Members.ordered (canonicalMembers written)).length = written.length := by
  rw [(ordered_canonicalMembers_perm h).length_eq, List.length_map]

theorem lookup_of_lookup_scalar (h : (written.map Prod.fst).Nodup) (hvalue : value.isScalar = true)
    (hfound : (Members.ordered (canonicalMembers written)).lookup name = some value) :
    written.lookup name = some value := by
  rw [lookup_ordered_of_nodup h, Option.map_eq_some_iff] at hfound
  obtain ⟨json, hjson, hcanonical⟩ := hfound
  rw [hjson, eq_of_canonical_scalar hcanonical hvalue]

theorem lookup_of_lookup_arr {items : List Json} (h : (written.map Prod.fst).Nodup)
    (hfound : (Members.ordered (canonicalMembers written)).lookup name = some (.arr items)) :
    ∃ others, written.lookup name = some (.arr others) ∧ items = canonicalItems others := by
  rw [lookup_ordered_of_nodup h, Option.map_eq_some_iff] at hfound
  obtain ⟨json, hjson, hcanonical⟩ := hfound
  obtain ⟨others, rfl, hitems⟩ := eq_arr_of_canonical hcanonical
  exact ⟨others, hjson, hitems⟩

end Written

end FeedFilter.Json
