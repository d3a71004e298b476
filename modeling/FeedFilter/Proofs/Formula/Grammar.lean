import FeedFilter.Proofs.Formula.Check
import FeedFilter.Proofs.Formula.Node
import FeedFilter.Service

namespace FeedFilter.Formula

-- What a value says as a query. Members that are not named here say nothing, and a text stands
-- for the object that is written in it, but not for a text in it.
inductive Denotes : Json → Formula → Prop
  | text {text members formula} : Json.read text = .ok (.obj members) →
      Denotes (.obj members) formula → Denotes (.str text) formula
  | and {members args formulas} : members.lookup "op" = some (.str "and") →
      members.lookup "args" = some (.arr args) → List.Forall₂ Denotes args formulas →
      Denotes (.obj members) (.and formulas)
  | or {members args formulas} : members.lookup "op" = some (.str "or") →
      members.lookup "args" = some (.arr args) → List.Forall₂ Denotes args formulas →
      Denotes (.obj members) (.or formulas)
  | type {members name} : members.lookup "op" = some (.str "type") →
      members.lookup "string" = some (.str name) → Denotes (.obj members) (.type name)
  | author {members feed} : members.lookup "op" = some (.str "author") →
      members.lookup "feed" = some (.str feed) → Denotes (.obj members) (.author feed)

-- An object says what its node says, filled with what the arguments say.
theorem denotes_obj_iff {members : Members} {formula : Formula} :
    Denotes (.obj members) formula ↔
      ∃ node formulas, Node.ofRecord members = .ok node ∧
        List.Forall₂ Denotes node.args formulas ∧ formula = node.fill formulas := by
  constructor
  · intro h
    cases h with
    | and hop hargs hall =>
      exact ⟨.and _, _, Node.ofRecord_eq_ok_iff.mpr (.inl ⟨_, hop, hargs, rfl⟩), hall, rfl⟩
    | or hop hargs hall =>
      exact ⟨.or _, _, Node.ofRecord_eq_ok_iff.mpr (.inr (.inl ⟨_, hop, hargs, rfl⟩)), hall, rfl⟩
    | type hop hname =>
      exact ⟨.leaf _, [], Node.ofRecord_eq_ok_iff.mpr (.inr (.inr (.inl ⟨_, hop, hname, rfl⟩))),
        .nil, rfl⟩
    | author hop hfeed =>
      exact ⟨.leaf _, [], Node.ofRecord_eq_ok_iff.mpr (.inr (.inr (.inr ⟨_, hop, hfeed, rfl⟩))),
        .nil, rfl⟩
  · rintro ⟨node, formulas, hnode, hall, rfl⟩
    rcases Node.ofRecord_eq_ok_iff.mp hnode with ⟨args, hop, hargs, rfl⟩ | ⟨args, hop, hargs, rfl⟩ |
      ⟨name, hop, hname, rfl⟩ | ⟨feed, hop, hfeed, rfl⟩
    · exact .and hop hargs hall
    · exact .or hop hargs hall
    · exact .type hop hname
    · exact .author hop hfeed

theorem denotes_iff {query : Json} {formula : Formula} :
    Denotes query formula ↔
      ∃ node formulas, Node.ofQuery query = .ok node ∧
        List.Forall₂ Denotes node.args formulas ∧ formula = node.fill formulas := by
  constructor
  · intro h
    obtain ⟨members, hrecord, hobj⟩ :
        ∃ members, Query.record query = .ok members ∧ Denotes (.obj members) formula := by
      cases h with
      | text hread hobj => exact ⟨_, Query.record_text hread, hobj⟩
      | and hop hargs hall => exact ⟨_, Query.record_obj _, .and hop hargs hall⟩
      | or hop hargs hall => exact ⟨_, Query.record_obj _, .or hop hargs hall⟩
      | type hop hname => exact ⟨_, Query.record_obj _, .type hop hname⟩
      | author hop hfeed => exact ⟨_, Query.record_obj _, .author hop hfeed⟩
    obtain ⟨node, formulas, hnode, hall, hfill⟩ := denotes_obj_iff.mp hobj
    exact ⟨node, formulas, Node.ofQuery_eq_ok_iff.mpr ⟨members, hrecord, hnode⟩, hall, hfill⟩
  · rintro ⟨node, formulas, hquery, hall, hfill⟩
    obtain ⟨members, hrecord, hnode⟩ := Node.ofQuery_eq_ok_iff.mp hquery
    have hobj := denotes_obj_iff.mpr ⟨node, formulas, hnode, hall, hfill⟩
    rcases Query.record_eq_ok_iff.mp hrecord with rfl | ⟨text, rfl, hread⟩
    · exact hobj
    · exact .text hread hobj

theorem forall₂_congr {α β : Type} {r s : α → β → Prop} {xs : List α} {ys : List β}
    (h : ∀ x ∈ xs, ∀ y, r x y ↔ s x y) : List.Forall₂ r xs ys ↔ List.Forall₂ s xs ys := by
  induction xs generalizing ys with
  | nil => rw [List.forall₂_nil_left_iff, List.forall₂_nil_left_iff]
  | cons x xs ih =>
    have hrest : ∀ ys, List.Forall₂ r xs ys ↔ List.Forall₂ s xs ys :=
      fun _ => ih fun y hy => h y (List.mem_cons_of_mem x hy)
    simp only [List.forall₂_cons_left_iff, h x (by simp), hrest]

-- Checking and meaning take the same step from a query to its arguments.
theorem check_iff_denotes (query : Json) :
    ∀ formula, check query = .ok formula ↔ Denotes query formula := by
  induction query using induction_args with
  | step query ih =>
    intro formula
    rw [check_eq_ok_iff, denotes_iff]
    constructor
    · rintro ⟨node, formulas, hnode, hall, hfill⟩
      exact ⟨node, formulas, hnode, (forall₂_congr (ih node hnode)).mp hall, hfill⟩
    · rintro ⟨node, formulas, hnode, hall, hfill⟩
      exact ⟨node, formulas, hnode, (forall₂_congr (ih node hnode)).mpr hall, hfill⟩

-- A service finds a query valid if the value says anything at all, and no value says two things.
theorem check_eq_ok_iff_denotes (query : Json) :
    (∀ formula, check query = .ok formula ↔ Denotes query formula) ∧
      (∀ formula other, Denotes query formula → Denotes query other → formula = other) ∧
      ∀ service : Service, service.validate query .ql1 = .valid ↔
        ∃ formula, Denotes query formula := by
  have hiff := check_iff_denotes query
  refine ⟨hiff, ?_, ?_⟩
  · intro formula other hformula hother
    have hsame := ((hiff formula).mpr hformula).symm.trans ((hiff other).mpr hother)
    exact Except.ok.inj hsame
  · intro service
    simp only [← hiff]
    cases hcheck : check query with
    | error error => simp [Service.validate, Service.reply, hcheck]
    | ok formula => simp [Service.validate, Service.reply, hcheck]

end FeedFilter.Formula
