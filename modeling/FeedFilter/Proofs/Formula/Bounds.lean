import FeedFilter.Proofs.Formula.Grammar
import FeedFilter.Proofs.Formula.Text
import FeedFilter.Proofs.Json.Size

namespace FeedFilter.Formula

-- The least record of a node, without its arguments, takes 21 bytes.
theorem size_of_ofRecord {members : Members} {node : Node} (h : Node.ofRecord members = .ok node) :
    21 + Json.sizeItems node.args ≤ (Json.obj members).size := by
  have hcombinator : ∀ name args, 2 ≤ name.utf8ByteSize → members.lookup "op" = some (.str name) →
      members.lookup "args" = some (.arr args) →
      21 + Json.sizeItems args ≤ (Json.obj members).size := by
    intro name args hname hop hargs
    have hfields := Json.size_lookup_add_le (by decide) hop hargs
    have hopSize : "op".utf8ByteSize = 2 := rfl
    have hargsSize : "args".utf8ByteSize = 4 := rfl
    simp only [Json.size] at hfields ⊢
    omega
  have hleaf : ∀ name field text, 4 ≤ name.utf8ByteSize → 4 ≤ field.utf8ByteSize → "op" ≠ field →
      members.lookup "op" = some (.str name) → members.lookup field = some (.str text) →
      21 ≤ (Json.obj members).size := by
    intro name field text hname hfield hne hop htext
    have hfields := Json.size_lookup_add_le hne hop htext
    have hopSize : "op".utf8ByteSize = 2 := rfl
    simp only [Json.size] at hfields ⊢
    omega
  rcases Node.ofRecord_eq_ok_iff.mp h with ⟨args, hop, hargs, rfl⟩ | ⟨args, hop, hargs, rfl⟩ |
    ⟨name, hop, hname, rfl⟩ | ⟨feed, hop, hfeed, rfl⟩
  · exact hcombinator _ _ (by decide) hop hargs
  · exact hcombinator _ _ (by decide) hop hargs
  · exact hleaf _ _ _ (by decide) (by decide) (by decide) hop hname
  · exact hleaf _ _ _ (by decide) (by decide) (by decide) hop hfeed

theorem nodeCountAll_le_of_forall₂ {args : List Json} {formulas : List Formula}
    (hsize : ∀ arg ∈ args, ∀ formula, check arg = .ok formula → 21 * formula.nodeCount ≤ arg.size)
    (hall : List.Forall₂ (fun arg formula => check arg = .ok formula) args formulas) :
    21 * nodeCountAll formulas ≤ Json.sizeItems args := by
  induction hall with
  | nil => exact Nat.le_refl _
  | cons hfirst _ ih =>
    rw [nodeCountAll, Json.sizeItems]
    have hhead := hsize _ List.mem_cons_self _ hfirst
    have hrest := ih fun arg harg => hsize arg (List.mem_cons_of_mem _ harg)
    omega

theorem nodeCount_fill_le {members : Members} {node : Node} {formulas : List Formula}
    (hnode : Node.ofRecord members = .ok node) :
    (node.fill formulas).nodeCount ≤ 1 + nodeCountAll formulas := by
  rcases Node.ofRecord_eq_ok_iff.mp hnode with ⟨args, _, _, rfl⟩ | ⟨args, _, _, rfl⟩ |
    ⟨name, _, _, rfl⟩ | ⟨feed, _, _, rfl⟩
  · exact Nat.le_refl _
  · exact Nat.le_refl _
  · exact Nat.le_add_right 1 _
  · exact Nat.le_add_right 1 _

-- Every node of a query has a record of its own, be it in a text or not.
theorem nodeCount_le_of_check (query : Json) : ∀ formula, check query = .ok formula →
    21 * formula.nodeCount ≤ query.size := by
  induction query using induction_args with
  | step query ih =>
    intro formula hcheck
    obtain ⟨node, formulas, hnode, hall, rfl⟩ := check_eq_ok_iff.mp hcheck
    obtain ⟨members, hrecord, hmembers⟩ := Node.ofQuery_eq_ok_iff.mp hnode
    have hquery := Query.size_record hrecord
    have hobject := size_of_ofRecord hmembers
    have hargs := nodeCountAll_le_of_forall₂ (ih node hnode) hall
    have hfill : (node.fill formulas).nodeCount ≤ 1 + nodeCountAll formulas :=
      nodeCount_fill_le hmembers
    omega

theorem nodeCount_le_of_check_text {text : String} {formula : Formula}
    (hcheck : check (.str text) = .ok formula) : 21 * formula.nodeCount ≤ text.utf8ByteSize := by
  obtain ⟨node, _, hnode, _, _⟩ := check_eq_ok_iff.mp hcheck
  obtain ⟨members, hrecord, _⟩ := Node.ofQuery_eq_ok_iff.mp hnode
  rcases Query.record_eq_ok_iff.mp hrecord with hobj | ⟨_, htext, hread⟩
  · cases hobj
  · cases htext
    rw [check_of_read hread] at hcheck
    exact Nat.le_trans (nodeCount_le_of_check _ _ hcheck) (Json.size_le_of_read hread)

-- A check comes to an end for every value, although it may read a text at every node: a text holds
-- only shorter ones. For the same reason a query has no more nodes than its text has room for, and
-- the text of a combinator without arguments leaves no room.
theorem check_bounded :
    (∀ text value, Json.read text = .ok value → ∀ inner, Json.Occurs inner value →
      inner.utf8ByteSize < text.utf8ByteSize) ∧
    WellFounded Asks ∧
    (∀ text formula, check (.str text) = .ok formula →
      21 * formula.nodeCount ≤ text.utf8ByteSize) ∧
    check (.str r#"{"op":"or","args":[]}"#) = .ok (.or []) ∧
    21 * (Formula.or []).nodeCount = r#"{"op":"or","args":[]}"#.utf8ByteSize := by
  refine ⟨?_, wellFounded_asks, ?_, ?_, rfl⟩
  · intro text value hread inner hinner
    exact Json.utf8ByteSize_lt_of_read hread hinner
  · intro text formula hcheck
    exact nodeCount_le_of_check_text hcheck
  · have htext : (Formula.or []).text = r#"{"op":"or","args":[]}"# := rfl
    rw [← htext]
    exact check_text (by decide)

-- The quotes of a text in a text are escaped, so this one is well above the bound.
theorem check_bounded_text_in_text :
    (or []).text.utf8ByteSize <
        (Json.obj [("args", .arr [.str (or []).text]), ("op", .str "and")]).compact.utf8ByteSize ∧
      21 * (and [or []]).nodeCount ≤
        (Json.obj [("args", .arr [.str (or []).text]), ("op", .str "and")]).compact.utf8ByteSize := by
  have hfloat : (Json.obj [("args", .arr [.str (or []).text]),
      ("op", .str "and")]).isFloatFree = true := rfl
  have hread := (Json.read_compact hfloat).1 (by decide)
  have harg : Denotes (.str (or []).text) (or []) :=
    (check_iff_denotes _ _).mp (check_text (by decide))
  have hdenotes := Denotes.text hread (.and rfl rfl (.cons harg .nil))
  have hcheck := (check_iff_denotes _ _).mpr hdenotes
  have hinner : Json.Occurs (or []).text
      (.obj [("args", .arr [.str (or []).text]), ("op", .str "and")]) :=
    .member List.mem_cons_self (.item List.mem_cons_self .text)
  exact ⟨check_bounded.1 _ _ hread _ hinner, check_bounded.2.2.1 _ _ hcheck⟩

end FeedFilter.Formula
