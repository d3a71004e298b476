import FeedFilter.Proofs.Flat.Decode
import FeedFilter.Proofs.Formula.Decode
import FeedFilter.Proofs.Formula.Grammar

namespace FeedFilter

-- There are two ways from a text to a query: by checking the value that is read, and by reading
-- the fields one after the other. What is accepted on the first way is found on the second, too,
-- as long as nothing is repeated and no query stands in a text inside the text.
theorem Tier.decode_text_of_check {text : String} {written : Json}
    (hwritten : Json.decode (Outline.written Json.nestingLimit) text = .ok written)
    (hkeys : written.DistinctKeys) :
    (∀ accepts flat, Flat.check accepts (.str text) = .ok flat → Flat.decode text = .ok flat) ∧
      ∀ value formula, Json.read text = .ok value → Formula.Plain value →
        Formula.check (.str text) = .ok formula → Formula.decode text = .ok formula := by
  constructor
  · intro accepts flat
    exact Flat.decode_of_check hwritten hkeys
  · intro value formula hread hplain
    have hvalue : written.canonical = value :=
      Except.ok.inj ((Json.read_of_decode hwritten).symm.trans hread)
    subst hvalue
    exact Formula.decode_of_check hwritten hkeys hplain

-- A query in which the operators come last and the leaf has a member that means nothing, and the
-- value that a reader makes of it.
def Formula.opLast : Json :=
  .obj [("args", .arr [.obj [("string", .str "vote"), ("note", .arr []), ("op", .str "type")]]),
    ("op", .str "or")]

def Formula.opLastRead : Json :=
  .obj [("args", .arr [.obj [("note", .arr []), ("op", .str "type"), ("string", .str "vote")]]),
    ("op", .str "or")]

theorem Formula.plain_opLastRead : Plain opLastRead := by
  refine .obj fun _ _ _ args hargs => ?_
  cases hargs
  simp only [List.forall_mem_singleton]
  refine .obj fun name hname hop => ?_
  cases hop
  exact absurd hname (by decide)

theorem Tier.decode_text_op_last :
    Flat.decode (Flat.published "@a" "post").text = .ok (Flat.published "@a" "post") ∧
      Formula.decode Formula.opLast.compact = .ok (.or [.type "vote"]) := by
  constructor
  · have hwritten := Json.decode_compact (Flat.isFloatFree_toJson (Flat.published "@a" "post"))
      (by decide)
    have hkeys : (Flat.published "@a" "post").toJson.DistinctKeys := by
      refine .obj (by decide) ?_
      simp only [List.forall_mem_cons]
      exact ⟨.str, .str, .bool, nofun⟩
    rw [← Flat.text_eq_compact] at hwritten
    exact (Tier.decode_text_of_check hwritten hkeys).1 (fun _ => true) _
      (Flat.check_text _ (Flat.published "@a" "post"))
  · have hwritten : Json.decode (Outline.written Json.nestingLimit) Formula.opLast.compact =
        .ok Formula.opLast := Json.decode_compact rfl (by decide)
    have hkeys : Formula.opLast.DistinctKeys := by
      refine .obj (by decide) ?_
      simp only [List.forall_mem_cons]
      refine ⟨.arr ?_, .str, nofun⟩
      simp only [List.forall_mem_singleton]
      refine .obj (by decide) ?_
      simp only [List.forall_mem_cons]
      exact ⟨.str, .arr nofun, .str, nofun⟩
    have hread : Json.read Formula.opLast.compact = .ok Formula.opLastRead :=
      Json.read_of_decode hwritten
    have hdenotes : Formula.Denotes (.str Formula.opLast.compact) (.or [.type "vote"]) :=
      .text hread (.or rfl rfl (.cons (.type rfl rfl) .nil))
    exact (Tier.decode_text_of_check hwritten hkeys).2 _ _ hread Formula.plain_opLastRead
      ((Formula.check_iff_denotes _ _).mpr hdenotes)

end FeedFilter
