import FeedFilter.Formula.Decode
import FeedFilter.Proofs.Formula.Text
import FeedFilter.Proofs.Json.Form

namespace FeedFilter

-- The fields of a query are found as they are written if its operator is known. The operator is
-- the only field that is looked at before the object is at its end.
theorem Fields.tagged_of_written : ∀ (fields : Fields) {members : Members} {levels : Nat}
    {seen : Bool}, fields.written levels = .ok members → (members.map Prod.fst).Nodup →
    (∀ value, ("op", value) ∈ members → ∃ name ∈ Formula.operatorNames, value = .str name) →
    (seen = true → "op" ∉ members.map Prod.fst) → fields.tagged levels seen = .ok members
  | .close place, members, levels, seen, h, hkeys, hop, hseen => by
    cases h
    rfl
  | .stuck gap, members, levels, seen, h, hkeys, hop, hseen => by cases h
  | .noKey found, members, levels, seen, h, hkeys, hop, hseen => by cases h
  | .field key colon outline next more, members, levels, seen, h, hkeys, hop, hseen => by
    obtain ⟨name, hname, h⟩ := Except.bind_eq_ok h
    obtain ⟨value, hvalue, h⟩ := Except.bind_eq_ok h
    obtain ⟨rest, hrest, h⟩ := Except.bind_eq_ok h
    cases h
    rw [List.map_cons, List.nodup_cons] at hkeys
    rw [List.map_cons, List.mem_cons, not_or] at hseen
    have hops : ∀ value, ("op", value) ∈ rest → ∃ name ∈ Formula.operatorNames, value = .str name :=
      fun value hmember => hop value (List.mem_cons_of_mem _ hmember)
    by_cases hsame : name = "op"
    · subst hsame
      have hfirst : seen = false := by
        apply Bool.eq_false_iff.mpr
        intro htrue
        exact (hseen htrue).1 rfl
      obtain ⟨operator, hknown, rfl⟩ := hop value List.mem_cons_self
      have hmore := more.tagged_of_written hrest hkeys.2 hops fun _ : true = true => hkeys.1
      have hread := Outline.readVariant_of_written hvalue hknown
      simp only [tagged, hname, bind, Except.bind, if_true, hfirst, Bool.false_eq_true, if_false,
        hread, Except.map, Bool.false_or, decide_true, hmore]
      rfl
    · have hmore := more.tagged_of_written hrest hkeys.2 hops fun htrue => (hseen htrue).2
      simp only [tagged, hname, bind, Except.bind, hvalue, hsame, decide_false,
        Bool.or_false, hmore]
      rfl

namespace Formula

-- Without repeated keys a name belongs to one member at most.
theorem sole?_of_nodup {members : Members} (h : (members.map Prod.fst).Nodup) (name : String) :
    sole? members name = members.lookup name := by
  induction members with
  | nil => rfl
  | cons member rest ih =>
    obtain ⟨key, value⟩ := member
    rw [List.map_cons, List.nodup_cons] at h
    rw [sole?, Members.lookup_cons]
    by_cases hname : name = key
    · subst hname
      have hrest : rest.filter (·.1 = name) = [] := by
        apply List.filter_eq_nil_iff.mpr
        intro member hmember hkey
        exact h.1 (List.mem_map.mpr ⟨member, hmember, of_decide_eq_true hkey⟩)
      rw [List.filter_cons_of_pos (by simp), hrest, if_pos rfl]
    · rw [List.filter_cons_of_neg (by simpa using Ne.symm hname), if_neg hname, ← ih h.2, sole?]

theorem argsOf_of_lookup {members : Members} {items : List Json}
    (h : members.lookup "args" = some (.arr items)) : argsOf members = ofWrittenAll items := by
  induction members with
  | nil => cases h
  | cons member rest ih =>
    obtain ⟨name, value⟩ := member
    rw [Members.lookup_cons] at h
    by_cases hname : name = "args"
    · rw [if_pos hname.symm] at h
      cases h
      rw [argsOf, if_pos hname]
    · rw [if_neg (Ne.symm hname)] at h
      cases value
      case arr others => rw [argsOf, if_neg hname, ih h]
      all_goals
        rw [argsOf, if_neg hname, ih h]
        nofun

theorem ofWrittenAll_of_check {items : List Json} {formulas : List Formula}
    (hread : ∀ item ∈ items, ∀ formula, check item.canonical = .ok formula →
      ofWritten item = some formula)
    (hall : List.Forall₂ (fun arg formula => check arg = .ok formula) (Json.canonicalItems items)
      formulas) : ofWrittenAll items = some formulas := by
  induction items generalizing formulas with
  | nil =>
    cases hall
    rfl
  | cons item rest ih =>
    cases hall with
    | cons hfirst hrest =>
      have hitem := hread item List.mem_cons_self _ hfirst
      have hothers := ih (fun item hmember => hread item (List.mem_cons_of_mem _ hmember)) hrest
      rw [ofWrittenAll, hitem, hothers]
      rfl

-- What is read of an object in which the operator and its field can be looked up.
section Members

variable {members : Members} {name : String}

theorem ofWritten_combinator {items : List Json} {formulas : List Formula}
    (hname : name ∈ combinators) (hkeys : (members.map Prod.fst).Nodup)
    (hop : members.lookup "op" = some (.str name))
    (hargs : members.lookup "args" = some (.arr items))
    (hitems : ofWrittenAll items = some formulas) :
    ofWritten (.obj members) = combine? name (some formulas) := by
  simp only [combinators, List.mem_cons, List.not_mem_nil, or_false] at hname
  rcases hname with rfl | rfl
  all_goals simp [ofWritten, sole?_of_nodup hkeys, hop, hargs, operatorName?, operatorNames,
    argsOf_of_lookup hargs, hitems]

theorem ofWritten_leaf {field text : String} (hname : (name, field) ∈ leafFields)
    (hkeys : (members.map Prod.fst).Nodup) (hop : members.lookup "op" = some (.str name))
    (htext : members.lookup field = some (.str text)) :
    ofWritten (.obj members) = leaf? name (.str text) := by
  simp only [leafFields, List.mem_cons, Prod.mk.injEq, List.not_mem_nil, or_false] at hname
  rcases hname with ⟨rfl, rfl⟩ | ⟨rfl, rfl⟩
  all_goals simp [ofWritten, sole?_of_nodup hkeys, hop, htext, operatorName?, operatorNames]

end Members

-- The induction is along the arguments of the value as it is read, where the check finds them. The
-- value as it is written goes with it: its lists are the same, with all members that are hidden.
theorem ofWritten_of_check (query : Json) : ∀ written : Json, written.canonical = query →
    written.DistinctKeys → Plain query → ∀ formula, check query = .ok formula →
    ofWritten written = some formula := by
  induction query using induction_args with
  | step query ih =>
    intro written hcanonical hkeys hplain formula hcheck
    cases hplain with
    | obj hplain =>
      obtain ⟨members, rfl, rfl⟩ := Json.eq_obj_of_canonical hcanonical
      cases hkeys with
      | obj hkeys hvalues =>
        obtain ⟨node, formulas, hnode, hall, rfl⟩ := check_eq_ok_iff.mp hcheck
        have hargs : ∀ items, members.lookup "args" = some (.arr items) →
            node.args = Json.canonicalItems items → ofWrittenAll items = some formulas := by
          intro items hlookup hitems
          rw [hitems] at hall
          refine ofWrittenAll_of_check (fun item hitem => ?_) hall
          have harg : item.canonical ∈ node.args := by
            rw [hitems, Json.canonicalItems_eq_map]
            exact List.mem_map_of_mem hitem
          have hitemKeys : item.DistinctKeys := by
            cases hvalues _ (Members.mem_of_lookup hlookup) with
            | arr hitems => exact hitems item hitem
          obtain ⟨_, name, hrecord, hop, hname, hfound⟩ := Node.combinator_of_mem hnode harg
          cases hrecord
          exact ih node hnode _ harg item rfl hitemKeys (hplain name hname hop _ hfound _ harg)
        rcases Node.ofRecord_eq_ok_iff.mp hnode with ⟨args, hop, hfound, rfl⟩ |
          ⟨args, hop, hfound, rfl⟩ | ⟨name, hop, hname, rfl⟩ | ⟨feed, hop, hfeed, rfl⟩
        · obtain ⟨items, hlookup, hitems⟩ := Json.lookup_of_lookup_arr hkeys hfound
          exact ofWritten_combinator (by decide) hkeys (Json.lookup_of_lookup_scalar hkeys rfl hop)
            hlookup (hargs items hlookup hitems)
        · obtain ⟨items, hlookup, hitems⟩ := Json.lookup_of_lookup_arr hkeys hfound
          exact ofWritten_combinator (by decide) hkeys (Json.lookup_of_lookup_scalar hkeys rfl hop)
            hlookup (hargs items hlookup hitems)
        · exact ofWritten_leaf (by decide) hkeys (Json.lookup_of_lookup_scalar hkeys rfl hop)
            (Json.lookup_of_lookup_scalar hkeys rfl hname)
        · exact ofWritten_leaf (by decide) hkeys (Json.lookup_of_lookup_scalar hkeys rfl hop)
            (Json.lookup_of_lookup_scalar hkeys rfl hfeed)

theorem Node.operator_of_ofRecord {members : Members} {node : Node}
    (h : Node.ofRecord members = .ok node) :
    ∃ name ∈ operatorNames, members.lookup "op" = some (.str name) := by
  rcases Node.ofRecord_eq_ok_iff.mp h with ⟨_, hop, _⟩ | ⟨_, hop, _⟩ | ⟨_, hop, _⟩ | ⟨_, hop, _⟩
  all_goals exact ⟨_, by decide, hop⟩

theorem ofOutline_of_written {levels : Nat} {outline : Outline} {written : Json}
    {formula : Formula} (h : outline.written levels = .ok written) (hkeys : written.DistinctKeys)
    (hplain : Plain written.canonical) (hcheck : check written.canonical = .ok formula) :
    ofOutline levels outline = .ok formula := by
  have hread := ofWritten_of_check _ written rfl hkeys hplain formula hcheck
  obtain ⟨found, hfound⟩ := hplain.eq_obj
  obtain ⟨members, rfl, rfl⟩ := Json.eq_obj_of_canonical hfound
  obtain ⟨inner, start, fields, rfl, rfl, hfields⟩ := Outline.eq_object_of_written h
  cases hkeys with
  | obj hkeys _ =>
    obtain ⟨node, _, hnode, _, _⟩ := check_eq_ok_iff.mp hcheck
    obtain ⟨name, hname, hop⟩ := Node.operator_of_ofRecord hnode
    have hwritten := Json.lookup_of_lookup_scalar hkeys rfl hop
    have hops : ∀ value, ("op", value) ∈ members → ∃ name ∈ operatorNames, value = .str name := by
      intro value hmember
      have hvalue := (Members.lookup_eq_some_iff_mem hkeys).mpr hmember
      exact ⟨name, hname, Option.some.inj (hvalue.symm.trans hwritten)⟩
    have htagged : fields.tagged inner false = .ok members :=
      fields.tagged_of_written hfields hkeys hops nofun
    simp only [ofOutline, Outline.tagged, htagged, Except.map, bind, Except.bind, hread]

-- A text that is accepted is read back as the same query if no key comes twice in it and no query
-- in it is given as a text.
theorem decode_of_check {text : String} {json : Json} {formula : Formula}
    (hdecode : Json.decode (Outline.written Json.nestingLimit) text = .ok json)
    (hkeys : json.DistinctKeys) (hplain : Plain json.canonical)
    (hcheck : check (.str text) = .ok formula) : decode text = .ok formula := by
  have hread := Json.read_of_decode hdecode
  obtain ⟨members, hmembers⟩ := hplain.eq_obj
  rw [hmembers] at hread
  rw [check_of_read hread, ← hmembers] at hcheck
  exact Json.decode_of_decode hdecode
    (ofOutline_of_written (Json.written_of_decode hdecode) hkeys hplain hcheck)

end Formula

end FeedFilter
