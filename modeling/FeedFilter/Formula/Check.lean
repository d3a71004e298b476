import FeedFilter.Formula.Basic
import FeedFilter.Query.Diagnostic
import FeedFilter.Query.Size

namespace FeedFilter.Formula

open Query (textField)

-- One node of a query, the arguments of which are still to be checked.
inductive Node
  | and (args : List Json)
  | or (args : List Json)
  | leaf (formula : Formula)

def argsField (members : Members) : Except QueryError (List Json) :=
  match members.lookup "args" with
  | some (.arr args) => .ok args
  | _ => .error .argsNotList

-- The node of a record. The operator decides which other field counts.
def Node.ofRecord (members : Members) : Except QueryError Node :=
  match members.lookup "op" with
  | none => .error (.missingField "op")
  | some op =>
    if op.isTruthy then
      match op with
      | .str "and" => (argsField members).map .and
      | .str "or" => (argsField members).map .or
      | .str "type" => (textField members "string").map fun name => .leaf (.type name)
      | .str "author" => (textField members "feed").map fun feed => .leaf (.author feed)
      | .str other => .error (.unknownOperator other)
      | value => .error (.unknownOperator value.compact)
    else .error (.missingField "op")

-- A node, like a whole query, may be given as a text.
def Node.ofQuery (query : Json) : Except QueryError Node := do
  Node.ofRecord (← Query.record query)

theorem size_argsField {members : Members} {args : List Json} (h : argsField members = .ok args) :
    Json.sizeItems args + 2 ≤ Json.sizeMembers members := by
  unfold argsField at h
  split at h
  · next hlookup =>
    cases h
    simpa [Json.size] using Query.size_lookup hlookup
  · cases h

-- The arguments that a node has yet to check.
def Node.args : Node → List Json
  | .and args => args
  | .or args => args
  | .leaf _ => []

theorem size_args {query : Json} {node : Node} (h : Node.ofQuery query = .ok node) :
    Json.sizeItems node.args < query.size := by
  obtain ⟨members, hrecord, hnode⟩ := Except.bind_eq_ok h
  have hquery := Query.size_record hrecord
  simp only [Json.size] at hquery
  simp only [Node.ofRecord] at hnode
  repeat' split at hnode
  all_goals first
    | cases hnode
    | obtain ⟨found, hfound, rfl⟩ := Except.map_eq_ok hnode
  all_goals
    try have hargs := size_argsField hfound
    simp only [Node.args, Json.sizeItems]
    omega

mutual

-- The query of a value. The nodes are checked in the order in which they are written, and the
-- first that fails decides.
def check (query : Json) : Except QueryError Formula :=
  match _h : Node.ofQuery query with
  | .error error => .error error
  | .ok (.leaf formula) => .ok formula
  | .ok (.and args) => (checkAll args).map .and
  | .ok (.or args) => (checkAll args).map .or
termination_by (query.size, 0)
decreasing_by
  all_goals
    have hargs := size_args ‹Node.ofQuery query = _›
    exact Prod.Lex.left _ _ hargs

def checkAll (args : List Json) : Except QueryError (List Formula) :=
  match args with
  | [] => .ok []
  | arg :: rest => do
    let first ← check arg
    let others ← checkAll rest
    return first :: others
termination_by (Json.sizeItems args, 1)
decreasing_by
  · have := Json.size_pos arg
    by_cases hrest : Json.sizeItems rest = 0
    · rw [Json.sizeItems, hrest]
      exact Prod.Lex.right _ (by decide)
    · exact Prod.Lex.left _ _ (by simp only [Json.sizeItems]; omega)
  · have := Json.size_pos arg
    exact Prod.Lex.left _ _ (by simp only [Json.sizeItems]; omega)

end

def parse (query : Json) : Option Formula × List Diagnostic :=
  Query.attempt .ql1 check query

def stringify (query : Json) : Except QueryError String :=
  (check query).map text

-- Whether two formulas select the same messages is not decided.
def equate (_left _right : Json) : Except QueryError Bool :=
  .error .equalityUnsupported

variable {m : Type → Type} [Monad m] {ν : Type}

-- Compiles a query for an engine, of which nothing is asked if the query is refused.
def compileWith (engine : Engine m ν) (dedicated : Bool) (query : Json) :
    Except QueryError (m ν) :=
  (check query).map (lower engine dedicated)

def compile (dedicated : Bool) (query : Json) : Except QueryError Operator :=
  (check query).map (operator dedicated)

end FeedFilter.Formula
