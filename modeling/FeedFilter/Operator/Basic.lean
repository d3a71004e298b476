import FeedFilter.Json.Printer

namespace FeedFilter

-- What an execution engine is asked to do: combinators over predicates on the messages of feeds.
-- A predicate that is `dedicated` may have an index made for it, others use those there are.
inductive Operator
  | and (children : List Operator)
  | or (children : List Operator)
  | author (feed : String) (dedicated : Bool)
  | type (name : Option String) (dedicated : Bool)
  | isPrivate
  | isPublic

namespace Operator

mutual

-- The predicates of a tree from left to right.
def leaves : Operator → List Operator
  | .and children => leavesOf children
  | .or children => leavesOf children
  | .author feed dedicated => [.author feed dedicated]
  | .type name dedicated => [.type name dedicated]
  | .isPrivate => [.isPrivate]
  | .isPublic => [.isPublic]

def leavesOf : List Operator → List Operator
  | [] => []
  | child :: rest => child.leaves ++ leavesOf rest

end

def dedicated? : Operator → Option Bool
  | .author _ dedicated => some dedicated
  | .type _ dedicated => some dedicated
  | _ => none

-- The flags of the author and type predicates from left to right.
def dedicatedFlags (operator : Operator) : List Bool :=
  operator.leaves.filterMap dedicated?

def requiresDedicatedIndex (operator : Operator) : Bool :=
  operator.dedicatedFlags.any id

def predicateText (name value : String) (dedicated : Bool) : String :=
  name ++ "(" ++ value ++ (if dedicated then ", dedicated" else "") ++ ")"

mutual

-- A tree for people. Values stand as they are, without quotes.
def text : Operator → String
  | .and children => "and(" ++ textOf children ++ ")"
  | .or children => "or(" ++ textOf children ++ ")"
  | .author feed dedicated => predicateText "author" feed dedicated
  | .type name dedicated => predicateText "type" (name.getD "null") dedicated
  | .isPrivate => "isPrivate()"
  | .isPublic => "isPublic()"

def textOf : List Operator → String
  | [] => ""
  | child :: rest => child.text ++ textAfter rest

def textAfter : List Operator → String
  | [] => ""
  | child :: rest => ", " ++ child.text ++ textAfter rest

end

def ofNullable : Option String → Json
  | none => .null
  | some text => .str text

mutual

-- A tree as JSON: the name of the node, and its parts in an object.
def toJson : Operator → Json
  | .and children => .obj [("And", .obj [("children", .arr (toJsonAll children))])]
  | .or children => .obj [("Or", .obj [("children", .arr (toJsonAll children))])]
  | .author feed dedicated =>
    .obj [("AuthorPredicate", .obj [("feed_id", .str feed), ("dedicated", .bool dedicated)])]
  | .type name dedicated =>
    .obj [("TypePredicate", .obj [("value", ofNullable name), ("dedicated", .bool dedicated)])]
  | .isPrivate => .str "IsPrivate"
  | .isPublic => .str "IsPublic"

def toJsonAll : List Operator → List Json
  | [] => []
  | child :: rest => child.toJson :: toJsonAll rest

end

mutual

def same : Operator → Operator → Bool
  | .and children, .and others => sameAll children others
  | .or children, .or others => sameAll children others
  | .author feed dedicated, .author other flag => feed = other && dedicated = flag
  | .type name dedicated, .type other flag => name = other && dedicated = flag
  | .isPrivate, .isPrivate => true
  | .isPublic, .isPublic => true
  | _, _ => false

def sameAll : List Operator → List Operator → Bool
  | [], [] => true
  | child :: rest, other :: others => same child other && sameAll rest others
  | _, _ => false

end

mutual

theorem same_iff : ∀ a b : Operator, same a b = true ↔ a = b
  | .and children, b => by cases b <;> simp [same, sameAll_iff children]
  | .or children, b => by cases b <;> simp [same, sameAll_iff children]
  | .author _ _, b => by cases b <;> simp [same]
  | .type _ _, b => by cases b <;> simp [same]
  | .isPrivate, b => by cases b <;> simp [same]
  | .isPublic, b => by cases b <;> simp [same]

theorem sameAll_iff : ∀ xs ys : List Operator, sameAll xs ys = true ↔ xs = ys
  | [], ys => by cases ys <;> simp [sameAll]
  | child :: rest, ys => by
    cases ys with
    | nil => simp [sameAll]
    | cons other others => simp [sameAll, same_iff child other, sameAll_iff rest others]

end

instance : DecidableEq Operator := fun a b => decidable_of_iff _ (same_iff a b)

end Operator

end FeedFilter
