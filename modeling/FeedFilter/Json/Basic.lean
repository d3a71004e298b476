namespace FeedFilter

-- A power of two. It is the power of the core library, whatever other powers a module knows.
def Number.power (bits : Nat) : Int :=
  @HPow.hPow Int Nat Int (@instHPow Int Nat instPowNat) 2 bits

-- Whether an integer fits 64 bits, signed or unsigned.
def Number.InRange (value : Int) : Prop :=
  -power 63 ≤ value ∧ value < power 64

instance (value : Int) : Decidable (Number.InRange value) :=
  inferInstanceAs (Decidable (_ ∧ _))

-- A number of a text: an integer that fits 64 bits, signed or unsigned, or else a float.
inductive Number
  | int (value : Int) (inRange : Number.InRange value)
  | float (value : Float)
deriving DecidableEq

-- A JSON value. An object keeps its members in the order in which they were written.
inductive Json
  | null
  | bool (value : Bool)
  | num (value : Number)
  | str (value : String)
  | arr (items : List Json)
  | obj (members : List (String × Json))

-- The members of an object.
abbrev Members := List (String × Json)

namespace Json

inductive Kind
  | null
  | boolean
  | number
  | string
  | array
  | object
deriving DecidableEq, Repr

def Kind.name : Kind → String
  | .null => "null"
  | .boolean => "boolean"
  | .number => "number"
  | .string => "string"
  | .array => "array"
  | .object => "object"

def kind : Json → Kind
  | .null => .null
  | .bool _ => .boolean
  | .num _ => .number
  | .str _ => .string
  | .arr _ => .array
  | .obj _ => .object

end Json

def Number.isZero : Number → Bool
  | .int value _ => value = 0
  | .float value => value == 0

-- Whether a value counts as present: null, false, zero and the empty string do not.
def Json.isTruthy : Json → Bool
  | .null => false
  | .bool value => value
  | .num value => !value.isZero
  | .str value => value ≠ ""
  | .arr _ => true
  | .obj _ => true

namespace Members

-- Sets a member among members with ascending keys: in its place in the order, or in the place of
-- the member that has its key already.
def put (key : String) (value : Json) : Members → Members
  | [] => [(key, value)]
  | (first, found) :: rest =>
    if key < first then (key, value) :: (first, found) :: rest
    else if key = first then (key, value) :: rest
    else (first, found) :: put key value rest

-- The members in ascending order of their keys. Of members with one key the last counts.
def ordered (members : Members) : Members :=
  members.foldl (fun known member => put member.1 member.2 known) []

end Members

namespace Json

mutual

-- The value as a reader holds it: the keys of each object ascend, hence no key comes twice.
def canonical : Json → Json
  | .null => .null
  | .bool value => .bool value
  | .num value => .num value
  | .str value => .str value
  | .arr items => .arr (canonicalItems items)
  | .obj members => .obj (Members.ordered (canonicalMembers members))

def canonicalItems : List Json → List Json
  | [] => []
  | item :: rest => item.canonical :: canonicalItems rest

def canonicalMembers : List (String × Json) → List (String × Json)
  | [] => []
  | (key, value) :: rest => (key, value.canonical) :: canonicalMembers rest

end

theorem canonicalItems_eq_map (items : List Json) :
    canonicalItems items = items.map canonical := by
  induction items with
  | nil => rfl
  | cons item rest ih => simp [canonicalItems, ih]

theorem canonicalMembers_eq_map (members : Members) :
    canonicalMembers members = members.map fun member => (member.1, member.2.canonical) := by
  induction members with
  | nil => rfl
  | cons member rest ih => simp [canonicalMembers, ih]

end Json

end FeedFilter
