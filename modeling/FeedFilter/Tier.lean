namespace FeedFilter

-- The two languages that a query can be written in: flat records and formulas.
inductive Tier
  | ql0
  | ql1
deriving DecidableEq, Repr

namespace Tier

def name : Tier → String
  | .ql0 => "QL0"
  | .ql1 => "QL1"

-- The name of a tier in any mixture of cases.
def ofText? (text : String) : Option Tier :=
  match text.map Char.toLower with
  | "ql0" => some .ql0
  | "ql1" => some .ql1
  | _ => none

def unknownMessage (text : String) : String :=
  "unknown query tier: " ++ text.map Char.toLower ++ " (expected ql0 or ql1)"

end Tier

end FeedFilter
