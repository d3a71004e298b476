import FeedFilter.Json.Basic
import FeedFilter.Json.Fault

namespace FeedFilter

-- Why a query is refused. Of several reasons only the first is given.
inductive QueryError
  | falsy (shown : String)
  | notRecord (kind : Json.Kind) (inText : Bool)
  | notJson (complaint : Complaint)
  | tooManyFields (allowed found : Nat)
  | missingField (name : String)
  | wrongField (name wanted : String)
  | privateWithType
  | badFeed (feed : String)
  | unknownOperator (shown : String)
  | argsNotList
  | equalityUnsupported
deriving DecidableEq, Repr

def QueryError.message : QueryError → String
  | .falsy shown => "query should be truthy: " ++ shown
  | .notRecord kind inText =>
    "query should be a string or an object, found " ++ (if inText then "JSON " else "") ++ kind.name
  | .notJson complaint => "query is not valid JSON: " ++ complaint.message
  | .tooManyFields allowed found =>
    "query has too many fields: expected " ++ toString allowed ++ ", found " ++ toString found
  | .missingField name => "query is missing the \"" ++ name ++ "\" field"
  | .wrongField name wanted => "query \"" ++ name ++ "\" should be " ++ wanted
  | .privateWithType =>
    "invariant violated: if \"private\" is true, then \"type\" must be null"
  | .badFeed feed => "query author should be a valid feed ID: " ++ feed
  | .unknownOperator shown => "unknown \"op\" field: " ++ shown
  | .argsNotList => "\"args\" field must be an array"
  | .equalityUnsupported =>
    "QL1 equality is not supported: equivalence of arbitrary boolean trees is intractable in general"

end FeedFilter
