import FeedFilter.Query.Record
import FeedFilter.Tier

namespace FeedFilter

-- The report of a query that could not be used.
structure Diagnostic where
  tier : String
  query : String
  error : String
deriving DecidableEq, Repr

-- Reads a query as well as it goes. One that counts as absent is none and needs no report; of
-- every other that fails a check there is one report.
def Query.attempt {α : Type} (tier : Tier) (check : Json → Except QueryError α) (query : Json) :
    Option α × List Diagnostic :=
  if query.isTruthy then
    match check query with
    | .ok found => (some found, [])
    | .error error => (none, [⟨tier.name, Query.shown query, error.message⟩])
  else (none, [])

end FeedFilter
