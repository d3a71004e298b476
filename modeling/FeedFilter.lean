import FeedFilter.Flat.Decode
import FeedFilter.Formula.Decode
import FeedFilter.Main
import FeedFilter.Operator.Decode
import FeedFilter.Proofs.Json.Literal
import FeedFilter.Proofs.Json.Members
import FeedFilter.Proofs.Json.Nesting
import FeedFilter.Proofs.Json.Numeral
import FeedFilter.Proofs.Json.Lexing
import FeedFilter.Proofs.Json.Outline
import FeedFilter.Proofs.Json.RoundTrip
import FeedFilter.Proofs.Formula.Check
import FeedFilter.Proofs.Formula.Grammar
import FeedFilter.Proofs.Formula.Failure
import FeedFilter.Proofs.Formula.Text
import FeedFilter.Proofs.Formula.WithTexts
import FeedFilter.Proofs.Flat.Check
import FeedFilter.Proofs.Flat.Text
import FeedFilter.Proofs.Operator.Nodes
import FeedFilter.Proofs.Operator.Trace
import FeedFilter.Proofs.Tier.Basic
import FeedFilter.Proofs.Tier.Interchangeable
import FeedFilter.Proofs.Tier.Shown
import FeedFilter.Proofs.Tier.Lowering
import FeedFilter.Proofs.Tier.Dedicated
import FeedFilter.Proofs.Flat.Record
import FeedFilter.Proofs.Flat.Equality
import FeedFilter.Proofs.Json.Form
import FeedFilter.Proofs.Flat.Decode
import FeedFilter.Proofs.Formula.Decode
import FeedFilter.Proofs.Tier.Decode
import FeedFilter.Proofs.Formula.Bounds
import FeedFilter.Proofs.Operator.Decode
import FeedFilter.Proofs.Formula.Depth
import FeedFilter.Proofs.Tier.Canonical
import FeedFilter.Proofs.Tier.Image
import FeedFilter.Proofs.Flat.Migrate
import FeedFilter.Proofs.Tier.Exclusive
import FeedFilter.Proofs.Tier.Session
import FeedFilter.Proofs.FeedRef.Key
import FeedFilter.Proofs.Flat.Rules
import FeedFilter.Proofs.Tier.Veto
import FeedFilter.Proofs.Flat.Spelling
import FeedFilter.Proofs.Formula.Layered
import FeedFilter.Proofs.Json.Scanning
import FeedFilter.Proofs.Json.Reading
import FeedFilter.Proofs.Json.Trimming
import FeedFilter.Proofs.Settings.Grammar
import FeedFilter.Proofs.Flat.TreeText
import FeedFilter.Proofs.CommandLine.Input
import FeedFilter.Proofs.CommandLine.Pipe
