import Mosaic.Main
import Mosaic.Proofs.Composition.Postorder
import Mosaic.Proofs.Render.Nodes
import Mosaic.Proofs.Render.Trace
import Mosaic.Proofs.Composition.Normal
import Mosaic.Proofs.Render.Echo
import Mosaic.Proofs.Render.Skeleton
import Mosaic.Proofs.Render.Normal
import Mosaic.Proofs.Dict
import Mosaic.Proofs.Registry.Firsts
import Mosaic.Proofs.Registry.Sources
import Mosaic.Proofs.Registry.Instructions
import Mosaic.Proofs.Decimal.Numeral
import Mosaic.Proofs.Json.Spelling
import Mosaic.Proofs.Json.Tokens
import Mosaic.Proofs.Json.Containers
import Mosaic.Proofs.Json.RoundTrip
import Mosaic.Proofs.Json.Limits
import Mosaic.Proofs.Render.Text
import Mosaic.Proofs.Time.RoundTrip
import Mosaic.Proofs.Json.Form
import Mosaic.Proofs.Files.Tree
import Mosaic.Proofs.Files.Path
import Mosaic.Proofs.Files.Resolution
import Mosaic.Proofs.Files.Replacement
import Mosaic.Proofs.Registry.Storage
import Mosaic.Proofs.Discovery.Survey
import Mosaic.Proofs.Literal.Escape
import Mosaic.Proofs.Literal.Tree
import Mosaic.Proofs.Tsx.Constant
import Mosaic.Proofs.Tsx.Lexemes
import Mosaic.Proofs.Tsx.Rules
import Mosaic.Proofs.Tsx.Operands
import Mosaic.Proofs.Tsx.Values
import Mosaic.Proofs.Tsx.Exports
import Mosaic.Proofs.Discovery.Extraction
import Mosaic.Proofs.Files.Sight
import Mosaic.Proofs.Files.Attempt
import Mosaic.Proofs.Registry.Reload
import Mosaic.Proofs.Discovery.Build
import Mosaic.Proofs.Render.Lookup
import Mosaic.Proofs.Registry.Stores
import Mosaic.Proofs.Files.Writers
import Mosaic.Proofs.Files.Readers
import Mosaic.Proofs.Registry.Writers
import Mosaic.Proofs.Files.Exchange
import Mosaic.Proofs.Discovery.Scan
import Mosaic.Proofs.Discovery.Outcome
import Mosaic.Proofs.Discovery.Removal
import Mosaic.Proofs.Render.Validation
import Mosaic.Proofs.Files.Reordered
import Mosaic.Proofs.Discovery.Order
import Mosaic.Proofs.Discovery.Listing
import Mosaic.Proofs.Files.Linkless
import Mosaic.Proofs.Discovery.Rebuild
import Mosaic.Proofs.Literal.Digit
import Mosaic.Proofs.Literal.Body
import Mosaic.Proofs.Decimal.Finite
import Mosaic.Proofs.Literal.Integer
import Mosaic.Proofs.Tsx.LargeIntegers
import Mosaic.Proofs.Merged
import Mosaic.Proofs.Results
import Mosaic.Proofs.Literal.Surroundings
import Mosaic.Proofs.Literal.Pruned
import Mosaic.Proofs.Tsx.Wrappers
import Mosaic.Proofs.Discovery.Declarations
import Mosaic.Proofs.Render.Dispatch
import Mosaic.Proofs.Render.Layout
import Mosaic.Proofs.Render.Content
import Mosaic.Proofs.Json.Visible
import Mosaic.Proofs.Render.Fields
import Mosaic.Proofs.Render.Plain
import Mosaic.Proofs.Render.Nesting
import Mosaic.Proofs.Render.Overrides
import Mosaic.Proofs.Composition.Routing
import Mosaic.Proofs.Discovery.Repeats
import Mosaic.Proofs.Registry.Literals
import Mosaic.Proofs.Json.Members
import Mosaic.Proofs.Render.Owned
