import Solid.Node
import Solid.Decimal
import Solid.Text
import Solid.Node.Make
import Solid.Json
import Solid.Node.Json
import Solid.Geometry
import Solid.Document
import Solid.Backend
import Solid.Files
import Solid.Toml.Text
import Solid.Toml.Reader
import Solid.Config
import Solid.Session
import Solid.Cli
import Solid.Main
import Solid.Proofs.Doubles
import Solid.Proofs.Rounding
import Solid.Proofs.Shortest
import Solid.Proofs.Trees
import Solid.Proofs.Checks
import Solid.Proofs.Registering
import Solid.Proofs.Listing
import Solid.Proofs.Watertight
import Solid.Proofs.Loading
import Solid.Proofs.Numerals
import Solid.Proofs.Grammar
import Solid.Proofs.Written
import Solid.Proofs.Nulls
import Solid.Proofs.Reachable
import Solid.Proofs.Members
import Solid.Proofs.Saving
import Solid.Proofs.Calls
import Solid.Proofs.Connecting
import Solid.Proofs.Measures
import Solid.Proofs.Readable
import Solid.Proofs.Simplified
import Solid.Proofs.Rereading
import Solid.Proofs.Routes
import Solid.Proofs.Stacking
import Solid.Proofs.Documents
import Solid.Proofs.Spelled
import Solid.Proofs.Shallow
import Solid.Proofs.Constructing
import Solid.Proofs.Pruning
import Solid.Proofs.Rewriting
import Solid.Proofs.Surfaces
import Solid.Proofs.Relisting
import Solid.Proofs.Winding
import Solid.Proofs.Filling
import Solid.Proofs.Ending
import Solid.Proofs.Elements
import Solid.Proofs.Refusals
import Solid.Proofs.Truncation
import Solid.Proofs.Positional
import Solid.Proofs.Nearest
import Solid.Proofs.Decimals
import Solid.Proofs.Durations
import Solid.Proofs.Environment
import Solid.Proofs.Walks
import Solid.Proofs.Sessions
import Solid.Proofs.Reports
import Solid.Proofs.Quoting
import Solid.Proofs.Statements
import Solid.Proofs.Figures
import Solid.Proofs.Settings
