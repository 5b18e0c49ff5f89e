import StickerBot.Span
import StickerBot.Table
import StickerBot.Diagnostic
import StickerBot.Instruction
import StickerBot.Json.Basic
import StickerBot.Json.Writer
import StickerBot.Json.Reader
import StickerBot.Json.Literal
import StickerBot.Decimal.Shortest
import StickerBot.Digest.Sha256
import StickerBot.Program
import StickerBot.Listing.Token
import StickerBot.Listing.Lexer
import StickerBot.Listing.Parser
import StickerBot.Listing.Assembly
import StickerBot.Word
import StickerBot.Geometry
import StickerBot.Connector
import StickerBot.Statement
import StickerBot.Catalog
import StickerBot.Layout
import StickerBot.Matching
import StickerBot.LayoutReport
import StickerBot.Generate.Context
import StickerBot.Generate.Emit
import StickerBot.Generate.Walk
import StickerBot.Wire.Fields
import StickerBot.Wire.Listing
import StickerBot.Wire.Layout
import StickerBot.Compilation
import StickerBot.Worker
import StickerBot.Machine.Basic
import StickerBot.Machine.Commands
import StickerBot.Machine.Step
import StickerBot.Session.Basic
import StickerBot.Session.Commands
import StickerBot.Session.Run
import StickerBot.Wire.Machine
import StickerBot.Wire.Compilation
import StickerBot.Proofs.Nesting
import StickerBot.Proofs.Blocks
import StickerBot.Proofs.Stepping
import StickerBot.Proofs.Watching
import StickerBot.Proofs.Structured
import StickerBot.Proofs.StructuredRun
import StickerBot.Proofs.Inert
import StickerBot.Proofs.Routine
import StickerBot.Proofs.RoutineBlock
import StickerBot.Proofs.Chain
import StickerBot.Proofs.GeneratedRun
import StickerBot.Proofs.Listing.Names
import StickerBot.Proofs.Listing.Lexing
import StickerBot.Proofs.Listing.Grammar
import StickerBot.Proofs.Listing.Errors
import StickerBot.Proofs.Listing.Acceptance
import StickerBot.Proofs.Listing.RoundTrip
import StickerBot.Proofs.Extending
import StickerBot.Proofs.Listing.Recovery
import StickerBot.Proofs.Listing.Octets
import StickerBot.Proofs.Listing.Lexemes
import StickerBot.Proofs.Listing.Positions
import StickerBot.Proofs.Listing.Spelling
import StickerBot.Proofs.Listing.Passing
import StickerBot.Proofs.Listing.Ending
import StickerBot.Proofs.Listing.Clipping
import StickerBot.Proofs.Listing.Spacing
import StickerBot.Proofs.Listing.Quoting
import StickerBot.Proofs.Listing.Reporting
import StickerBot.Proofs.LifeCycle
import StickerBot.Proofs.StableMatching
import StickerBot.Proofs.Reaching
import StickerBot.Proofs.Walking
import StickerBot.Proofs.Beginning
import StickerBot.Proofs.Pieces
import StickerBot.Proofs.Coverage
import StickerBot.Proofs.DepthLimit
import StickerBot.Proofs.Links
import StickerBot.Proofs.Thinning
import StickerBot.Proofs.SafeRun
import StickerBot.Proofs.SafeCode
import StickerBot.Proofs.HarmlessRun
import StickerBot.Proofs.Renaming
import StickerBot.Proofs.RenamedWalk
import StickerBot.Proofs.MarkerOrder
import StickerBot.Proofs.SingleFile
import StickerBot.Proofs.StraightWalk
import StickerBot.Proofs.Remarks
import StickerBot.Proofs.Announcing
import StickerBot.Proofs.Happening
import StickerBot.Proofs.Delivery
import StickerBot.Proofs.Owing
import StickerBot.Proofs.Refusing
import StickerBot.Proofs.Pausing
import StickerBot.Proofs.SingleFlight
import StickerBot.Proofs.Warnings
import StickerBot.Proofs.GoodLayout
import StickerBot.Proofs.Leaves
import StickerBot.Proofs.Accounting
import StickerBot.Proofs.Results
import StickerBot.Proofs.Mirroring
import StickerBot.Proofs.Restarting
import StickerBot.Proofs.Partners
import StickerBot.Proofs.Tapping
import StickerBot.Proofs.Coherence
import StickerBot.Proofs.Regenerating
import StickerBot.Proofs.Counters
import StickerBot.Proofs.Hulls
import StickerBot.Proofs.Json.Literals
import StickerBot.Proofs.Json.RoundTrip
import StickerBot.Proofs.Json.Singles
import StickerBot.Proofs.Wire.Records
import StickerBot.Proofs.Wire.RoundTrip
import StickerBot.Proofs.Wire.Catalogs
