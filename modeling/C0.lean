import C0.Token.Cursor
import C0.Instruction.Encoding
import C0.Folder
import C0.Main
import C0.Proofs.Loop
import C0.Proofs.Forward
import C0.Proofs.Layers
import C0.Proofs.Precedence
import C0.Proofs.Reading.Expression
import C0.Proofs.Reading.Statement
import C0.Proofs.Reading.Program
import C0.Proofs.Assembly
import C0.Proofs.Machine
import C0.Proofs.Routes
import C0.Proofs.Execution
import C0.Proofs.Simulation
import C0.Proofs.Reading.Steps
import C0.Proofs.ControlFlow
import C0.Proofs.Reading.Weight
import C0.Proofs.Typing
import C0.Proofs.Reading.Table
import C0.Proofs.Stack
import C0.Proofs.StackSafety
import C0.Proofs.Lexicon
import C0.Proofs.Scoping
import C0.Proofs.ScopeTracking
import C0.Proofs.ScopeTracking.Statement
import C0.Proofs.Addresses
import C0.Proofs.Mentions
import C0.Proofs.ScopeTracking.Program
import C0.Proofs.LexicalScope
import C0.Proofs.Falling
import C0.Proofs.Progress
import C0.Proofs.ScanStream
import C0.Proofs.Likeness
import C0.Proofs.Likeness.Expression
import C0.Proofs.Likeness.Statement
import C0.Proofs.Likeness.Program
import C0.Proofs.Likeness.Source
import C0.Proofs.Requests
import C0.Proofs.ReturnCheck
import C0.Proofs.Grammar
import C0.Proofs.Viability
import C0.Proofs.Viability.Expression
import C0.Proofs.Viability.Statement
import C0.Proofs.Viability.Program
import C0.Proofs.Entities
import C0.Proofs.DirectoryOrder
import C0.Proofs.Entry
import C0.Proofs.CallConvention
import C0.Proofs.Operands
import C0.Proofs.Linkage
import C0.Proofs.Resolution
import C0.Proofs.Stores
import C0.Proofs.Constness
import C0.Proofs.Bindings
import C0.Proofs.Bindings.Tracking
import C0.Proofs.Bindings.Expression
import C0.Proofs.Bindings.Statement
import C0.Proofs.Bindings.Program
import C0.Proofs.Constants
import C0.Proofs.Bytes
import C0.Proofs.Spelling
import C0.Proofs.Spelling.Recognition
import C0.Proofs.Gaps
import C0.Proofs.Printing
import C0.Proofs.Tiling
import C0.Proofs.Reader
import C0.Proofs.SinglePass
import C0.Proofs.SinglePass.Branches
import C0.Proofs.SinglePass.Routines
import C0.Proofs.SinglePass.Establishes
import C0.Proofs.SinglePass.Mirror
import C0.Proofs.SinglePass.Expression
import C0.Proofs.SinglePass.Statement
import C0.Proofs.SinglePass.Function
import C0.Proofs.SinglePass.Levels
import C0.Proofs.SinglePass.Program
import C0.Proofs.SinglePass.Agreement
import C0.Proofs.SinglePass.Depth
import C0.Proofs.NestingLimit
import C0.Proofs.LexicalFaults
import C0.Proofs.Listing.Quoted
import C0.Proofs.Listing.Instructions
import C0.Proofs.Listing.Lines
import C0.Proofs.Listing
import C0.Proofs.Reachability
import C0.Proofs.Termination
import C0.Proofs.StringLiterals
import C0.Proofs.Decoding
import C0.Proofs.LookAhead
import C0.Proofs.Positions
import C0.Proofs.WordPass.Payment
import C0.Proofs.WordPass.Exact
import C0.Proofs.WordPass.Expression
import C0.Proofs.WordPass.Statement
import C0.Proofs.WordPass.Program
import C0.Proofs.WordPass.Agreement
import C0.Proofs.SymbolMap
