import PrattFrontEnd.CommandLine.Disk
import PrattFrontEnd.CommandLine.Options
import PrattFrontEnd.CommandLine.Run
import PrattFrontEnd.Cursor
import PrattFrontEnd.Kind
import PrattFrontEnd.Layout
import PrattFrontEnd.Lexeme
import PrattFrontEnd.Listing
import PrattFrontEnd.Main
import PrattFrontEnd.Parser.Bench
import PrattFrontEnd.Parser.Conversion
import PrattFrontEnd.Parser.Diagnostic
import PrattFrontEnd.Parser.Expression
import PrattFrontEnd.Parser.Parse
import PrattFrontEnd.Parser.Rule
import PrattFrontEnd.Parser.RuleTable
import PrattFrontEnd.Parser.State
import PrattFrontEnd.Parser.Statement
import PrattFrontEnd.Precedence
import PrattFrontEnd.Proofs.CommandLine.Arguments
import PrattFrontEnd.Proofs.CommandLine.Files
import PrattFrontEnd.Proofs.CommandLine.Processing
import PrattFrontEnd.Proofs.CommandLine.Redirection
import PrattFrontEnd.Proofs.Grammar.Acceptance
import PrattFrontEnd.Proofs.Grammar.Clearance
import PrattFrontEnd.Proofs.Grammar.Completeness
import PrattFrontEnd.Proofs.Grammar.Derivation
import PrattFrontEnd.Proofs.Grammar.Need
import PrattFrontEnd.Proofs.Grammar.Nesting
import PrattFrontEnd.Proofs.Grammar.Soundness
import PrattFrontEnd.Proofs.Parser.Alongside
import PrattFrontEnd.Proofs.Parser.Chains
import PrattFrontEnd.Proofs.Parser.Descent
import PrattFrontEnd.Proofs.Parser.Interruption
import PrattFrontEnd.Proofs.Parser.Literals
import PrattFrontEnd.Proofs.Parser.Lockstep
import PrattFrontEnd.Proofs.Parser.Motion
import PrattFrontEnd.Proofs.Parser.Rounds
import PrattFrontEnd.Proofs.Parser.Steady
import PrattFrontEnd.Proofs.Parser.Success
import PrattFrontEnd.Proofs.Parser.Uncapped
import PrattFrontEnd.Proofs.Parser.Upcoming
import PrattFrontEnd.Proofs.Parser.Usage
import PrattFrontEnd.Proofs.Recovery.Blocks
import PrattFrontEnd.Proofs.Recovery.Braces
import PrattFrontEnd.Proofs.Recovery.Drops
import PrattFrontEnd.Proofs.Recovery.Semicolons
import PrattFrontEnd.Proofs.Recovery.Settling
import PrattFrontEnd.Proofs.Recovery.Skipping
import PrattFrontEnd.Proofs.Rendering.Characters
import PrattFrontEnd.Proofs.Rendering.Coincidence
import PrattFrontEnd.Proofs.Rendering.Composition
import PrattFrontEnd.Proofs.Rendering.Determination
import PrattFrontEnd.Proofs.Rendering.Gluing
import PrattFrontEnd.Proofs.Rendering.Grouping
import PrattFrontEnd.Proofs.Rendering.Joints
import PrattFrontEnd.Proofs.Rendering.Legibility
import PrattFrontEnd.Proofs.Rendering.Lexemes
import PrattFrontEnd.Proofs.Rendering.Meaning
import PrattFrontEnd.Proofs.Rendering.Readability
import PrattFrontEnd.Proofs.Rendering.Rederivation
import PrattFrontEnd.Proofs.Rendering.RoundTrip
import PrattFrontEnd.Proofs.Scanning.Concealed
import PrattFrontEnd.Proofs.Scanning.Listing
import PrattFrontEnd.Proofs.Scanning.Places
import PrattFrontEnd.Proofs.Scanning.Progress
import PrattFrontEnd.Proofs.Scanning.ReadBack
import PrattFrontEnd.Proofs.Scanning.Relayout
import PrattFrontEnd.Proofs.Scanning.Replay
import PrattFrontEnd.Proofs.Scanning.Scans
import PrattFrontEnd.Proofs.Scanning.Stepwise
import PrattFrontEnd.Proofs.Scanning.Tiling
import PrattFrontEnd.Proofs.Session.Entries
import PrattFrontEnd.Proofs.Session.Gathering
import PrattFrontEnd.Proofs.Syntax.Filling
import PrattFrontEnd.Proofs.Syntax.Gradation
import PrattFrontEnd.Proofs.Syntax.Interchange
import PrattFrontEnd.Proofs.Syntax.Likeness
import PrattFrontEnd.Proofs.Syntax.Sameness
import PrattFrontEnd.Proofs.Syntax.Structure
import PrattFrontEnd.Proofs.Syntax.Wellformed
import PrattFrontEnd.Proofs.Text.Reading
import PrattFrontEnd.Scanner
import PrattFrontEnd.Session
import PrattFrontEnd.Source
import PrattFrontEnd.Syntax.Equality
import PrattFrontEnd.Syntax.Json
import PrattFrontEnd.Syntax.Node
import PrattFrontEnd.Syntax.Record
import PrattFrontEnd.Syntax.Render
import PrattFrontEnd.Syntax.Slots
import PrattFrontEnd.Syntax.Tree
import PrattFrontEnd.Text.Letter
import PrattFrontEnd.Text.Number
import PrattFrontEnd.Text.Numeral
import PrattFrontEnd.Text.Printable
import PrattFrontEnd.Text.Quoted
import PrattFrontEnd.Text.Space
import PrattFrontEnd.Text.Utf8
import PrattFrontEnd.Token
