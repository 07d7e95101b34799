import PlatformWiring.CommandLine.Arguments
import PlatformWiring.CommandLine.Execution
import PlatformWiring.CommandLine.Invocation
import PlatformWiring.CommandLine.Project
import PlatformWiring.CommandLine.Word
import PlatformWiring.Coverage
import PlatformWiring.Digest
import PlatformWiring.Document.Fault
import PlatformWiring.Document.Format
import PlatformWiring.Document.Run
import PlatformWiring.Document.Value
import PlatformWiring.Hierarchy.Catalog
import PlatformWiring.Hierarchy.Cycle
import PlatformWiring.Hierarchy.DeclaredType
import PlatformWiring.Main
import PlatformWiring.OrderedMap
import PlatformWiring.Output.Change
import PlatformWiring.Output.Fault
import PlatformWiring.Output.Files
import PlatformWiring.Output.Path
import PlatformWiring.Output.Record
import PlatformWiring.Output.Session
import PlatformWiring.Output.Sink
import PlatformWiring.Output.Tree
import PlatformWiring.Output.Walk
import PlatformWiring.Platform
import PlatformWiring.Report
import PlatformWiring.Requirements
import PlatformWiring.Round
import PlatformWiring.Source.Imports
import PlatformWiring.Source.Render
import PlatformWiring.Source.Unit
import PlatformWiring.Text.Base64
import PlatformWiring.Text.Blank
import PlatformWiring.Text.Decimal
import PlatformWiring.Text.Hidden
import PlatformWiring.Text.Lowercase
import PlatformWiring.Text.Position
import PlatformWiring.Text.Quoted
import PlatformWiring.Text.Split
import PlatformWiring.TypeName
import PlatformWiring.Version
import PlatformWiring.Wirefile.Decode
import PlatformWiring.Wirefile.Diagnostic
import PlatformWiring.Wirefile.Encode
import PlatformWiring.Wirefile.Read
import PlatformWiring.Wirefile.Schema
import PlatformWiring.Wiring.Collision
import PlatformWiring.Wiring.Layout
import PlatformWiring.Wiring.Plan
import PlatformWiring.Yaml.Complaint
import PlatformWiring.Yaml.Composer
import PlatformWiring.Yaml.Cursor
import PlatformWiring.Yaml.Document
import PlatformWiring.Yaml.Format
import PlatformWiring.Yaml.Lexer
import PlatformWiring.Yaml.Merge
import PlatformWiring.Yaml.Node
import PlatformWiring.Yaml.Scalar.Basic
import PlatformWiring.Yaml.Scalar.Block
import PlatformWiring.Yaml.Scalar.Plain
import PlatformWiring.Yaml.Scalar.Quoted
import PlatformWiring.Yaml.Tag
import PlatformWiring.Yaml.Token
import PlatformWiring.Proofs.OrderedMap
import PlatformWiring.Proofs.Output.Tree
import PlatformWiring.Proofs.Coverage
import PlatformWiring.Proofs.Output.Files
import PlatformWiring.Proofs.Wirefile.Order
import PlatformWiring.Proofs.Requirements
import PlatformWiring.Proofs.CommandLine.Execution
import PlatformWiring.Proofs.Wiring.Names
import PlatformWiring.Proofs.Coverage.Members
import PlatformWiring.Proofs.Source.Scope
import PlatformWiring.Proofs.Output.Reopening
import PlatformWiring.Proofs.Wiring.Collisions
import PlatformWiring.Proofs.Coverage.Circles
import PlatformWiring.Proofs.Coverage.Instances
import PlatformWiring.Proofs.Coverage.Pairs
import PlatformWiring.Proofs.Output.Attempts
import PlatformWiring.Proofs.Output.Ownership
import PlatformWiring.Proofs.Output.Finishing
import PlatformWiring.Proofs.Output.Repetition
import PlatformWiring.Proofs.Wirefile.RoundTrip
import PlatformWiring.Proofs.Hierarchy.Override
import PlatformWiring.Proofs.Text.Position
import PlatformWiring.Proofs.Source.Place
import PlatformWiring.Proofs.Source.Imports
import PlatformWiring.Proofs.Platform
import PlatformWiring.Proofs.Requirements.Drawing
import PlatformWiring.Proofs.Text.Offset
