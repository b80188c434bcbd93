import ThermalLabel.Conversion
import ThermalLabel.Document.Design
import ThermalLabel.Document.Diagnostic
import ThermalLabel.Main
import ThermalLabel.Proofs.Conversion.Regeneration
import ThermalLabel.Proofs.Recovery.Element
import ThermalLabel.Proofs.Line.Steps
import ThermalLabel.Proofs.Line.Locality
import ThermalLabel.Proofs.Zpl.Append
import ThermalLabel.Proofs.Zpl.Skip
import ThermalLabel.Proofs.Conversion.Chain
import ThermalLabel.Proofs.Conversion.Faithful
import ThermalLabel.Proofs.Recovery.Report
import ThermalLabel.Proofs.Zpl.Origin
import ThermalLabel.Proofs.Recovery.WellFormed
import ThermalLabel.Proofs.Text.Slice
import ThermalLabel.Proofs.Zpl.Bytes
import ThermalLabel.Proofs.Zpl.Cut
import ThermalLabel.Proofs.Line.Cut
import ThermalLabel.Proofs.Zpl.Scan
import ThermalLabel.Proofs.Recovery.Bounds
import ThermalLabel.Proofs.Design.Arena
import ThermalLabel.Proofs.Design.History
import ThermalLabel.Proofs.Design.Fresh
import ThermalLabel.Proofs.Emission.Account
import ThermalLabel.Proofs.Conversion.Bold
import ThermalLabel.Proofs.Conversion.Graphic
import ThermalLabel.Proofs.Conversion.Noted
import ThermalLabel.Proofs.Json.Lexeme
import ThermalLabel.Proofs.Json.Literal
import ThermalLabel.Proofs.Document.Reader
import ThermalLabel.Proofs.Document.Element
import ThermalLabel.Proofs.Document.Design
import ThermalLabel.Proofs.Emission.Order
import ThermalLabel.Proofs.HexEscape.Grammar
import ThermalLabel.Proofs.Text.Tiling
import ThermalLabel.Proofs.Zpl.Kind
import ThermalLabel.Proofs.Zpl.Turn
import ThermalLabel.Proofs.Recovery.Units
import ThermalLabel.Proofs.Zpl.Lexer
import ThermalLabel.Proofs.Cli.Run
import ThermalLabel.Proofs.Emission.LineEnding
import ThermalLabel.Proofs.Epl.Setup
import ThermalLabel.Proofs.Zpl.Validation
