import WordMachine.CommandLine.Store
import WordMachine.Debugger.Recorder
import WordMachine.Main
import WordMachine.Proofs.Assembly.LabelTable
import WordMachine.Proofs.Assembly.Agreement
import WordMachine.Proofs.Assembly.Drift
import WordMachine.Proofs.Assembly.Encoding
import WordMachine.Proofs.Machine.Execution
import WordMachine.Proofs.Debugger.Transparency
import WordMachine.Proofs.Numeral.Digits
import WordMachine.Proofs.Text.Glyph
import WordMachine.Proofs.Source.Statement
import WordMachine.Proofs.Text.Lines
import WordMachine.Proofs.Word
import WordMachine.Proofs.Assembly.Image
import WordMachine.Proofs.LoadFile
import WordMachine.Proofs.Assembly.Bounds
import WordMachine.Proofs.Assembly.Listing
import WordMachine.Proofs.Machine.Loading
import WordMachine.Proofs.SourceToMachine
import WordMachine.Proofs.Assembly.Diagnostics
import WordMachine.Proofs.Assembly.Quotation
import WordMachine.Proofs.Assembly.Rendering
import WordMachine.Proofs.ListingFile
import WordMachine.Proofs.Assembly.Extension
import WordMachine.Proofs.Source.Formatting
import WordMachine.Proofs.Assembly.Reformatting
import WordMachine.Proofs.Machine.Interference
import WordMachine.Proofs.Debugger.Watching
import WordMachine.Proofs.Shell.Inspection
import WordMachine.Proofs.Source.Writing
import WordMachine.Proofs.Assembly.Disassembly
import WordMachine.Proofs.Assembly.Declarations
import WordMachine.Proofs.Symbols
import WordMachine.Proofs.Machine.Hearing
import WordMachine.Proofs.Shell.Quitting
import WordMachine.Proofs.Numeral.Literal
import WordMachine.Proofs.Assembly.Resolution
import WordMachine.Proofs.Assembly.Checks
import WordMachine.Proofs.Machine.StepLimit
import WordMachine.Proofs.Source.Head
import WordMachine.Proofs.Assembly.Causes
import WordMachine.Proofs.Assembly.Redeclaration
import WordMachine.Proofs.Debugger.Recording
import WordMachine.Proofs.Machine.Correspondence
import WordMachine.Proofs.Shell.Jumping
import WordMachine.Proofs.Shell.Loop
import WordMachine.Proofs.Shell.Repeating
import WordMachine.Proofs.Shell.Stepping
import WordMachine.Proofs.Text.BlankLines
import WordMachine.Proofs.Machine.Footprint
import WordMachine.Proofs.Shell.FirstIndex
import WordMachine.Proofs.Text.Fields
import WordMachine.Proofs.LoadFormat
import WordMachine.Proofs.Shell.Naming
import WordMachine.Proofs.Debugger.Display
import WordMachine.Proofs.LowBits
import WordMachine.Proofs.Source.Column
import WordMachine.Proofs.Source.LineEnds
import WordMachine.Proofs.CommandLine.Reporting
import WordMachine.Proofs.Source.Operands
import WordMachine.Proofs.Source.Parts
import WordMachine.Proofs.Shell.PointLists
