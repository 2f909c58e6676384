import CompilationDatabase.CommandLine.Quoting
import CompilationDatabase.CommandLine.Span
import CompilationDatabase.CommandLine.Word
import CompilationDatabase.Compiler.Action
import CompilationDatabase.Compiler.Cursor
import CompilationDatabase.Compiler.Executable
import CompilationDatabase.Compiler.Invocation
import CompilationDatabase.Compiler.Rule
import CompilationDatabase.Compiler.SourceFile
import CompilationDatabase.Database.File
import CompilationDatabase.Digest.Sha256
import CompilationDatabase.Entry.Basic
import CompilationDatabase.Entry.Identity
import CompilationDatabase.Entry.Json
import CompilationDatabase.Entry.Recorded
import CompilationDatabase.FileSystem.Basic
import CompilationDatabase.FileSystem.Change
import CompilationDatabase.FileSystem.Lookup
import CompilationDatabase.Json.Basic
import CompilationDatabase.Json.Parser
import CompilationDatabase.Json.Printer
import CompilationDatabase.Log.Event
import CompilationDatabase.Log.Line
import CompilationDatabase.Main
import CompilationDatabase.Path.Basic
import CompilationDatabase.Path.Normal
import CompilationDatabase.Proofs.CommandLine.Continued
import CompilationDatabase.Proofs.CommandLine.Layout
import CompilationDatabase.Proofs.CommandLine.Reading
import CompilationDatabase.Proofs.CommandLine.Replay
import CompilationDatabase.Proofs.CommandLine.Spans
import CompilationDatabase.Proofs.CommandLine.Unclosed
import CompilationDatabase.Proofs.CommandLine.Unquoted
import CompilationDatabase.Proofs.Compiler.Actions
import CompilationDatabase.Proofs.Compiler.Boundaries
import CompilationDatabase.Proofs.Compiler.CxxDrivers
import CompilationDatabase.Proofs.Compiler.FileLists
import CompilationDatabase.Proofs.Compiler.Ignored
import CompilationDatabase.Proofs.Compiler.InputFiles
import CompilationDatabase.Proofs.Compiler.Progress
import CompilationDatabase.Proofs.Compiler.Segments
import CompilationDatabase.Proofs.Compiler.Spellings
import CompilationDatabase.Proofs.Compiler.ToolNames
import CompilationDatabase.Proofs.Database.Canonical
import CompilationDatabase.Proofs.Database.Saved
import CompilationDatabase.Proofs.Database.Unsaved
import CompilationDatabase.Proofs.Entry.Dedupe
import CompilationDatabase.Proofs.Entry.Executable
import CompilationDatabase.Proofs.Entry.Identity
import CompilationDatabase.Proofs.Entry.Json
import CompilationDatabase.Proofs.Entry.Merged
import CompilationDatabase.Proofs.Entry.Order
import CompilationDatabase.Proofs.Entry.Recorded
import CompilationDatabase.Proofs.FileSystem.Agreement
import CompilationDatabase.Proofs.FileSystem.Beside
import CompilationDatabase.Proofs.FileSystem.Change
import CompilationDatabase.Proofs.FileSystem.Frame
import CompilationDatabase.Proofs.FileSystem.Listing
import CompilationDatabase.Proofs.FileSystem.Normalized
import CompilationDatabase.Proofs.FileSystem.Scratch
import CompilationDatabase.Proofs.FileSystem.Walk
import CompilationDatabase.Proofs.Json.Document
import CompilationDatabase.Proofs.Json.Printable
import CompilationDatabase.Proofs.Json.Text
import CompilationDatabase.Proofs.Path.Joined
import CompilationDatabase.Proofs.Path.Normal
import CompilationDatabase.Proofs.Path.NormalForm
import CompilationDatabase.Proofs.Path.Text
import CompilationDatabase.Proofs.Recorder.AmongTraces
import CompilationDatabase.Proofs.Recorder.Appended
import CompilationDatabase.Proofs.Recorder.Collected
import CompilationDatabase.Proofs.Recorder.Ended
import CompilationDatabase.Proofs.Recorder.Generated
import CompilationDatabase.Proofs.Recorder.Isolated
import CompilationDatabase.Proofs.Recorder.Linked
import CompilationDatabase.Proofs.Recorder.Preserved
import CompilationDatabase.Proofs.Recorder.Raw
import CompilationDatabase.Proofs.Recorder.Reproducible
import CompilationDatabase.Proofs.Recorder.Spelled
import CompilationDatabase.Proofs.Recorder.TraceFiles
import CompilationDatabase.Proofs.Recorder.Uses
import CompilationDatabase.Proofs.Recorder.Warned
import CompilationDatabase.Proofs.Result
import CompilationDatabase.Proofs.Text.ByteOrder
import CompilationDatabase.Proofs.Text.Pattern
import CompilationDatabase.Proofs.Text.Splitting
import CompilationDatabase.Proofs.Trace.Codec
import CompilationDatabase.Proofs.Trace.Damaged
import CompilationDatabase.Recorder.Collection
import CompilationDatabase.Recorder.Environment
import CompilationDatabase.Recorder.Exit
import CompilationDatabase.Recorder.Generation
import CompilationDatabase.Recorder.Options
import CompilationDatabase.Recorder.Run
import CompilationDatabase.Script.Action
import CompilationDatabase.Script.Arranging
import CompilationDatabase.Script.Command
import CompilationDatabase.Script.Field
import CompilationDatabase.Script.Parser
import CompilationDatabase.Script.Printing
import CompilationDatabase.Script.Program
import CompilationDatabase.Script.Shell
import CompilationDatabase.Script.Testing
import CompilationDatabase.Script.Token
import CompilationDatabase.Script.Utility
import CompilationDatabase.Text.CharacterClass
import CompilationDatabase.Text.DecimalDigit
import CompilationDatabase.Text.Hexadecimal
import CompilationDatabase.Text.Pattern
import CompilationDatabase.Text.Utf8
import CompilationDatabase.Text.WordCharacter
import CompilationDatabase.Trace.Codec
import CompilationDatabase.Trace.Record
