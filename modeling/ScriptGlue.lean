import ScriptGlue.Loader.Library
import ScriptGlue.Loader.Session
import ScriptGlue.Main
import ScriptGlue.Scalar
import ScriptGlue.Table.Decode
import ScriptGlue.Table.Encode
import ScriptGlue.Proofs.Loader.Resolution
import ScriptGlue.Proofs.Loader.Index
import ScriptGlue.Proofs.Loader.Admission
import ScriptGlue.Proofs.Loader.Skipping
import ScriptGlue.Proofs.Loader.Strictness
import ScriptGlue.Proofs.Loader.Check
import ScriptGlue.Proofs.Loader.Lookup
import ScriptGlue.Proofs.Table.Encoding
import ScriptGlue.Proofs.Extraction.Naming
import ScriptGlue.Proofs.Table.RoundTrip
import ScriptGlue.Proofs.Table.Lossless
import ScriptGlue.Proofs.Extraction.Diagnosis
import ScriptGlue.Proofs.Project
import ScriptGlue.Proofs.Symbol
import ScriptGlue.Proofs.Convention
import ScriptGlue.Proofs.Collision
import ScriptGlue.Proofs.Glue.Exports
import ScriptGlue.Proofs.Registration.Agreement
import ScriptGlue.Proofs.Generated
import ScriptGlue.Proofs.Registration.Declaration
import ScriptGlue.Proofs.Registration.Meaning
import ScriptGlue.Proofs.Registration.Printing
import ScriptGlue.Proofs.Registration.Arrays
import ScriptGlue.Proofs.Token.Cut
import ScriptGlue.Proofs.Token.Place
import ScriptGlue.Proofs.Token.Exact
import ScriptGlue.Proofs.Token.Printing
import ScriptGlue.Proofs.Token.Seam
import ScriptGlue.Proofs.Token.OpenQuote
import ScriptGlue.Proofs.Extraction.Walk
import ScriptGlue.Proofs.Extraction.Arguments
import ScriptGlue.Proofs.Extraction.Accounting
import ScriptGlue.Proofs.Extraction.Declaration
import ScriptGlue.Proofs.Extraction.Faithful
import ScriptGlue.Proofs.Extraction.Spelling
import ScriptGlue.Proofs.Extraction.Inert
import ScriptGlue.Proofs.Glue.Scanning
import ScriptGlue.Proofs.Rereading
import ScriptGlue.Proofs.Path
import ScriptGlue.Proofs.SourceTree
import ScriptGlue.Proofs.Generation
import ScriptGlue.Proofs.Session.Access
import ScriptGlue.Proofs.Loader.Bindings
import ScriptGlue.Proofs.Session.Record
import ScriptGlue.Proofs.Session.Lifecycle
import ScriptGlue.Proofs.Session.Isolation
import ScriptGlue.Proofs.Session.Cells
import ScriptGlue.Proofs.Include
import ScriptGlue.Proofs.Disk.Standing
import ScriptGlue.Proofs.Disk.Writing
import ScriptGlue.Proofs.Listing
import ScriptGlue.Proofs.Mirror
import ScriptGlue.Proofs.Disk.Rewriting
import ScriptGlue.Proofs.Rerun
import ScriptGlue.Proofs.Loader.Dependence
import ScriptGlue.Proofs.Include.Renaming
import ScriptGlue.Proofs.Discovery
import ScriptGlue.Proofs.Refusal
import ScriptGlue.Proofs.Path.Counterpart
import ScriptGlue.Proofs.Extraction.Cursor
import ScriptGlue.Proofs.Extraction.Safety
import ScriptGlue.Proofs.Native.History
import ScriptGlue.Proofs.OsText
import ScriptGlue.Proofs.FileName
