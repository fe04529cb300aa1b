import BinaryPatching.Assembly.Basic
import BinaryPatching.Assembly.Source
import BinaryPatching.Assembly.Tool
import BinaryPatching.Bytes.Basic
import BinaryPatching.Bytes.Hex
import BinaryPatching.Bytes.Sha1
import BinaryPatching.Code.Flow
import BinaryPatching.Code.Listing
import BinaryPatching.Code.Literals
import BinaryPatching.Code.Map
import BinaryPatching.Code.Pairs
import BinaryPatching.CommandLine.Arguments
import BinaryPatching.CommandLine.Handling
import BinaryPatching.CommandLine.LogLevel
import BinaryPatching.Config
import BinaryPatching.FileTree.Basic
import BinaryPatching.FileTree.Path
import BinaryPatching.Image.AuxiliaryTables
import BinaryPatching.Image.Basic
import BinaryPatching.Image.Checksum
import BinaryPatching.Image.Linkage
import BinaryPatching.Image.ObjectFile
import BinaryPatching.Image.PortableExecutable
import BinaryPatching.Image.Section
import BinaryPatching.Image.SectionHeader
import BinaryPatching.Json.Basic
import BinaryPatching.Json.Decoding
import BinaryPatching.Json.Part
import BinaryPatching.Json.Printer
import BinaryPatching.Json.Reader
import BinaryPatching.Main
import BinaryPatching.Patch.Apply
import BinaryPatching.Patch.Basic
import BinaryPatching.Patch.Error
import BinaryPatching.Patch.Format
import BinaryPatching.Patch.Log
import BinaryPatching.Patch.Store
import BinaryPatching.Patch.Validity
import BinaryPatching.Pattern.Bytes
import BinaryPatching.Pattern.Instruction
import BinaryPatching.Pattern.Token
import BinaryPatching.Proofs.Assembly.AddressLines
import BinaryPatching.Proofs.Assembly.Padding
import BinaryPatching.Proofs.Assembly.Rewriting
import BinaryPatching.Proofs.Code.Adjacency
import BinaryPatching.Proofs.Code.Closure
import BinaryPatching.Proofs.Code.Exhaustion
import BinaryPatching.Proofs.Code.Exploration
import BinaryPatching.Proofs.Code.Growth
import BinaryPatching.Proofs.Code.Listings
import BinaryPatching.Proofs.Code.Literals
import BinaryPatching.Proofs.Code.Pairs
import BinaryPatching.Proofs.Code.Soundness
import BinaryPatching.Proofs.FileTree.Access
import BinaryPatching.Proofs.FileTree.Directories
import BinaryPatching.Proofs.FileTree.Resolution
import BinaryPatching.Proofs.FileTree.Writing
import BinaryPatching.Proofs.Image.Conversion
import BinaryPatching.Proofs.Image.EndAroundCarry
import BinaryPatching.Proofs.Image.Mapping
import BinaryPatching.Proofs.Json.RoundTrip
import BinaryPatching.Proofs.Lists
import BinaryPatching.Proofs.Patch.Application
import BinaryPatching.Proofs.Patch.Confinement
import BinaryPatching.Proofs.Patch.Delivery
import BinaryPatching.Proofs.Patch.Format
import BinaryPatching.Proofs.Patch.HexFields
import BinaryPatching.Proofs.Patch.Interruption
import BinaryPatching.Proofs.Patch.Joining
import BinaryPatching.Proofs.Patch.KeyedUpdates
import BinaryPatching.Proofs.Patch.Materialize
import BinaryPatching.Proofs.Patch.Reapplication
import BinaryPatching.Proofs.Patch.Uniqueness
import BinaryPatching.Proofs.Pattern.ByteForms
import BinaryPatching.Proofs.Pattern.CheckedSearches
import BinaryPatching.Proofs.Pattern.Concatenation
import BinaryPatching.Proofs.Pattern.Lexing
import BinaryPatching.Proofs.Pattern.Matching
import BinaryPatching.Proofs.Pattern.Occurrences
import BinaryPatching.Proofs.Pattern.OwnText
import BinaryPatching.Proofs.Pattern.SourceForms
import BinaryPatching.Proofs.Script.Arrangements
import BinaryPatching.Proofs.Script.Atomicity
import BinaryPatching.Proofs.Script.ByteSearches
import BinaryPatching.Proofs.Script.CodeBlocks
import BinaryPatching.Proofs.Script.CodeSearches
import BinaryPatching.Proofs.Script.Comments
import BinaryPatching.Proofs.Script.Coverage
import BinaryPatching.Proofs.Script.Failures
import BinaryPatching.Proofs.Script.Fillings
import BinaryPatching.Proofs.Script.Labels
import BinaryPatching.Proofs.Script.Layout
import BinaryPatching.Proofs.Script.ListingCache
import BinaryPatching.Proofs.Script.Moves
import BinaryPatching.Proofs.Script.OpenFiles
import BinaryPatching.Proofs.Script.Originals
import BinaryPatching.Proofs.Script.PatchedRanges
import BinaryPatching.Proofs.Script.Persistence
import BinaryPatching.Proofs.Script.Phrases
import BinaryPatching.Proofs.Script.Reauthoring
import BinaryPatching.Proofs.Script.RepeatedSearches
import BinaryPatching.Proofs.Script.Separators
import BinaryPatching.Proofs.Script.StepLimits
import BinaryPatching.Proofs.Script.StoreValidity
import BinaryPatching.Proofs.Script.StoredChecksum
import BinaryPatching.Proofs.Script.UnconditionalJumps
import BinaryPatching.Proofs.Script.Vocabulary
import BinaryPatching.Proofs.Script.WorkingCopy
import BinaryPatching.Proofs.Text.Case
import BinaryPatching.Proofs.Text.Hexadecimal
import BinaryPatching.Proofs.Text.Numerals
import BinaryPatching.Proofs.Thumb.Branches
import BinaryPatching.Proofs.Thumb.DirectBranches
import BinaryPatching.Proofs.Thumb.Groups
import BinaryPatching.Proofs.Thumb.Halves
import BinaryPatching.Proofs.Thumb.LinearDecoding
import BinaryPatching.Proofs.Thumb.Operands
import BinaryPatching.Proofs.Thumb.Printing
import BinaryPatching.Proofs.Thumb.Run
import BinaryPatching.Proofs.Thumb.Spelling
import BinaryPatching.Proofs.Thumb.Targets
import BinaryPatching.Proofs.Thumb.Vocabulary
import BinaryPatching.Script.Argument
import BinaryPatching.Script.Basic
import BinaryPatching.Script.Binding
import BinaryPatching.Script.Command
import BinaryPatching.Script.Error
import BinaryPatching.Script.Execution
import BinaryPatching.Script.Patching
import BinaryPatching.Script.Report
import BinaryPatching.Script.Search
import BinaryPatching.Script.Session
import BinaryPatching.Script.Vocabulary
import BinaryPatching.Text.Blank
import BinaryPatching.Text.CodePointSet
import BinaryPatching.Text.Duration
import BinaryPatching.Text.Lowercase
import BinaryPatching.Text.LowercaseTable
import BinaryPatching.Text.Numeral
import BinaryPatching.Text.Position
import BinaryPatching.Text.Quoted
import BinaryPatching.Text.Replace
import BinaryPatching.Text.Split
import BinaryPatching.Text.UnprintableTable
import BinaryPatching.Text.Word
import BinaryPatching.Text.WordTable
import BinaryPatching.Thumb.Decode
import BinaryPatching.Thumb.Encode
import BinaryPatching.Thumb.Encoding
import BinaryPatching.Thumb.Instruction
import BinaryPatching.Thumb.Operand
import BinaryPatching.Thumb.ShortDecode
import BinaryPatching.Thumb.WideDecode
