import ByteListing.Host.Answer
import ByteListing.Main
import ByteListing.Proofs.Dex.Disassembly
import ByteListing.Proofs.Dex.Mutf8
import ByteListing.Proofs.Der.Reading
import ByteListing.Proofs.Wire.FieldFormat
import ByteListing.Proofs.Pem.Reading
import ByteListing.Proofs.Der.HeadText
import ByteListing.Proofs.Text.Utf16
import ByteListing.Proofs.Text.Utf8Decoding
import ByteListing.Proofs.Text.HexDump
import ByteListing.Proofs.Text.Literals
import ByteListing.Proofs.Wire.Unambiguous
import ByteListing.Proofs.Der.DottedText
import ByteListing.Proofs.Der.BodyText
import ByteListing.Proofs.Der.Unambiguous
import ByteListing.Proofs.Dex.Positions
import ByteListing.Proofs.Dex.Layout
import ByteListing.Proofs.Dex.Tables
import ByteListing.Proofs.Dex.ClassData
import ByteListing.Proofs.Dex.Lookup
import ByteListing.Proofs.Dex.Sequences
import ByteListing.Proofs.Der.Composition
import ByteListing.Proofs.Dex.Tiling
import ByteListing.Proofs.Schema.Declared
import ByteListing.Proofs.Schema.Entered
import ByteListing.Proofs.Schema.Reflected
import ByteListing.Proofs.Schema.Resolution
import ByteListing.Proofs.Wire.Composition
import ByteListing.Proofs.Dex.Faults
import ByteListing.Proofs.Dex.Queries
import ByteListing.Proofs.Wire.Annotation
import ByteListing.Proofs.Choices
import ByteListing.Proofs.CommandLine.World
import ByteListing.Proofs.Der.Sources
import ByteListing.Proofs.FrontEnds
import ByteListing.Proofs.Host.Signatures
import ByteListing.Proofs.Host.Replies
import ByteListing.Proofs.Host.Runs
import ByteListing.Proofs.Der.Children
import ByteListing.Proofs.Der.Expansions
import ByteListing.Proofs.Pem.Scanning
import ByteListing.Proofs.Cipher.Chaining
import ByteListing.Proofs.Cipher.Aes
import ByteListing.Proofs.Cipher.Des
import ByteListing.Proofs.Pem.Encryption
import ByteListing.Proofs.Cipher.Messages
import ByteListing.Proofs.Pem.Decryption
import ByteListing.Proofs.Wire.Scalars
import ByteListing.Proofs.Bytes.PaddedGroups
import ByteListing.Proofs.Der.Identifiers
import ByteListing.Proofs.Der.Integers
import ByteListing.Proofs.Wire.NarrowScalars
import ByteListing.Proofs.Text.OneLine
import ByteListing.Proofs.Dex.SingleLines
import ByteListing.Proofs.Der.DepthLimit
import ByteListing.Proofs.Wire.DepthLimit
import ByteListing.Proofs.Dex.TableBounds
import ByteListing.Proofs.Der.Requests
import ByteListing.Proofs.Bytes.LeastFirst
import ByteListing.Proofs.Wire.Varints
import ByteListing.Proofs.Dex.NumberReading
import ByteListing.Proofs.CommandLine.Normalization
