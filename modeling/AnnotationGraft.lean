import AnnotationGraft.Annotations.Basic
import AnnotationGraft.Annotations.Describe
import AnnotationGraft.Annotations.Set
import AnnotationGraft.Annotations.SourceForm
import AnnotationGraft.Annotations.Wire
import AnnotationGraft.Bytes.BigEndian
import AnnotationGraft.Bytes.Scan
import AnnotationGraft.ClassFile.Basic
import AnnotationGraft.ClassFile.Decode
import AnnotationGraft.ClassFile.DecodeError
import AnnotationGraft.ClassFile.Encode
import AnnotationGraft.ClassFile.EncodeError
import AnnotationGraft.ClassFile.MemberKind
import AnnotationGraft.Command.Arguments
import AnnotationGraft.Command.BatchReport
import AnnotationGraft.Command.ClassTree
import AnnotationGraft.Command.Ending
import AnnotationGraft.Command.Formats
import AnnotationGraft.Command.Inspection
import AnnotationGraft.Command.Run
import AnnotationGraft.Command.SettingsFile
import AnnotationGraft.Command.SettingsFile.Document
import AnnotationGraft.Command.SettingsFile.Moment
import AnnotationGraft.Command.SettingsFile.Number
import AnnotationGraft.Command.SettingsFile.Statement
import AnnotationGraft.Command.SettingsFile.Text
import AnnotationGraft.ConstantPool.Basic
import AnnotationGraft.ConstantPool.Constant
import AnnotationGraft.ConstantPool.Interning
import AnnotationGraft.ConstantPool.References
import AnnotationGraft.ConstantPool.Segment
import AnnotationGraft.Descriptor.FieldType
import AnnotationGraft.Descriptor.Recognition
import AnnotationGraft.Descriptor.SourceForm
import AnnotationGraft.FileSystem.Basic
import AnnotationGraft.FileSystem.FileTree
import AnnotationGraft.FileSystem.Path
import AnnotationGraft.Graft.Attempt
import AnnotationGraft.Graft.Batch
import AnnotationGraft.Graft.Fusion
import AnnotationGraft.Graft.GraftError
import AnnotationGraft.Graft.Grouping
import AnnotationGraft.Graft.Matching
import AnnotationGraft.Graft.Merge
import AnnotationGraft.Graft.Settings
import AnnotationGraft.Graft.Transplant
import AnnotationGraft.Main
import AnnotationGraft.Text.Json
import AnnotationGraft.Text.ModifiedUtf8
import AnnotationGraft.Text.PositionalDecimal
import AnnotationGraft.Text.Quoted
import AnnotationGraft.Text.Segments
import AnnotationGraft.Text.Unprintable
import AnnotationGraft.Text.Utf16
import AnnotationGraft.Proofs.Bytes.Reading
import AnnotationGraft.Proofs.ConstantPool.Growth
import AnnotationGraft.Proofs.ConstantPool.Interning
import AnnotationGraft.Proofs.Text.ModifiedUtf8
import AnnotationGraft.Proofs.ConstantPool.Lookup
import AnnotationGraft.Proofs.ConstantPool.Segment
import AnnotationGraft.Proofs.Annotations.WellFormed
import AnnotationGraft.Proofs.Annotations.Wire
import AnnotationGraft.Proofs.ClassFile.AttributeTable
import AnnotationGraft.Proofs.ClassFile.AttributeBytes
import AnnotationGraft.Proofs.ClassFile.AttributeScan
import AnnotationGraft.Proofs.ClassFile.ClassBytes
import AnnotationGraft.Proofs.ClassFile.ClassScan
import AnnotationGraft.Proofs.ClassFile.RoundTrip
import AnnotationGraft.Proofs.Graft.Merge
import AnnotationGraft.Proofs.Graft.Fusion
import AnnotationGraft.Proofs.Graft.Donation
import AnnotationGraft.Proofs.Graft.Verification
import AnnotationGraft.Proofs.Graft.Grafting
import AnnotationGraft.Proofs.ClassFile.Rereading
import AnnotationGraft.Proofs.Graft.Chain
import AnnotationGraft.Proofs.Graft.Grouping
import AnnotationGraft.Proofs.Graft.Partition
import AnnotationGraft.Proofs.Graft.Parallel
import AnnotationGraft.Proofs.Graft.Isolation
import AnnotationGraft.Proofs.Graft.Accumulation
import AnnotationGraft.Proofs.Bytes.Delimiting
import AnnotationGraft.Proofs.ClassFile.Truncation
import AnnotationGraft.Proofs.ConstantPool.Layout
import AnnotationGraft.Proofs.ClassFile.AttributeOrigin
import AnnotationGraft.Proofs.ClassFile.Invariants
import AnnotationGraft.Proofs.ClassFile.Editing
import AnnotationGraft.Proofs.Text.ShortestForm
import AnnotationGraft.Proofs.Annotations.Texts
import AnnotationGraft.Proofs.ClassFile.Texts
import AnnotationGraft.Proofs.Graft.Transplant
import AnnotationGraft.Proofs.Graft.FusedOutput
import AnnotationGraft.Proofs.Graft.Endings
import AnnotationGraft.Proofs.ConstantPool.Requests
import AnnotationGraft.Proofs.Graft.Course
import AnnotationGraft.Proofs.ConstantPool.Demand
import AnnotationGraft.Proofs.Annotations.Items
import AnnotationGraft.Proofs.ClassFile.Limits
import AnnotationGraft.Proofs.FileSystem.Paths
import AnnotationGraft.Proofs.FileSystem.Places
import AnnotationGraft.Proofs.FileSystem.Computations
import AnnotationGraft.Proofs.FileSystem.Laws
import AnnotationGraft.Proofs.FileSystem.Operations
import AnnotationGraft.Proofs.Command.Storing
import AnnotationGraft.Proofs.Command.Reading
import AnnotationGraft.Proofs.Command.Running
import AnnotationGraft.Proofs.Command.Reports
import AnnotationGraft.Proofs.Command.GraftRun
import AnnotationGraft.Proofs.Text.Groups
import AnnotationGraft.Proofs.Text.Language
import AnnotationGraft.Proofs.Annotations.Normal
import AnnotationGraft.Proofs.Annotations.History
import AnnotationGraft.Proofs.Graft.MergeReport
import AnnotationGraft.Proofs.Descriptor.Grammar
import AnnotationGraft.Proofs.Descriptor.Reading
import AnnotationGraft.Proofs.Descriptor.Splitting
import AnnotationGraft.Proofs.Graft.FusionOrder
import AnnotationGraft.Proofs.Graft.Interruption
import AnnotationGraft.Proofs.Graft.Stopping
import AnnotationGraft.Proofs.Graft.InMemory
import AnnotationGraft.Proofs.Graft.Recipient
import AnnotationGraft.Proofs.Command.Confinement
import AnnotationGraft.Proofs.Command.Inspection
import AnnotationGraft.Proofs.ConstantPool.Correspondence
import AnnotationGraft.Proofs.Annotations.Nesting
