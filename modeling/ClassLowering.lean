import ClassLowering.Main
import ClassLowering.Proofs.BatchOrder
import ClassLowering.Proofs.IntegerCode.Preservation
import ClassLowering.Proofs.Members.Agreement
import ClassLowering.Proofs.References.Closed
import ClassLowering.Proofs.Encoding.Instructions
import ClassLowering.Proofs.Encoding.Outcomes
import ClassLowering.Proofs.Truncation
import ClassLowering.Proofs.Isolation
import ClassLowering.Proofs.Encoding.Constants
import ClassLowering.Proofs.Encoding.Attributes
import ClassLowering.Proofs.Encoding.Classes
import ClassLowering.Proofs.Noninterference
import ClassLowering.Proofs.Attachment
import ClassLowering.Proofs.ConstantPool.Kinds
import ClassLowering.Proofs.ConstantPool.Acceptance
import ClassLowering.Proofs.ConstantPool.Accessors
import ClassLowering.Proofs.Storage.Answers
import ClassLowering.Proofs.Emission.LocalAccess
import ClassLowering.Proofs.Emission.Contributions
import ClassLowering.Proofs.Emission.StackDepth
import ClassLowering.Proofs.Surface
import ClassLowering.Proofs.Nesting
import ClassLowering.Proofs.DescriptorGrammar
import ClassLowering.Proofs.Members.Search
import ClassLowering.Proofs.Members.Signatures
import ClassLowering.Proofs.ConstantPool.Texts
import ClassLowering.Proofs.Encoding.Concatenation
import ClassLowering.Proofs.Encoding.Buffers
import ClassLowering.Proofs.Framing
import ClassLowering.Proofs.CursorStack
import ClassLowering.Proofs.TypeNames
import ClassLowering.Proofs.Storage.Labels
import ClassLowering.Proofs.Registry
import ClassLowering.Proofs.Storage.Arguments
import ClassLowering.Proofs.Batches
