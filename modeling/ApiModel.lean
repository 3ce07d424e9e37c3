import ApiModel.Compile
import ApiModel.ConstraintParser
import ApiModel.Proofs.OrderIndependence
import ApiModel.Proofs.SchemaOrder
import ApiModel.Proofs.Offsets
import ApiModel.Proofs.Outline
import ApiModel.Proofs.RootElement
import ApiModel.Proofs.BaseDocument
import ApiModel.Proofs.Emission
import ApiModel.Proofs.StructTags
import ApiModel.Proofs.SchemaInheritance
import ApiModel.Proofs.ReferenceClosure
import ApiModel.Proofs.Escaping
import ApiModel.Proofs.Rendering
import ApiModel.Proofs.RoundTrip
import ApiModel.Proofs.RegistryInvariant
import ApiModel.Proofs.Interning
import ApiModel.Proofs.SchemaNames
import ApiModel.Proofs.Lockstep
import ApiModel.Proofs.Repeats
import ApiModel.Proofs.RepeatsInert
import ApiModel.Proofs.Chains
import ApiModel.Proofs.FileOutput
import ApiModel.Proofs.ConstraintQueue
import ApiModel.Proofs.ConstraintParsing
import ApiModel.Proofs.Fixup
import ApiModel.Proofs.Additions
import ApiModel.Proofs.MemberEntries
import ApiModel.Proofs.OverridePrecedence
import ApiModel.Proofs.EscapeMarkers
import ApiModel.Proofs.EnumFacets
import ApiModel.Proofs.ExpressionText
import ApiModel.Proofs.Annotations
import ApiModel.Proofs.TypeNames
import ApiModel.Proofs.SingleRoot
