import EntityModel.Config.Environment
import EntityModel.Config.File
import EntityModel.Config.LogFilter
import EntityModel.Manifest.File
import EntityModel.Outline
import EntityModel.Proofs.Acyclicity
import EntityModel.Proofs.BuiltModels
import EntityModel.Proofs.BuiltinTypes
import EntityModel.Proofs.Changes
import EntityModel.Proofs.ClosedTypes
import EntityModel.Proofs.Containment
import EntityModel.Proofs.CopiedFields
import EntityModel.Proofs.CopyEffect
import EntityModel.Proofs.CopySteps
import EntityModel.Proofs.DeclarationOrder
import EntityModel.Proofs.Declarations
import EntityModel.Proofs.DeclaredModels
import EntityModel.Proofs.DeepCopy
import EntityModel.Proofs.DepthFirst
import EntityModel.Proofs.DiscardedSuperTypes
import EntityModel.Proofs.FieldOrder
import EntityModel.Proofs.FinalTypes
import EntityModel.Proofs.FlatFields
import EntityModel.Proofs.FlattenedTypes
import EntityModel.Proofs.Freezable
import EntityModel.Proofs.FreezeAdequacy
import EntityModel.Proofs.FreezeAgain
import EntityModel.Proofs.FreezeEffect
import EntityModel.Proofs.FreezeEvolution
import EntityModel.Proofs.FreezeMoment
import EntityModel.Proofs.FreezeOrder
import EntityModel.Proofs.FreezeRun
import EntityModel.Proofs.FrozenCopies
import EntityModel.Proofs.HierarchySearch
import EntityModel.Proofs.Immutability
import EntityModel.Proofs.ManifestRefs
import EntityModel.Proofs.Midway
import EntityModel.Proofs.NameIndex
import EntityModel.Proofs.NestedPaths
import EntityModel.Proofs.Outcomes
import EntityModel.Proofs.PathComposition
import EntityModel.Proofs.PathSemantics
import EntityModel.Proofs.PathTexts
import EntityModel.Proofs.Placeholders
import EntityModel.Proofs.PlainNames
import EntityModel.Proofs.ProperShapes
import EntityModel.Proofs.RealizedManifests
import EntityModel.Proofs.Registrations
import EntityModel.Proofs.RenumberedModels
import EntityModel.Proofs.Renumbering
import EntityModel.Proofs.RoundTrip
import EntityModel.Proofs.Runs
import EntityModel.Proofs.ShadowSearch
import EntityModel.Proofs.Shadows
import EntityModel.Proofs.StaleEdges
import EntityModel.Proofs.Steps
import EntityModel.Proofs.SubtypeConverse
import EntityModel.Proofs.SubtypeTrees
import EntityModel.Proofs.Traversals
import EntityModel.Proofs.UnseenCopies
import EntityModel.Proofs.Usages
import EntityModel.Proofs.WrittenSteps
import EntityModel.Session
import EntityModel.Validation
