import SchemaQuery.Config.File
import SchemaQuery.Error
import SchemaQuery.Form.Config
import SchemaQuery.Form.Shape
import SchemaQuery.Model.Build
import SchemaQuery.Proofs.AddedDeclarations
import SchemaQuery.Proofs.ComparatorBlanks
import SchemaQuery.Proofs.Comparisons
import SchemaQuery.Proofs.Composition
import SchemaQuery.Proofs.ConflictPolicies
import SchemaQuery.Proofs.DeclarationOrder
import SchemaQuery.Proofs.Delivery
import SchemaQuery.Proofs.Freezing
import SchemaQuery.Proofs.GluedTexts
import SchemaQuery.Proofs.IdGrammar
import SchemaQuery.Proofs.IdOrder
import SchemaQuery.Proofs.IndexedShapes
import SchemaQuery.Proofs.Inheritance
import SchemaQuery.Proofs.InheritedBindings
import SchemaQuery.Proofs.KeyedTraits
import SchemaQuery.Proofs.LegacySetSearch
import SchemaQuery.Proofs.LetterCase
import SchemaQuery.Proofs.Lookups
import SchemaQuery.Proofs.NormalForms
import SchemaQuery.Proofs.ParserRange
import SchemaQuery.Proofs.Positions
import SchemaQuery.Proofs.RecordedMisuse
import SchemaQuery.Proofs.RememberedRoots
import SchemaQuery.Proofs.RenamedSearch
import SchemaQuery.Proofs.ResolutionOrder
import SchemaQuery.Proofs.TraitDefinitions
import SchemaQuery.Proofs.TraitPaths
import SchemaQuery.Proofs.TraitReferences
import SchemaQuery.Proofs.VariableScoping
import SchemaQuery.Selector.Query
import SchemaQuery.Shape.Basic
