import ComponentPipeline.Json.Writer
import ComponentPipeline.SourceMap.Vlq
import ComponentPipeline.Options.Reader
import ComponentPipeline.Document.Preprocess
import ComponentPipeline.Proofs.Css.Lossless
import ComponentPipeline.Proofs.Css.GlobalizedRules
import ComponentPipeline.Proofs.Document.Assembly
import ComponentPipeline.Proofs.Document.FaithfulMap
import ComponentPipeline.Proofs.Css.LinePositions
import ComponentPipeline.Proofs.Css.Nodes
import ComponentPipeline.Proofs.Css.PrintedMap
import ComponentPipeline.Proofs.Css.Stability
import ComponentPipeline.Proofs.Document.ChainedMaps
import ComponentPipeline.Proofs.Document.Composition
import ComponentPipeline.Proofs.Document.CompletionOrder
import ComponentPipeline.Proofs.Chain.Sequence
import ComponentPipeline.Proofs.Document.MapIndependence
import ComponentPipeline.Proofs.Document.Unchanged
import ComponentPipeline.Proofs.Css.Removal
import ComponentPipeline.Proofs.Document.DisabledLanguage
import ComponentPipeline.Proofs.Document.Dependencies
import ComponentPipeline.Proofs.Document.NestedBlocks
import ComponentPipeline.Proofs.Css.Progress
import ComponentPipeline.Proofs.Css.Concatenation
import ComponentPipeline.Proofs.Document.UndonePreparation
import ComponentPipeline.Proofs.Document.TracedMap
import ComponentPipeline.Proofs.Content.CommonIndent
import ComponentPipeline.Proofs.Content.Reindentation
import ComponentPipeline.Proofs.Content.LineByLine
import ComponentPipeline.Proofs.Selector.GlobalizedAgain
import ComponentPipeline.Proofs.Css.MarkersGone
import ComponentPipeline.Proofs.Css.RejectedMarkers
import ComponentPipeline.Proofs.Selector.WrittenSequences
import ComponentPipeline.Proofs.Css.SetSelectors
import ComponentPipeline.Proofs.Css.VisitedRules
import ComponentPipeline.Proofs.Css.SyntaxErrors
import ComponentPipeline.Proofs.Css.TellingComments
import ComponentPipeline.Proofs.FileStore.LatestWrite
import ComponentPipeline.Proofs.Block.Description
import ComponentPipeline.Proofs.Block.CommentedOut
import ComponentPipeline.Proofs.Block.WrittenAttributes
import ComponentPipeline.Proofs.Chain.Policy
import ComponentPipeline.Proofs.Options.SettingViews
import ComponentPipeline.Proofs.Language.CanonicalNames
import ComponentPipeline.Proofs.Selector.ExactSegments
import ComponentPipeline.Proofs.Css.AgreeingLocations
