import MarkupOutline.Draft
import MarkupOutline.Main
import MarkupOutline.Log.Channel
import MarkupOutline.Service.Launch
import MarkupOutline.Service.Outcome
import MarkupOutline.Tree.Walk
import MarkupOutline.Proofs.Nest
import MarkupOutline.Proofs.Numbering
import MarkupOutline.Proofs.Building
import MarkupOutline.Proofs.FullTree
import MarkupOutline.Proofs.Showing
import MarkupOutline.Proofs.AssemblySteps
import MarkupOutline.Proofs.Laid
import MarkupOutline.Proofs.Pruned
import MarkupOutline.Proofs.Strictness
import MarkupOutline.Proofs.WellNested
import MarkupOutline.Proofs.LineFeeds
import MarkupOutline.Proofs.Content
import MarkupOutline.Proofs.TagAttributes
import MarkupOutline.Proofs.ContentReturns
import MarkupOutline.Proofs.Quoting
import MarkupOutline.Proofs.ReadingAsides
import MarkupOutline.Proofs.ReadingTags
import MarkupOutline.Proofs.WellFormed
import MarkupOutline.Proofs.InnermostElement
import MarkupOutline.Proofs.Lines
import MarkupOutline.Proofs.Provenance
import MarkupOutline.Proofs.TagPlaces
import MarkupOutline.Proofs.SourceFidelity
import MarkupOutline.Proofs.Following
import MarkupOutline.Proofs.Continuation
import MarkupOutline.Proofs.EditLocality
import MarkupOutline.Proofs.CacheTransparency
import MarkupOutline.Proofs.Elsewhere
import MarkupOutline.Proofs.FurtherDown
import MarkupOutline.Proofs.Concatenation
import MarkupOutline.Proofs.Views
import MarkupOutline.Proofs.ErrorBoundary
import MarkupOutline.Proofs.Writable
import MarkupOutline.Proofs.Serialized
import MarkupOutline.Proofs.SlotContents
import MarkupOutline.Proofs.Levels
import MarkupOutline.Proofs.ServiceAnswers
import MarkupOutline.Proofs.RequestFields
import MarkupOutline.Proofs.StatusClasses
import MarkupOutline.Proofs.EndpointAgreement
import MarkupOutline.Proofs.SourceTags
import MarkupOutline.Proofs.Likeness
import MarkupOutline.Proofs.TagLayout
import MarkupOutline.Proofs.LeftmostAttributes
import MarkupOutline.Proofs.OpeningTags
import MarkupOutline.Proofs.TagValues
import MarkupOutline.Proofs.ClosingBehind
import MarkupOutline.Proofs.LineEnds
import MarkupOutline.Proofs.LetterCase
import MarkupOutline.Proofs.PlaceText
import MarkupOutline.Proofs.TextTree
import MarkupOutline.Proofs.PartOrder
import MarkupOutline.Proofs.TagEnds
import MarkupOutline.Proofs.Turns
import MarkupOutline.Proofs.SpanPositions
