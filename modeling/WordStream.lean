import WordStream.Tool
import WordStream.Proofs.Body.Conservation
import WordStream.Proofs.Body.Ancestry
import WordStream.Proofs.Body.Erasure
import WordStream.Proofs.Body.Manuscript
import WordStream.Proofs.Body.Skeleton
import WordStream.Proofs.Body.Splitting
import WordStream.Proofs.Body.Suppression
import WordStream.Proofs.Tool.Agreement
import WordStream.Proofs.Body.Place
import WordStream.Proofs.Body.View
import WordStream.Proofs.Body.Pictures
import WordStream.Proofs.Body.RunFormats
import WordStream.Proofs.Body.ParagraphFormats
import WordStream.Proofs.Body.RemovedText
import WordStream.Proofs.Body.Quiescence
import WordStream.Proofs.Body.ParagraphStarts
import WordStream.Proofs.Content.Rendering
import WordStream.Proofs.Tool.Reporting
import WordStream.Proofs.Body.Gate
import WordStream.Proofs.Body.Transparency
import WordStream.Proofs.Body.FormatContainment
import WordStream.Proofs.Body.Outline
import WordStream.Proofs.Body.AttributeOrder
import WordStream.Proofs.Body.Refusal
import WordStream.Proofs.Date.RoundTrip
import WordStream.Proofs.Package.Listing
import WordStream.Proofs.Package.MissingPart
import WordStream.Proofs.Package.RelationshipFiles
import WordStream.Proofs.Input.Source
import WordStream.Proofs.Markup.Declared
