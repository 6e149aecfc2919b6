import KeyholeMarkup.Main
import KeyholeMarkup.Diagnostic.Catalog
import KeyholeMarkup.Geometry.Angle
import KeyholeMarkup.Proofs.Schema.Acceptance
import KeyholeMarkup.Proofs.Schema.Adoption
import KeyholeMarkup.Proofs.Schema.AttributesRead
import KeyholeMarkup.Proofs.Schema.ReadOnce
import KeyholeMarkup.Proofs.Schema.Reordering
import KeyholeMarkup.Proofs.Schema.Skipping
import KeyholeMarkup.Proofs.Script.Feeding
import KeyholeMarkup.Proofs.Script.Printing
import KeyholeMarkup.Proofs.Script.Refusal
import KeyholeMarkup.Proofs.Script.RoundTrip
import KeyholeMarkup.Proofs.Xml.CharacterData
import KeyholeMarkup.Proofs.Xml.StartTags
import KeyholeMarkup.Proofs.Xml.Recorded
import KeyholeMarkup.Proofs.Xml.RestyledReading
import KeyholeMarkup.Proofs.Xml.Rewriting
import KeyholeMarkup.Proofs.Xml.RoundTrip
import KeyholeMarkup.Proofs.Xml.Truncation
import KeyholeMarkup.Proofs.Xml.Spans
import KeyholeMarkup.Proofs.Xml.NormalForm
import KeyholeMarkup.Proofs.Schema.Visits
import KeyholeMarkup.Proofs.Schema.IssueOrder
import KeyholeMarkup.Proofs.Schema.AttributeLists
import KeyholeMarkup.Proofs.Schema.ElementPaths
import KeyholeMarkup.Proofs.Schema.DistinctIssues
import KeyholeMarkup.Proofs.Schema.Lookups
import KeyholeMarkup.Proofs.Schema.GroupMembers
import KeyholeMarkup.Proofs.Schema.GroupChains
import KeyholeMarkup.Proofs.BareResults
import KeyholeMarkup.Proofs.Script.Interruptions
import KeyholeMarkup.Proofs.Command.Outcomes
import KeyholeMarkup.Proofs.Xml.Agreement
import KeyholeMarkup.Proofs.Script.Decoding
import KeyholeMarkup.Proofs.Xml.Traversal
import KeyholeMarkup.Proofs.ClarkNotation
import KeyholeMarkup.Proofs.Source.Locations
import KeyholeMarkup.Proofs.Diagnostic.Presentation
import KeyholeMarkup.Proofs.Diagnostic.Records
import KeyholeMarkup.Proofs.OrderedMap
import KeyholeMarkup.Proofs.Xml.Sections
import KeyholeMarkup.Proofs.Xml.Counts
import KeyholeMarkup.Proofs.Command.CountReport
import KeyholeMarkup.Proofs.Geometry.Polygons
import KeyholeMarkup.Proofs.Xml.FreshPrefixes
