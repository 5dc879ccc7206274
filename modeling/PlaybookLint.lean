import PlaybookLint.Main
import PlaybookLint.Session
import PlaybookLint.Proofs.Paths
import PlaybookLint.Proofs.Placement
import PlaybookLint.Proofs.Reading
import PlaybookLint.Proofs.Scanning
import PlaybookLint.Proofs.QuotedRanges
import PlaybookLint.Proofs.Splitting
import PlaybookLint.Proofs.Content
import PlaybookLint.Proofs.Flattening
import PlaybookLint.Proofs.Correlation
import PlaybookLint.Proofs.Attachment
import PlaybookLint.Proofs.LineMap
import PlaybookLint.Proofs.CarryOver
import PlaybookLint.Proofs.Silencing
import PlaybookLint.Proofs.FindingOrder
import PlaybookLint.Proofs.Provenance
import PlaybookLint.Proofs.Isolation
import PlaybookLint.Proofs.Sifting
import PlaybookLint.Proofs.Home
import PlaybookLint.Proofs.Tolerance
import PlaybookLint.Proofs.Serialization
import PlaybookLint.Proofs.Aliases
import PlaybookLint.Proofs.AllOrNothing
import PlaybookLint.Proofs.BlockBodies
import PlaybookLint.Proofs.Inquiry
import PlaybookLint.Proofs.OutdatedOnce
import PlaybookLint.Proofs.ShownPath
import PlaybookLint.Proofs.Locations
import PlaybookLint.Proofs.ScanRoot
import PlaybookLint.Proofs.FileSearch
import PlaybookLint.Proofs.Ownership
import PlaybookLint.Proofs.Lookup
import PlaybookLint.Proofs.Nesting
import PlaybookLint.Proofs.Descent
import PlaybookLint.Proofs.Words
import PlaybookLint.Proofs.Spelling
import PlaybookLint.Proofs.Pinning
import PlaybookLint.Proofs.Containers
import PlaybookLint.Proofs.Duplicates
import PlaybookLint.Proofs.Matching
import PlaybookLint.Proofs.NameChecks
import PlaybookLint.Proofs.MarkerNames
import PlaybookLint.Proofs.CanonicalNames
import PlaybookLint.Proofs.Facts
import PlaybookLint.Proofs.RecommendedPrefix
import PlaybookLint.Proofs.Annotations
import PlaybookLint.Proofs.Grouping
import PlaybookLint.Proofs.JsonReading
import PlaybookLint.Proofs.ReportReading
