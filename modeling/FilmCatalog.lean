import FilmCatalog.Address.Basic
import FilmCatalog.Address.Host
import FilmCatalog.Address.Parse
import FilmCatalog.Address.Path
import FilmCatalog.Address.Percent
import FilmCatalog.Artwork.Basic
import FilmCatalog.Artwork.Placement
import FilmCatalog.Calendar
import FilmCatalog.Catalog.Config
import FilmCatalog.Catalog.Document
import FilmCatalog.Catalog.Error
import FilmCatalog.Catalog.Listing
import FilmCatalog.Catalog.Log
import FilmCatalog.Catalog.Scan
import FilmCatalog.Catalog.Tables
import FilmCatalog.CommandLine.Arguments
import FilmCatalog.CommandLine.Run
import FilmCatalog.Crew.Basic
import FilmCatalog.Crew.Cleanup
import FilmCatalog.Crew.Load
import FilmCatalog.Dates
import FilmCatalog.Files.Path
import FilmCatalog.Files.Tree
import FilmCatalog.HttpDate
import FilmCatalog.Json.Basic
import FilmCatalog.Json.Number
import FilmCatalog.Json.Printer
import FilmCatalog.Json.Reader
import FilmCatalog.Load.Basic
import FilmCatalog.Load.Error
import FilmCatalog.Main
import FilmCatalog.Matching.Exact
import FilmCatalog.Matching.Orphans
import FilmCatalog.Matching.Similarity
import FilmCatalog.Merge.Artwork
import FilmCatalog.Merge.Basic
import FilmCatalog.Merge.Crew
import FilmCatalog.Merge.Record
import FilmCatalog.Merge.Titles
import FilmCatalog.Merge.Weave
import FilmCatalog.Number.Binary64
import FilmCatalog.Number.Shortest
import FilmCatalog.Outcome
import FilmCatalog.Playback
import FilmCatalog.Proofs.Artwork.Directories
import FilmCatalog.Proofs.Artwork.FileNames
import FilmCatalog.Proofs.Artwork.Gallery
import FilmCatalog.Proofs.Artwork.Keeping
import FilmCatalog.Proofs.Artwork.Loading
import FilmCatalog.Proofs.Artwork.Pathless
import FilmCatalog.Proofs.Artwork.Placement
import FilmCatalog.Proofs.Artwork.Plan
import FilmCatalog.Proofs.Artwork.SelfMerge
import FilmCatalog.Proofs.Artwork.Stability
import FilmCatalog.Proofs.Artwork.Storing
import FilmCatalog.Proofs.Catalog.Identifiers
import FilmCatalog.Proofs.Catalog.Listing
import FilmCatalog.Proofs.Catalog.Migration
import FilmCatalog.Proofs.Catalog.Noting
import FilmCatalog.Proofs.Crew.Agreement
import FilmCatalog.Proofs.Crew.Attribution
import FilmCatalog.Proofs.Crew.Loading
import FilmCatalog.Proofs.Crew.Merging
import FilmCatalog.Proofs.Crew.Numbering
import FilmCatalog.Proofs.Crew.Pairing
import FilmCatalog.Proofs.Crew.References
import FilmCatalog.Proofs.Crew.Remerge
import FilmCatalog.Proofs.Crew.Renumbering
import FilmCatalog.Proofs.Crew.Reporting
import FilmCatalog.Proofs.Crew.Storing
import FilmCatalog.Proofs.Files.Rewriting
import FilmCatalog.Proofs.Files.WellFormed
import FilmCatalog.Proofs.Grouping.Classes
import FilmCatalog.Proofs.Grouping.Lists
import FilmCatalog.Proofs.Grouping.Texts
import FilmCatalog.Proofs.Grouping.Walks
import FilmCatalog.Proofs.Json.Length
import FilmCatalog.Proofs.Json.RoundTrip
import FilmCatalog.Proofs.Json.Scanning
import FilmCatalog.Proofs.Json.Size
import FilmCatalog.Proofs.Loading
import FilmCatalog.Proofs.Matching.Blocks
import FilmCatalog.Proofs.Matching.Counting
import FilmCatalog.Proofs.Matching.Exact
import FilmCatalog.Proofs.Matching.Greedy
import FilmCatalog.Proofs.Matching.Rows
import FilmCatalog.Proofs.Matching.Soundness
import FilmCatalog.Proofs.Merging
import FilmCatalog.Proofs.Playback.Markers
import FilmCatalog.Proofs.Playback.Remerge
import FilmCatalog.Proofs.Record.Dangling
import FilmCatalog.Proofs.Record.IntoEmpty
import FilmCatalog.Proofs.Record.Keeping
import FilmCatalog.Proofs.Record.Loading
import FilmCatalog.Proofs.Record.NormalForm
import FilmCatalog.Proofs.Record.Outcome
import FilmCatalog.Proofs.Record.Reporting
import FilmCatalog.Proofs.Record.RoundTrip
import FilmCatalog.Proofs.Record.SelfMerge
import FilmCatalog.Proofs.Record.Storing
import FilmCatalog.Proofs.Record.Writing
import FilmCatalog.Proofs.Reporting
import FilmCatalog.Proofs.SortedMap
import FilmCatalog.Proofs.Storing
import FilmCatalog.Proofs.Text
import FilmCatalog.Proofs.Titles.Keeping
import FilmCatalog.Proofs.Titles.Marking
import FilmCatalog.Proofs.Titles.NormalForm
import FilmCatalog.Proofs.Titles.Originals
import FilmCatalog.Proofs.Titles.Outcome
import FilmCatalog.Proofs.Titles.Pruning
import FilmCatalog.Proofs.Translated
import FilmCatalog.Proofs.Weave
import FilmCatalog.Record.Basic
import FilmCatalog.Record.Load
import FilmCatalog.SortedMap
import FilmCatalog.Text.Blank
import FilmCatalog.Text.Case
import FilmCatalog.Text.CaseTable
import FilmCatalog.Text.Parts
import FilmCatalog.Title
import FilmCatalog.Translated
