import HunkReview.Desk.Draw
import HunkReview.Main
import HunkReview.Screen.Shown
import HunkReview.Source.Watch
import HunkReview.Proofs.Review.Marks
import HunkReview.Proofs.Stream.Sites
import HunkReview.Proofs.Stream.Sound
import HunkReview.Proofs.Stream.Origin
import HunkReview.Proofs.Diff.Common
import HunkReview.Proofs.Stream.Outline
import HunkReview.Proofs.Stream.Placed
import HunkReview.Proofs.Text.Bytes
import HunkReview.Proofs.Stream.Inline
import HunkReview.Proofs.Review.Pinned
import HunkReview.Proofs.Stream.Insertion
import HunkReview.Proofs.Stream.Rerender
import HunkReview.Proofs.Stream.Comments
import HunkReview.Proofs.Desk.Run
import HunkReview.Proofs.Desk.Fresh
import HunkReview.Proofs.Stream.Painted
import HunkReview.Proofs.Desk.Guard
import HunkReview.Proofs.Desk.Fetches
import HunkReview.Proofs.Stream.Unmarked
import HunkReview.Proofs.Desk.InView
import HunkReview.Proofs.Diff.Sections
import HunkReview.Proofs.Diff.RoundTrip
import HunkReview.Proofs.Stream.MarksShown
import HunkReview.Proofs.Export.Listing
import HunkReview.Proofs.Desk.Keys
import HunkReview.Proofs.Desk.Prompted
import HunkReview.Proofs.Desk.Selection
import HunkReview.Proofs.Export.Summary
import HunkReview.Proofs.Export.Timestamps
import HunkReview.Proofs.Review.Refreshes
import HunkReview.Proofs.Export.JsonReader
import HunkReview.Proofs.Export.ReadBack
import HunkReview.Proofs.Export.Seen
import HunkReview.Proofs.Review.Target
import HunkReview.Proofs.Desk.Window
import HunkReview.Proofs.Stream.Headers
import HunkReview.Proofs.Desk.Navigation
import HunkReview.Proofs.Desk.Revised
import HunkReview.Proofs.Diff.First
import HunkReview.Proofs.Source.OldSide
import HunkReview.Proofs.Source.ReadOnce
import HunkReview.Proofs.Review.Replayed
import HunkReview.Proofs.Stream.Pieces
import HunkReview.Proofs.Stream.Output
import HunkReview.Proofs.Diff.Parts
import HunkReview.Proofs.Stream.Tiled
import HunkReview.Proofs.Export.Ranges
import HunkReview.Proofs.Diff.Header
import HunkReview.Proofs.Source.Ignored
import HunkReview.Proofs.Export.CodeSpan
import HunkReview.Proofs.Desk.Untouched
import HunkReview.Proofs.Toml.Documents
import HunkReview.Proofs.CommandLine.Reloaded
import HunkReview.Proofs.Review.Register
