import BookCatalog.Main
import BookCatalog.Markup.Reading
import BookCatalog.Proofs.Interaction
import BookCatalog.Service.Ticket
import BookCatalog.Web.Handlers
import BookCatalog.Proofs.Service.Bulk
import BookCatalog.Proofs.Ranking.Order
import BookCatalog.Proofs.Ranking.Placement
import BookCatalog.Proofs.Web.Server
import BookCatalog.Proofs.Web.State
import BookCatalog.Proofs.Web.Pending
import BookCatalog.Proofs.Web.Failure
import BookCatalog.Proofs.Web.Frame
import BookCatalog.Proofs.Web.Order
import BookCatalog.Proofs.Web.Overtaking
import BookCatalog.Proofs.Query.Compile
import BookCatalog.Proofs.Chart.Drawing
import BookCatalog.Proofs.Command.Input
import BookCatalog.Proofs.Service.Url
import BookCatalog.Proofs.Query.Search
import BookCatalog.Proofs.Command.Switch
import BookCatalog.Proofs.Except
import BookCatalog.Proofs.Record.Reading
import BookCatalog.Proofs.Service.Outcome
import BookCatalog.Proofs.Web.Report
import BookCatalog.Proofs.Command.Session
import BookCatalog.Proofs.Command.Assignment
import BookCatalog.Proofs.Service.Call
import BookCatalog.Proofs.Command.Validity
import BookCatalog.Proofs.Command.Course
import BookCatalog.Proofs.Command.Output
import BookCatalog.Proofs.RoundTrip
import BookCatalog.Proofs.Json.Ordered
import BookCatalog.Proofs.Record.Vocabulary
import BookCatalog.Proofs.Text.Bytes
import BookCatalog.Proofs.Record.Body
import BookCatalog.Proofs.Service.Found
import BookCatalog.Proofs.Ranking.Stability
import BookCatalog.Proofs.Record.Batch
import BookCatalog.Proofs.Ranking.Rearrangement
import BookCatalog.Proofs.Chart.Exact
import BookCatalog.Proofs.Chart.Tiling
import BookCatalog.Proofs.Chart.Tick
import BookCatalog.Proofs.Chart.Scale
import BookCatalog.Proofs.Double.Nearest
import BookCatalog.Proofs.Double.Amount
import BookCatalog.Proofs.Double.Packing
import BookCatalog.Proofs.Double.Rounding
import BookCatalog.Proofs.Double.Arithmetic
import BookCatalog.Proofs.Double.Order
import BookCatalog.Proofs.Chart.Ranking
import BookCatalog.Proofs.Double.Size
import BookCatalog.Proofs.Chart.Extent
import BookCatalog.Proofs.Chart.Rendering
import BookCatalog.Proofs.Ranking.Bar
import BookCatalog.Proofs.Settings.Url
import BookCatalog.Proofs.Command.AssignedRecord
import BookCatalog.Proofs.Ranking.RatingText
import BookCatalog.Proofs.Ranking.Loop
import BookCatalog.Proofs.Ranking.Table
import BookCatalog.Proofs.Settings.Run
import BookCatalog.Proofs.Service.Base
