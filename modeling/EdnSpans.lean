import EdnSpans.Attribution.Attributed
import EdnSpans.Document
import EdnSpans.Export.Outline
import EdnSpans.Form.Path
import EdnSpans.Form.Printer
import EdnSpans.Locate.Match
import EdnSpans.Reader.Basic
import EdnSpans.Session
import EdnSpans.Token.Stream
import EdnSpans.Proofs.Token.Run
import EdnSpans.Proofs.Reader.Parse
import EdnSpans.Proofs.Locate.Balance
import EdnSpans.Proofs.Reader.Layout
import EdnSpans.Proofs.Attribution.Lookup
import EdnSpans.Proofs.Locate.Match
import EdnSpans.Proofs.Attribution.Trace
import EdnSpans.Proofs.Attribution.Placement
import EdnSpans.Proofs.Attribution.Exact
import EdnSpans.Proofs.Reader.RoundTrip
import EdnSpans.Proofs.Reader.Grammar
import EdnSpans.Proofs.Reader.Tiling
import EdnSpans.Proofs.Token.Seam
import EdnSpans.Proofs.Attribution.Shift
import EdnSpans.Proofs.Document
import EdnSpans.Proofs.Attribution.Containment
import EdnSpans.Proofs.Token.Progress
import EdnSpans.Proofs.Reader.Descent
import EdnSpans.Proofs.Reader.Verdict
import EdnSpans.Proofs.Excerpt
import EdnSpans.Proofs.Reader.Calls
import EdnSpans.Proofs.Attribution.Renewal
import EdnSpans.Proofs.Attribution.Policy
import EdnSpans.Proofs.Form.Order
import EdnSpans.Proofs.Attribution.Walk
import EdnSpans.Proofs.Reader.Blanking
import EdnSpans.Proofs.Attribution.Comments
import EdnSpans.Proofs.Locate.Muting
import EdnSpans.Proofs.Attribution.Siblings
import EdnSpans.Proofs.Attribution.Unordered
import EdnSpans.Proofs.Attribution.PathLocal
import EdnSpans.Proofs.Export.Json
import EdnSpans.Proofs.Export.Outline
import EdnSpans.Proofs.Attribution.Translation
import EdnSpans.Proofs.Locate.ByBytes
import EdnSpans.Proofs.Locate.Locator
import EdnSpans.Proofs.Token.Integer
import EdnSpans.Proofs.Number.Rounding
import EdnSpans.Proofs.Number.Shortest
import EdnSpans.Proofs.Token.Float
import EdnSpans.Proofs.Token.Rejected
import EdnSpans.Proofs.Locate.Decided
