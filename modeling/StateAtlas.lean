import StateAtlas.Brush.Interaction
import StateAtlas.CommandLine.Memory
import StateAtlas.CommandLine.Program
import StateAtlas.Graph.BestPath
import StateAtlas.Graph.Rehearsal
import StateAtlas.Json.Reader
import StateAtlas.Main
import StateAtlas.Overview.Link
import StateAtlas.Session.Annotation
import StateAtlas.Session.BestPath
import StateAtlas.Session.Desk
import StateAtlas.Session.Lifecycle
import StateAtlas.Session.Selection
import StateAtlas.Proofs.Graph.Growth
import StateAtlas.Proofs.Graph.EdgeNames
import StateAtlas.Proofs.Pane.Lineage
import StateAtlas.Proofs.Except
import StateAtlas.Proofs.Pane.Relinking
import StateAtlas.Proofs.Pane.Evolution
import StateAtlas.Proofs.Pane.WellFormed
import StateAtlas.Proofs.Pane.Commands
import StateAtlas.Proofs.Session.Alteration
import StateAtlas.Proofs.Session.Turnover
import StateAtlas.Proofs.Session.Tickets
import StateAtlas.Proofs.Session.Ledger
import StateAtlas.Proofs.Session.Serialization
import StateAtlas.Proofs.Brush.Coalescing
import StateAtlas.Proofs.Brush.Agreement
import StateAtlas.Proofs.Brush.Normal
import StateAtlas.Proofs.Session.Commands
import StateAtlas.Proofs.Session.Freshness
import StateAtlas.Proofs.Session.FreshRuns
import StateAtlas.Proofs.Graph.Hops
import StateAtlas.Proofs.Graph.Following
import StateAtlas.Proofs.Graph.Union
import StateAtlas.Proofs.Graph.Strategy
import StateAtlas.Proofs.Graph.Capacity
import StateAtlas.Proofs.Graph.Expanded
import StateAtlas.Proofs.Graph.Additions
import StateAtlas.Proofs.Pane.Accounting
import StateAtlas.Proofs.Pane.Eviction
import StateAtlas.Proofs.Pane.Registry
import StateAtlas.Proofs.Pane.Merging
import StateAtlas.Proofs.Pane.Removal
import StateAtlas.Proofs.Pane.Descendants
import StateAtlas.Proofs.Pane.Procedures
import StateAtlas.Proofs.Pane.Refusals
import StateAtlas.Proofs.Pane.Batches
import StateAtlas.Proofs.Pane.Duplicates
import StateAtlas.Proofs.Pane.Counterparts
import StateAtlas.Proofs.Session.Soundness
import StateAtlas.Proofs.Session.Merges
import StateAtlas.Proofs.Session.Duplicates
import StateAtlas.Proofs.Dictionary
import StateAtlas.Proofs.Sync.Recurrence
import StateAtlas.Proofs.Sync.Bus
import StateAtlas.Proofs.Session.Decorations
import StateAtlas.Proofs.Session.DecoratedRuns
import StateAtlas.Proofs.Pane.Timeline
import StateAtlas.Proofs.Session.Courses
import StateAtlas.Proofs.Session.Timelines
import StateAtlas.Proofs.Session.Finishing
import StateAtlas.Proofs.Session.FinishingOrder
import StateAtlas.Proofs.Session.Announcements
import StateAtlas.Proofs.Session.Reopening
import StateAtlas.Proofs.Session.Importing
import StateAtlas.Proofs.Pane.Past
import StateAtlas.Proofs.Session.Past
import StateAtlas.Proofs.Session.Operations
import StateAtlas.Proofs.Session.PastDesk
import StateAtlas.Proofs.Session.Restart
import StateAtlas.Proofs.Json.Quoting
import StateAtlas.Proofs.Decimal.Finite
import StateAtlas.Proofs.Json.Numbers
import StateAtlas.Proofs.Json.Structure
import StateAtlas.Proofs.Json.Reading
import StateAtlas.Proofs.Json.Fields
import StateAtlas.Proofs.Model.Encoding
import StateAtlas.Proofs.Document.Encoding
import StateAtlas.Proofs.Graph.Origins
import StateAtlas.Proofs.Document.RoundTrip
import StateAtlas.Proofs.Sync.Delivery
import StateAtlas.Proofs.Brush.Growth
import StateAtlas.Proofs.Session.Separation
import StateAtlas.Proofs.Session.Exploring
import StateAtlas.Proofs.Graph.Forecast
import StateAtlas.Proofs.Graph.Accounts
import StateAtlas.Proofs.Session.Resting
import StateAtlas.Proofs.Session.Setbacks
import StateAtlas.Proofs.Session.Redirecting
import StateAtlas.Proofs.Decimal.Order
import StateAtlas.Proofs.Document.Archive
import StateAtlas.Proofs.Document.Files
import StateAtlas.Proofs.Graph.Heaviest
import StateAtlas.Proofs.Brush.Purity
import StateAtlas.Proofs.Document.Excerpts
import StateAtlas.Proofs.Brush.Attribution
import StateAtlas.Proofs.Brush.Display
import StateAtlas.Proofs.Brush.Moving
import StateAtlas.Proofs.Brush.Drawing
import StateAtlas.Proofs.Brush.Pixels
import StateAtlas.Proofs.Brush.Extremes
import StateAtlas.Proofs.Pane.Splits
import StateAtlas.Proofs.Document.Mismatches
import StateAtlas.Proofs.Brush.Toggling
import StateAtlas.Proofs.Brush.Fullness
import StateAtlas.Proofs.Pane.Toggling
import StateAtlas.Proofs.Pane.Undoing
import StateAtlas.Proofs.Sync.Queries
import StateAtlas.Proofs.Overview.Messages
import StateAtlas.Proofs.Overview.Relaying
import StateAtlas.Proofs.Sync.Debounce
import StateAtlas.Proofs.CommandLine.Values
import StateAtlas.Proofs.CommandLine.Flags
import StateAtlas.Proofs.Graph.SharedNames
import StateAtlas.Proofs.Pane.Naming
/-!
Exploring large state spaces piece by piece.

A session keeps panes; each pane holds a growing part of a transition system, shows its attributes
on brushable axes and stands in a lineage of panes.  See `StateAtlas.Session.Basic` for the session,
`StateAtlas.Pane.Table` for the panes, `StateAtlas.Graph.Store` for what a pane holds, and
`StateAtlas.CommandLine.Program` for the program.
-/
