import SoundAtlas.Cache.Loading
import SoundAtlas.Cache.Store
import SoundAtlas.Cache.Version
import SoundAtlas.Catalog.Basic
import SoundAtlas.Catalog.LinkType
import SoundAtlas.Catalog.Records
import SoundAtlas.CommandLine.Argument
import SoundAtlas.CommandLine.Request
import SoundAtlas.CommandLine.Run
import SoundAtlas.CommandLine.Usage
import SoundAtlas.Engine.Basic
import SoundAtlas.Engine.Loading
import SoundAtlas.Engine.Query
import SoundAtlas.Feature.Layout
import SoundAtlas.Feature.Registry
import SoundAtlas.Feature.Scaling
import SoundAtlas.Feature.Source
import SoundAtlas.Grid
import SoundAtlas.Index.EntityIndex
import SoundAtlas.Index.ModelIndex
import SoundAtlas.Index.Search
import SoundAtlas.Json.Access
import SoundAtlas.Json.Basic
import SoundAtlas.Json.Display
import SoundAtlas.Json.Layout
import SoundAtlas.Json.Parser
import SoundAtlas.Json.Printer
import SoundAtlas.Main
import SoundAtlas.Model.Basic
import SoundAtlas.Network.Basic
import SoundAtlas.Network.Distance
import SoundAtlas.Network.Training
import SoundAtlas.Number.Binary
import SoundAtlas.Number.Decimal
import SoundAtlas.Number.Quotient
import SoundAtlas.Number.Reading
import SoundAtlas.Numeric.Statistics
import SoundAtlas.Numeric.Tensor
import SoundAtlas.Random.Pcg
import SoundAtlas.Random.Seed
import SoundAtlas.Random.Twister
import SoundAtlas.Settings.Basic
import SoundAtlas.Settings.Training
import SoundAtlas.Storage.Archive
import SoundAtlas.Storage.Digest
import SoundAtlas.Storage.Disk
import SoundAtlas.Storage.Machine
import SoundAtlas.Storage.Path
import SoundAtlas.Storage.StandardArchive
import SoundAtlas.Text.Character
import SoundAtlas.Text.Line
import SoundAtlas.Text.Printable
import SoundAtlas.Text.Quoted
import SoundAtlas.Proofs.Number.Order
import SoundAtlas.Proofs.Grid.Adjacency
import SoundAtlas.Proofs.Index.OnGrid
import SoundAtlas.Proofs.Search.Greedy
import SoundAtlas.Proofs.Search.Frontier
import SoundAtlas.Proofs.Search.Nearest
import SoundAtlas.Proofs.Search.Harvest
import SoundAtlas.Proofs.Search.Expansion
import SoundAtlas.Proofs.Cache.Escape
import SoundAtlas.Proofs.Cache.Breakdown
import SoundAtlas.Proofs.Cache.Reading
import SoundAtlas.Proofs.Engine.Course
import SoundAtlas.Proofs.Index.Building
import SoundAtlas.Proofs.Index.Faithful
import SoundAtlas.Proofs.Index.Growth
import SoundAtlas.Proofs.Index.Derived
import SoundAtlas.Proofs.Network.Watching
import SoundAtlas.Proofs.Engine.Stages
import SoundAtlas.Proofs.Engine.Publication
import SoundAtlas.Proofs.Engine.Cancellation
import SoundAtlas.Proofs.Engine.Answers
import SoundAtlas.Proofs.Cache.Files
import SoundAtlas.Proofs.Storage.Folder
import SoundAtlas.Proofs.Storage.Making
import SoundAtlas.Proofs.Cache.RoundTrip
import SoundAtlas.Proofs.Cache.Contents
import SoundAtlas.Proofs.Cache.History
import SoundAtlas.Proofs.Cache.Readers
import SoundAtlas.Proofs.Engine.Coherence
import SoundAtlas.Proofs.Index.Recorded
import SoundAtlas.Proofs.Engine.Adoption
import SoundAtlas.Proofs.Search.Findings
import SoundAtlas.Proofs.Search.Trace
import SoundAtlas.Proofs.Search.Reach
import SoundAtlas.Proofs.Search.Limits
import SoundAtlas.Proofs.Engine.Genuine
import SoundAtlas.Proofs.Engine.Histories
import SoundAtlas.Proofs.Engine.Lessons
import SoundAtlas.Proofs.Engine.Atomicity
import SoundAtlas.Proofs.Engine.Streams
import SoundAtlas.Proofs.Feature.Fetching
import SoundAtlas.Proofs.Engine.Eviction
import SoundAtlas.Proofs.Feature.Refitting
import SoundAtlas.Proofs.Engine.Fitting
import SoundAtlas.Proofs.Network.Life
import SoundAtlas.Proofs.Engine.Usable
import SoundAtlas.Proofs.Engine.Classifying
import SoundAtlas.Proofs.Engine.Traceless
import SoundAtlas.Proofs.Cache.Validity
import SoundAtlas.Proofs.Number.Packing
import SoundAtlas.Proofs.Numeric.Selection
import SoundAtlas.Proofs.Grid.Rows
import SoundAtlas.Proofs.Network.Distance
import SoundAtlas.Proofs.Index.Adding
import SoundAtlas.Proofs.Number.Reading
import SoundAtlas.Proofs.Feature.Listing
import SoundAtlas.Proofs.Catalog.Replay
import SoundAtlas.Proofs.Numeric.Nesting
import SoundAtlas.Proofs.Feature.Extraction
import SoundAtlas.Proofs.Cache.Reporting
import SoundAtlas.Proofs.Settings.Sizing
import SoundAtlas.Proofs.Index.Addressing
import SoundAtlas.Proofs.Search.Work
import SoundAtlas.Proofs.Numeric.Stacking
import SoundAtlas.Proofs.Feature.Together
