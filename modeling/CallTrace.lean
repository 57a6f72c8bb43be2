import CallTrace.Text.CodeRange
import CallTrace.Text.LetterCase
import CallTrace.Text.Visible
import CallTrace.Text.Quoted
import CallTrace.Text.Blank
import CallTrace.Decimal.Natural
import CallTrace.Decimal.Shortest
import CallTrace.Client
import CallTrace.Module
import CallTrace.NamePrefix
import CallTrace.Call
import CallTrace.Json.Fault
import CallTrace.Json.Token
import CallTrace.Json.Number
import CallTrace.Json.Skip
import CallTrace.Json.Decoder
import CallTrace.Json.Layout
import CallTrace.Document
import CallTrace.Document.Version
import CallTrace.Document.Layout
import CallTrace.Recording
import CallTrace.Recording.OfDocument
import CallTrace.TraceError
import CallTrace.Recording.OfFile
import CallTrace.Reader
import CallTrace.Recording.Listings
import CallTrace.Reader.Faulty
import CallTrace.Store
import CallTrace.Walk
import CallTrace.Tally
import CallTrace.Histogram
import CallTrace.Ranking
import CallTrace.Report
import CallTrace.Output
import CallTrace.Analysis
import CallTrace.FileTree
import CallTrace.CommandLine.Arguments
import CallTrace.CommandLine
import CallTrace.Main
import CallTrace.Proofs.Reader.Steady
import CallTrace.Proofs.Reader.Journal
import CallTrace.Proofs.Walk.Turns
import CallTrace.Proofs.Walk.Preorder
import CallTrace.Proofs.Walk.Simulation
import CallTrace.Proofs.Recording.Arrangement
import CallTrace.Proofs.Recording.Lineage
import CallTrace.Proofs.Recording.Traversal
import CallTrace.Proofs.Walk.Placed
import CallTrace.Proofs.Counting
import CallTrace.Proofs.Text.ByteOrder
import CallTrace.Proofs.Text.LetterCase
import CallTrace.Proofs.Text.Blank
import CallTrace.Proofs.Ranking
import CallTrace.Proofs.Document.Linked
import CallTrace.Proofs.Document.Sites
import CallTrace.Proofs.Document.Decoding
import CallTrace.Proofs.Document.Tree
import CallTrace.Proofs.Document.Analysis
import CallTrace.Proofs.Document.Renaming
import CallTrace.Proofs.Document.Splitting
import CallTrace.Proofs.Recording.Growth
import CallTrace.Proofs.Recording.Precedence
import CallTrace.Proofs.Recording.Interleaving
import CallTrace.Proofs.Walk.Recorded
import CallTrace.Proofs.Walk.Renumbered
import CallTrace.Proofs.Walk.Faults
import CallTrace.Proofs.Merging
import CallTrace.Proofs.Partition
import CallTrace.Proofs.Walk.Requests
import CallTrace.Proofs.Walk.Ending
import CallTrace.Proofs.History
import CallTrace.Proofs.MergeLaws
import CallTrace.Proofs.TopKeys
import CallTrace.Proofs.Coverage
import CallTrace.Proofs.Reader.Contract
import CallTrace.Proofs.Regrouping
import CallTrace.Proofs.NamePrefix
import CallTrace.Proofs.Decimal.Natural
import CallTrace.Proofs.Report
import CallTrace.Proofs.FileTree
import CallTrace.Proofs.Store.Session
import CallTrace.Proofs.Store.Custody
import CallTrace.Proofs.CommandLine
import CallTrace.Proofs.Json.Grammar
import CallTrace.Proofs.Json.Strings
import CallTrace.Proofs.Json.Numbers
import CallTrace.Proofs.Json.Skipping
import CallTrace.Proofs.Json.Reading
import CallTrace.Proofs.Json.Records
import CallTrace.Proofs.Json.Exactness
import CallTrace.Proofs.Json.Acceptance
import CallTrace.Proofs.Document.Fields
import CallTrace.Proofs.Document.Spelling
import CallTrace.Proofs.Document.Version
import CallTrace.Proofs.Walk.Limits
import CallTrace.Proofs.Walk.Nesting
