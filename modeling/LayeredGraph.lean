import LayeredGraph.Advisor
import LayeredGraph.CommonNeighbors
import LayeredGraph.Config
import LayeredGraph.LogFilter
import LayeredGraph.Proofs.Logging
import LayeredGraph.Proofs.Graph.Layout
import LayeredGraph.Proofs.Graph.Symmetry
import LayeredGraph.Proofs.Queue.Fifo
import LayeredGraph.Proofs.Graph.Growth
import LayeredGraph.Proofs.Graph.Refusal
import LayeredGraph.Proofs.Queue.Ring
import LayeredGraph.Proofs.Queue.Recency
import LayeredGraph.Proofs.Hint.Plan
import LayeredGraph.Proofs.Hint.Worker
import LayeredGraph.Proofs.Advisor.Background
import LayeredGraph.Proofs.Graph.NewNodes
import LayeredGraph.Proofs.Hint.NodeHints
import LayeredGraph.Proofs.Queue.Agreement
import LayeredGraph.Proofs.Hint.Windows
import LayeredGraph.Proofs.Cursor.Observers
import LayeredGraph.Proofs.Advisor.Inline
import LayeredGraph.Proofs.Hint.Accounts
import LayeredGraph.Proofs.Config
import LayeredGraph.Proofs.Level.Arrangement
import LayeredGraph.Proofs.Hint.Interruption
import LayeredGraph.Proofs.Hint.Neighbors
import LayeredGraph.Proofs.Stack.Admission
import LayeredGraph.Proofs.Cursor.LevelByLevel
import LayeredGraph.Proofs.Graph.ByteSpans
import LayeredGraph.Proofs.Overlay.References
import LayeredGraph.Proofs.Graph.CommonNeighbors
import LayeredGraph.Proofs.Queue.Allocation
import LayeredGraph.Proofs.Config.Documents
