import Gorums.Handlers.HandleRequest
import Gorums.Quorum.Call
import Gorums.Quorum.FanOut
import Gorums.Quorum.Multicast
import Gorums.Quorum.SingleReply
import Gorums.Conn.Union
import Gorums.Conn.Watch
import Gorums.Stream.Service
import Gorums.Stream.Registrations
import Gorums.Stream.Slots
import Gorums.Stream.LastErr
import Gorums.Stream.Poison
import Gorums.MachineInt
import Gorums.Tree.Heap
import Gorums.Tree.TreeConfig
import Gorums.Tree.Subtree
import Gorums.Quorum.Metadata
import Gorums.Benchkit.LogLinear
import Gorums.Benchkit.Tally
import Gorums.Benchkit.Histogram
import Gorums.Benchkit.Recording
import Gorums.Benchkit.Merge
import Gorums.Conn.PeerVerifier
import Gorums.Conn.Sequence
import Gorums.Pool.Termination
import Gorums.Conn.Returning
import Gorums.Conn.Assignment
import Gorums.Conn.PoolIdentities
import Gorums.Conn.Waiters
import Gorums.Stream.Order
import Gorums.Stream.Fifo
import Gorums.Stream.Serial
import Gorums.Benchkit.Dispersion
import Gorums.Benchkit.Keyed
import Gorums.Benchkit.LatencySeries
import Gorums.Tree.Overflow
import Gorums.Benchkit.Stats
import Gorums.Benchkit.Precision
import Gorums.Benchkit.Summary
import Gorums.Benchkit.Ticker
import Gorums.Storage.Register
import Gorums.Stream.Quiescence
import Gorums.Benchkit.ClockSync
