import LibUtp.Context
import LibUtp.Socket.Grammar
import LibUtp.Invariant.SendWindow
import LibUtp.Invariant.ReorderBuffer
import LibUtp.Invariant.FinFlag
import LibUtp.Invariant.MtuBounds
import LibUtp.Invariant.EackAgreement
import LibUtp.Invariant.EndOfStream
import LibUtp.Registry.AckList
import LibUtp.Registry.Lookup
import LibUtp.Registry.HalfOpen
import LibUtp.Registry.Attribution
import LibUtp.Invariant.FastResend
import LibUtp.Invariant.ProbeIdentity
import LibUtp.Timing.UnwrappedDelay
import LibUtp.Timing.ClockDrift
import LibUtp.Registry.RstLimit
import LibUtp.Registry.Rejection
import LibUtp.Timing.VanishedPeer
import LibUtp.Invariant.AckedBytes
import LibUtp.Invariant.Writev
import LibUtp.Invariant.MtuConvergence
import LibUtp.Timing.RttEstimator
import LibUtp.Timing.WindowLaw
import LibUtp.RawBuffer
import LibUtp.Registry.Handshake
import LibUtp.Registry.Errors
import LibUtp.Invariant.FlushCursor
import LibUtp.Pair.Agreement
import LibUtp.Pair.Refinement
import LibUtp.Registry.Datagrams
import LibUtp.Registry.Sweep
import LibUtp.Invariant.Callbacks
import LibUtp.Pair.AckDuty
import LibUtp.Registry.Reports
