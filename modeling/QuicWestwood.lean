import QuicWestwood.WestwoodBandwidth
import QuicWestwood.WestwoodRecovery
import QuicWestwood.TimestampScale
import QuicWestwood.OutstandingCounters
import QuicWestwood.ThresholdRun
import QuicWestwood.LossAlarm
import QuicWestwood.ClientRetry
import QuicWestwood.AckFrameCodec
import QuicWestwood.AckFrameSafety
import QuicWestwood.WindowTuning
import QuicWestwood.StreamReset
import QuicWestwood.PriorityQueue
import QuicWestwood.StreamLimits
import QuicWestwood.Reassembly
import QuicWestwood.FinalSize
import QuicWestwood.QpackQueue
import QuicWestwood.HeaderAcceptance
import QuicWestwood.EndStream
import QuicWestwood.RefusedStreams
import QuicWestwood.DelayHistory
import QuicWestwood.SafePath
import QuicWestwood.StreamCredit
import QuicWestwood.IngressAccount
import QuicWestwood.EgressProgress
import QuicWestwood.PacketNumber
import QuicWestwood.WestwoodGrowth
import QuicWestwood.RttWindow
import QuicWestwood.BandwidthSamples
import QuicWestwood.DsrReordering
import QuicWestwood.SmoothedRtt
import QuicWestwood.AckPromptness
import QuicWestwood.WindowArithmetic
import QuicWestwood.IntervalSetRuns
import QuicWestwood.SendCredit
import QuicWestwood.RendezvousHash
import QuicWestwood.ChainedByteRange
