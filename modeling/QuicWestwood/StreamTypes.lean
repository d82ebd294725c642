import QuicWestwood.ByteCodec
import QuicWestwood.IntervalSet
import QuicWestwood.Outcome
import QuicWestwood.PacketTypes

/-! Offsets are natural numbers: the wire format keeps them far below `2 ^ 64`. Sums of window sizes, which the
peer or the application can make large, are taken modulo `2 ^ 64` where the source does not check them. -/
namespace QuicWestwood
open ByteCodec

inductive QuicNodeType
  | Client
  | Server
  deriving DecidableEq

abbrev StreamId := ℕ

def isUnidirectionalStream (stream : StreamId) : Bool := stream &&& 2≠0

def isClientStream (stream : StreamId) : Bool := stream &&& 1 = 0

def isLocalStream (nodeType : QuicNodeType) (stream : StreamId) : Bool :=
  match nodeType with
  | .Client => isClientStream stream
  | .Server => !isClientStream stream

def isRemoteStream (nodeType : QuicNodeType) (stream : StreamId) : Bool := !isLocalStream nodeType stream

def isSendingStream (nodeType : QuicNodeType) (stream : StreamId) : Bool :=
  isUnidirectionalStream stream && isLocalStream nodeType stream

inductive StreamSendState
  | Open
  | ResetSent
  | Closed
  | Invalid
  deriving DecidableEq

inductive StreamRecvState
  | Open
  | Closed
  | Invalid
  deriving DecidableEq

structure StreamBuffer where
  data : Bytes
  offset : ℕ
  eof : Bool := false
  deriving DecidableEq

def StreamBuffer.endOffset (buffer : StreamBuffer) : ℕ := buffer.offset+buffer.data.length

structure WriteStreamBuffer where
  data : Bytes
  offset : ℕ
  eof : Bool := false
  deriving DecidableEq

structure WriteBufferMeta where
  length : ℕ := 0
  offset : ℕ := 0
  eof : Bool := false
  deriving DecidableEq

structure StreamFlowControlState where
  windowSize : ℕ := 0
  advertisedMaxOffset : ℕ := 0
  peerAdvertisedMaxOffset : ℕ := 0
  timeOfLastFlowControlUpdate : Option ℤ := none
  deriving DecidableEq

structure QuicStreamState where
  id : StreamId
  /-- What has been received and not been read, in the order of the offsets. -/
  readBuffer : List StreamBuffer := []
  pendingWrites : Bytes := []
  /-- The buffers that have been sent and not been acked, by their offset. -/
  retransmissionBuffer : List (ℕ × WriteStreamBuffer) := []
  ackedIntervals : IntervalSet 1 := .empty
  lossBuffer : List WriteStreamBuffer := []
  currentWriteOffset : ℕ := 0
  currentReadOffset : ℕ := 0
  maxOffsetObserved : ℕ := 0
  finalReadOffset : Option ℕ := none
  finalWriteOffset : Option ℕ := none
  flowControlState : StreamFlowControlState := {}
  streamReadError : Option ℕ := none
  streamWriteError : Option ℕ := none
  sendState : StreamSendState := .Open
  recvState : StreamRecvState := .Open
  dsrSender : Bool := false
  writeBufMeta : WriteBufferMeta := {}
  retransmissionBufMetas : List (ℕ × WriteBufferMeta) := []
  lossBufMetas : List WriteBufferMeta := []

namespace QuicStreamState

def inTerminalStates (stream : QuicStreamState) : Bool :=
  (stream.sendState = .Closed || stream.sendState = .Invalid) &&
    (stream.recvState = .Closed || stream.recvState = .Invalid)

def advanceRead (stream : QuicStreamState) (length : ℕ) : QuicStreamState :=
  {stream with currentReadOffset := stream.currentReadOffset+length}

def shouldSendFlowControl (stream : QuicStreamState) : Bool := stream.recvState = .Open

end QuicStreamState

structure ConnectionFlowControlState where
  windowSize : ℕ := 0
  advertisedMaxOffset : ℕ := 0
  peerAdvertisedMaxOffset : ℕ := 0
  /-- The sum of the read offsets of all streams of the connection. -/
  sumCurReadOffset : ℕ := 0
  /-- The sum of the highest offsets seen on all streams of the connection. -/
  sumMaxObservedOffset : ℕ := 0
  sumCurWriteOffset : ℕ := 0
  sumCurStreamBufferLen : ℕ := 0
  timeOfLastFlowControlUpdate : Option ℤ := none
  deriving DecidableEq

structure FlowControlSettings where
  flowControlRttFrequency : ℕ := 2
  flowControlWindowFrequency : ℕ := 2
  disableFlowControlTimeBasedUpdates : Bool := false
  autotuneReceiveConnFlowControl : Bool := false
  autotuneReceiveStreamFlowControl : Bool := false
  deriving DecidableEq

structure RstStreamFrame where
  streamId : StreamId
  errorCode : ℕ
  offset : ℕ
  deriving DecidableEq

structure ReadStreamFrame where
  offset : ℕ
  data : Bytes
  fin : Bool
  deriving DecidableEq

structure StreamConnection where
  nodeType : QuicNodeType := .Server
  transportSettings : FlowControlSettings := {}
  /-- The smoothed round-trip time in microseconds. -/
  srtt : ℤ := 0
  flowControlState : ConnectionFlowControlState := {}
  /-- `pendingEvents.connWindowUpdate`. -/
  connWindowUpdate : Bool := false
  /-- `pendingEvents.resets`. -/
  resets : List RstStreamFrame := []
  /-- The streams with a queued window update. -/
  windowUpdates : List StreamId := []
  /-- The streams that have become terminal and await their removal. -/
  closedStreams : List StreamId := []
  deriving DecidableEq

structure ConnStream where
  conn : StreamConnection
  stream : QuicStreamState

def kU64 : ℕ := 2^64

end QuicWestwood
