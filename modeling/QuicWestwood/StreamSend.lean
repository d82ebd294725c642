import QuicWestwood.FlowController

/-! Writes of the application, frames with new data, and the reset of the sending side. Real bytes wait in
`pendingWrites`; bytes that a remote backend will send are only counted in `writeBufMeta`. The queue of blocked
streams and the write queue are not part of this model. -/
namespace QuicWestwood
open ByteCodec

/-- `emplace` on a map: an entry that is already there is kept. -/
def emplace {β : Type} (map : List (ℕ × β)) (key : ℕ) (value : β) : List (ℕ × β) × Bool :=
  if map.any (·.1 = key) then (map,false) else ((key,value)::map,true)

def WriteBufferMeta.split (bufMeta : WriteBufferMeta) (splitLen : ℕ) :
    Except Failure (WriteBufferMeta × WriteBufferMeta) := do
  check (splitLen≤bufMeta.length)
  return (⟨splitLen,bufMeta.offset,splitLen = bufMeta.length && bufMeta.eof⟩,
    ⟨bufMeta.length-splitLen,bufMeta.offset+splitLen,bufMeta.eof⟩)

/-- The FIN takes the offset after the last byte. -/
def WriteBufferMeta.finWritten (rest : WriteBufferMeta) (frameFin : Bool) (finalWriteOffset : Option ℕ) :
    Except Failure WriteBufferMeta :=
  if frameFin then do
    check (rest.length=0)
    match finalWriteOffset with
    | none => .error .optionalEmptyException
    | some finalWriteOffset =>
      check (finalWriteOffset < rest.offset+1)
      return {rest with offset := rest.offset+1}
  else .ok rest

namespace QuicStreamState

def writable (stream : QuicStreamState) : Bool :=
  stream.sendState = .Open && stream.finalWriteOffset.isNone

def hasWritableData (stream : QuicStreamState) : Except Failure Bool :=
  if stream.pendingWrites≠[] then do
    check (stream.currentWriteOffset ≤ stream.flowControlState.peerAdvertisedMaxOffset)
    return 0 < stream.flowControlState.peerAdvertisedMaxOffset-stream.currentWriteOffset
  else
    match stream.finalWriteOffset with
    | some finalWriteOffset =>
      .ok (stream.writeBufMeta.offset = 0 && decide (stream.currentWriteOffset≤finalWriteOffset))
    | none => .ok false

def hasWritableBufMeta (stream : QuicStreamState) : Except Failure Bool :=
  if stream.writeBufMeta.offset=0 then .ok false
  else if 0 < stream.writeBufMeta.length then do
    check (stream.writeBufMeta.offset ≤ stream.flowControlState.peerAdvertisedMaxOffset)
    return 0 < stream.flowControlState.peerAdvertisedMaxOffset-stream.writeBufMeta.offset
  else
    match stream.finalWriteOffset with
    | some finalWriteOffset => .ok (decide (stream.writeBufMeta.offset≤finalWriteOffset))
    | none => .ok false

def nextOffsetToWrite (stream : QuicStreamState) : ℕ :=
  if stream.writeBufMeta.offset=0 then stream.currentWriteOffset
  else if stream.pendingWrites≠[] then stream.currentWriteOffset
  else stream.writeBufMeta.offset

def getSendStreamFlowControlBytesWire (stream : QuicStreamState) : ℕ :=
  subU64 stream.flowControlState.peerAdvertisedMaxOffset stream.nextOffsetToWrite

def handleStreamWindowUpdate (stream : QuicStreamState) (maximumData : ℕ) : QuicStreamState :=
  if stream.flowControlState.peerAdvertisedMaxOffset ≤ maximumData then
    {stream with flowControlState := {stream.flowControlState with peerAdvertisedMaxOffset := maximumData}}
  else stream

/-- A frame with the next bytes of `pendingWrites` has been put into a packet. -/
def handleNewStreamDataWritten (stream : QuicStreamState) (frameLen : ℕ) (frameFin : Bool) :
    Except Failure QuicStreamState := do
  let originalOffset := stream.currentWriteOffset
  let inserted := emplace stream.retransmissionBuffer originalOffset
    ⟨stream.pendingWrites.take frameLen,originalOffset,frameFin⟩
  check inserted.2
  return {stream with
    currentWriteOffset := originalOffset+frameLen+if frameFin then 1 else 0
    pendingWrites := stream.pendingWrites.drop frameLen
    retransmissionBuffer := inserted.1}

def handleNewStreamBufMetaWritten (stream : QuicStreamState) (frameLen : ℕ) (frameFin : Bool) :
    Except Failure QuicStreamState := do
  check (0 < stream.writeBufMeta.offset)
  let originalOffset := stream.writeBufMeta.offset
  let bufMetaSplit ← stream.writeBufMeta.split frameLen
  let writeBufMeta ← bufMetaSplit.2.finWritten frameFin stream.finalWriteOffset
  let inserted := emplace stream.retransmissionBufMetas originalOffset bufMetaSplit.1
  check inserted.2
  return {stream with writeBufMeta, retransmissionBufMetas := inserted.1}

end QuicStreamState

namespace ConnStream

def updateFlowControlOnWriteToStream (s : ConnStream) (length : ℕ) : Except Failure ConnStream := do
  let sumCurStreamBufferLen ← incrementWithOverFlowCheck s.conn.flowControlState.sumCurStreamBufferLen length
  pure {s with conn := {s.conn with flowControlState := {s.conn.flowControlState with
    sumCurStreamBufferLen}}}

def updateFlowControlOnWriteToSocket (s : ConnStream) (length : ℕ) : Except Failure ConnStream := do
  let sumCurWriteOffset ← incrementWithOverFlowCheck s.conn.flowControlState.sumCurWriteOffset length
  pure {s with conn := {s.conn with flowControlState := {s.conn.flowControlState with
    sumCurWriteOffset
    sumCurStreamBufferLen := s.conn.flowControlState.sumCurStreamBufferLen-length}}}

def writeDataToQuicStream (s : ConnStream) (data : Bytes) (eof : Bool) : Except Failure ConnStream := do
  check (s.stream.writeBufMeta.offset=0)
  check !(eof && s.stream.dsrSender)
  let pendingWrites := s.stream.pendingWrites++data
  updateFlowControlOnWriteToStream ⟨s.conn,{s.stream with
    pendingWrites
    finalWriteOffset := if eof then some (s.stream.currentWriteOffset+pendingWrites.length)
      else s.stream.finalWriteOffset}⟩ data.length

def writeBufMetaToQuicStream (s : ConnStream) (length : ℕ) (eof : Bool) : Except Failure ConnStream := do
  let realDataLength := s.stream.currentWriteOffset+s.stream.pendingWrites.length
  check (0 < realDataLength)
  check !(s.stream.writeBufMeta.offset = 0 && s.stream.finalWriteOffset.isSome)
  let writeBufMeta : WriteBufferMeta :=
    {offset := if s.stream.writeBufMeta.offset=0 then realDataLength else s.stream.writeBufMeta.offset
     length := s.stream.writeBufMeta.length+length
     eof := s.stream.writeBufMeta.eof || eof}
  updateFlowControlOnWriteToStream ⟨s.conn,{s.stream with
    writeBufMeta
    finalWriteOffset := if eof then some (writeBufMeta.offset+writeBufMeta.length)
      else s.stream.finalWriteOffset}⟩ length

def resetQuicStream (s : ConnStream) (error : ℕ) : Outcome Failure ConnStream :=
  s.updateFlowControlOnResetStream.andThen fun s =>
    .done {s with stream := {s.stream with
      retransmissionBuffer := []
      pendingWrites := []
      readBuffer := []
      lossBuffer := []
      streamWriteError := some error
      writeBufMeta := {s.stream.writeBufMeta with length := 0}
      retransmissionBufMetas := []
      lossBufMetas := []
      dsrSender := false}}

def appendPendingStreamReset (s : ConnStream) (errorCode : ℕ) : ConnStream :=
  let writeBufWritten := s.stream.writeBufMeta.offset≠0 ∧
    s.stream.currentWriteOffset+s.stream.pendingWrites.length≠s.stream.writeBufMeta.offset
  let written := if writeBufWritten then s.stream.writeBufMeta.offset else s.stream.currentWriteOffset
  let offset := match s.stream.finalWriteOffset with
    | some finalWriteOffset => min written finalWriteOffset
    | none => written
  if s.conn.resets.any (·.streamId = s.stream.id) then s
  else {s with conn := {s.conn with resets := s.conn.resets++[⟨s.stream.id,errorCode,offset⟩]}}

def invalidTransition (state : String) : Failure :=
  .quicTransportException {message := s!"Invalid transition from state={state}", code := .streamStateError}

def sendRstSMHandler (s : ConnStream) (errorCode : ℕ) : Outcome Failure ConnStream :=
  match s.stream.sendState with
  | .Open => (s.resetQuicStream errorCode).andThen fun s =>
    let s := s.appendPendingStreamReset errorCode
    .done {s with stream := {s.stream with sendState := .ResetSent}}
  | .Closed => .done s
  | .ResetSent => .done s
  | .Invalid => .fail (invalidTransition "Invalid") s

end ConnStream

end QuicWestwood
