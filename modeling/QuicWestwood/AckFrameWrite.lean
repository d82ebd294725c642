import QuicWestwood.AckState
import QuicWestwood.QuicInteger

/-! `writeAckFrame` and `writeAckFrameWithReceivedTimestamps`: choose as many ack blocks, then as many receive
timestamps, as the packet has room for, and append the integers of the frame to the packet builder. Checks that
only debug builds make are left out. -/
namespace QuicWestwood
open ByteCodec

def FrameType.code : FrameType → ℕ
  | .ack => 0x02
  | .ackEcn => 0x03
  | .ackReceiveTimestamps => 0xB0

structure PacketBuilder where
  body : Bytes := []
  remainingBytes : UInt32
  deriving DecidableEq

namespace PacketBuilder

def remainingSpaceInPkt (b : PacketBuilder) : ℕ := b.remainingBytes.toNat

def append (b : PacketBuilder) (bytes : Bytes) : PacketBuilder :=
  ⟨b.body++bytes,b.remainingBytes-UInt32.ofNat bytes.length⟩

@[simp] lemma append_body (b : PacketBuilder) (bytes : Bytes) :
    (b.append bytes).body = b.body++bytes := rfl

lemma append_append (b : PacketBuilder) (bytes bytes' : Bytes) :
    (b.append bytes).append bytes' = b.append (bytes++bytes') := by
  simp only [append,List.append_assoc,List.length_append,UInt32.ofNat_add,mk.injEq,true_and]
  exact sub_sub _ _ _

@[simp] lemma append_nil (b : PacketBuilder) : b.append [] = b := by
  simp [append]

lemma remainingSpaceInPkt_append {b : PacketBuilder} {bytes : Bytes}
    (h : bytes.length≤b.remainingSpaceInPkt) :
    (b.append bytes).remainingSpaceInPkt = b.remainingSpaceInPkt-bytes.length := by
  have hlt : bytes.length < 2^32 := h.trans_lt b.remainingBytes.toNat_lt
  have hof : (UInt32.ofNat bytes.length).toNat = bytes.length := UInt32.toNat_ofNat_of_lt' hlt
  unfold remainingSpaceInPkt append at *
  rw [UInt32.toNat_sub_of_le _ _ (UInt32.le_iff_toNat_le.mpr (by omega)),hof]

end PacketBuilder

abbrev Writer (α : Type) := StateT PacketBuilder (Except Failure) α

def valueTooLarge (value : ℕ) (code : TransportErrorCode) : Failure :=
  .quicTransportException {message := s!"Value too large {value}", code}

/-- `builder.write(QuicInteger(value))` -/
def writeInteger (value : ℕ) : Writer Unit := fun b =>
  match encodeQuicInteger value with
  | .ok bytes => .ok ((),b.append bytes)
  | .error code => .error (valueTooLarge value code)

def writeIntegers : List ℕ → Writer Unit
  | [] => pure ()
  | value::values => do
    writeInteger value
    writeIntegers values

/-- `QuicInteger(value).getSize()` -/
def integerSize (value : ℕ) : Except Failure ℕ :=
  match getQuicIntegerSize value with
  | .ok size => .ok size
  | .error code => .error (valueTooLarge value code)

structure RecvdPacketsTimestampsRange where
  gap : ℕ
  timestampDeltaCount : ℕ
  deltas : List ℕ
  deriving DecidableEq

structure AckReceiveTimestampsConfig where
  maxReceiveTimestampsPerAck : ℕ := 10
  receiveTimestampsExponent : ℕ := 3
  deriving DecidableEq

structure WriteAckFrame where
  ackBlocks : List Interval
  ackDelay : ℤ
  frameType : FrameType
  maybeLatestRecvdPacketTime : Option ℤ := none
  maybeLatestRecvdPacketNum : Option ℕ := none
  recvdPacketsTimestampRanges : List RecvdPacketsTimestampsRange := []
  ecnECT0Count : ℕ := 0
  ecnECT1Count : ℕ := 0
  ecnCECount : ℕ := 0
  deriving DecidableEq

structure WriteAckFrameMetaData where
  ackState : AckState
  ackDelay : ℤ
  ackDelayExponent : ℕ
  connTime : ℤ

structure WriteAckFrameResult where
  bytesWritten : ℕ
  writeAckFrame : WriteAckFrame
  ackBlocksWritten : ℕ
  timestampRangesWritten : ℕ := 0
  timestampsWritten : ℕ := 0
  deriving DecidableEq

def fillFrameWithAckBlocks (currentSeqNum numAdditionalAckBlocks bytesLimit : ℕ) :
    List Interval → Except Failure (List Interval)
  | [] => .ok []
  | block::blocks =>
    if currentSeqNum < block.stop+2 then .error .checkFailed
    else do
      let gapSize ← getQuicIntegerSizeThrows (currentSeqNum-block.stop-2)
      let blockLenSize ← getQuicIntegerSizeThrows (block.stop-block.start)
      let countSize ← getQuicIntegerSizeThrows (numAdditionalAckBlocks+1)
      let previousCountSize ← getQuicIntegerSizeThrows numAdditionalAckBlocks
      let additionalSize := gapSize+blockLenSize+(countSize-previousCountSize)
      if bytesLimit<additionalSize then .ok []
      else do
        let rest ← fillFrameWithAckBlocks block.start (numAdditionalAckBlocks+1)
          (bytesLimit-additionalSize) blocks
        .ok (block::rest)

/-- Time since the start of the connection in microseconds, 0 before it. -/
def sinceConnection (connTime t : ℤ) : ℤ := if connTime<t then (t-connTime).tdiv 1000 else 0

def minTimestampFieldsSize (metaData : WriteAckFrameMetaData) (frameType : FrameType) :
    Except Failure ℕ :=
  if frameType = .ackReceiveTimestamps then
    match metaData.ackState.lastRecvdPacketInfo with
    | none => .error .optionalEmptyException
    | some last =>
      let size := fun v => (getQuicIntegerSize v).toOption.getD 0
      .ok (size 0+size last.pktNum + size (u64 (sinceConnection metaData.connTime last.receiveTimePoint)))
  else .ok 0

def encodedAckDelay (metaData : WriteAckFrameMetaData) : ℕ :=
  u64 metaData.ackDelay/2^metaData.ackDelayExponent

def sumSizes : List ℕ → Except Failure ℕ
  | [] => .ok 0
  | value::values => do
    let size ← integerSize value
    let sizes ← sumSizes values
    .ok (size+sizes)

def ecnCounts (s : AckState) : List ℕ :=
  [s.ecnECT0CountReceived,s.ecnECT1CountReceived,s.ecnCECountReceived]

/-- The space left after the reserve for the ECN counts, which may wrap around below zero. -/
def reserveEcn (s : AckState) (frameType : FrameType) (space : ℕ) : Except Failure ℕ :=
  if frameType = .ackEcn then do
    let reserve ← sumSizes (ecnCounts s)
    .ok (subU64 space reserve)
  else .ok space

/-- `ackBlocks.reserve(spaceLeft / 4)` on a vector of 16-byte intervals. -/
def reserveAckBlocks (spaceLeft : ℕ) : Except Failure Unit :=
  if (2^63-1)/16 < spaceLeft/4 then .error .lengthError else .ok ()

/-- The part of `writeAckFrameToPacketBuilder` before the first write: the blocks after
the largest one that the frame will carry, or `none` if not even that one fits. -/
def chooseAckBlocks (metaData : WriteAckFrameMetaData) (frameType : FrameType) (space : ℕ)
    (largest : Interval) (others : List Interval) : Except Failure (Option (List Interval)) := do
  let spaceLeft ← reserveEcn metaData.ackState frameType space
  reserveAckBlocks spaceLeft
  let headerSize ← sumSizes
    [frameType.code,largest.stop,encodedAckDelay metaData,0,largest.stop-largest.start]
  let minSize ← minTimestampFieldsSize metaData frameType
  if spaceLeft < headerSize+minSize then return none
  let blocks ← fillFrameWithAckBlocks largest.start 0 (spaceLeft-(headerSize+minSize)) others
  return some blocks

def writeAckBlocks : ℕ → List Interval → Writer Unit
  | _, [] => pure ()
  | currentSeqNum, block::blocks =>
    if currentSeqNum < block.stop+2 then throw .checkFailed
    else do
      writeIntegers [currentSeqNum-block.stop-2,block.stop-block.start]
      writeAckBlocks block.start blocks

def writeAckFrameToPacketBuilder (metaData : WriteAckFrameMetaData) (frameType : FrameType) :
    Writer (Option WriteAckFrame) := do
  let s := metaData.ackState
  match s.acks.intervals.reverse with
  | [] => return none
  | largest::others =>
    match ← chooseAckBlocks metaData frameType (← get).remainingSpaceInPkt largest others with
    | none => return none
    | some blocks =>
      writeIntegers [frameType.code,largest.stop,encodedAckDelay metaData,blocks.length,
        largest.stop-largest.start]
      writeAckBlocks largest.start blocks
      let frame : WriteAckFrame :=
        {ackBlocks := largest::blocks, ackDelay := metaData.ackDelay, frameType}
      if frameType = .ackEcn then
        writeIntegers (ecnCounts s)
        return some {frame with
          ecnECT0Count := s.ecnECT0CountReceived
          ecnECT1Count := s.ecnECT1CountReceived
          ecnCECount := s.ecnCECountReceived}
      else return some frame

def writeAckFrame (metaData : WriteAckFrameMetaData) (frameType : FrameType) :
    Writer (Option WriteAckFrameResult) := do
  let beginningSpace := (← get).remainingSpaceInPkt
  match ← writeAckFrameToPacketBuilder metaData frameType with
  | none => return none
  | some frame =>
    return some
      {bytesWritten := subU64 beginningSpace (← get).remainingSpaceInPkt
       writeAckFrame := frame
       ackBlocksWritten := frame.ackBlocks.length}

structure TimestampDelta where
  pktNum : ℕ
  delta : ℕ
  deriving DecidableEq

/-- The newest packet is timed from the start of the connection, every other one
backwards from the packet stored after it. -/
def deltaDuration (connTime : ℤ) (newer : Option ReceivedPacket) (p : ReceivedPacket) : ℤ :=
  match newer with
  | none => sinceConnection connTime p.receiveTimePoint
  | some q => (q.receiveTimePoint-p.receiveTimePoint).tdiv 1000

def timestampDeltas (connTime : ℤ) (receiveTimestampsExponent : ℕ) :
    Option ReceivedPacket → List ReceivedPacket → List TimestampDelta
  | _, [] => []
  | newer, p::older =>
    ⟨p.pktNum,u64 (deltaDuration connTime newer p >>> receiveTimestampsExponent)⟩ ::
      timestampDeltas connTime receiveTimestampsExponent (some p) older

/-- The inner loop of `fillPacketReceiveTimestamps`: the deltas of one range, the space the
range uses, the timestamps left over, and whether the packet is full. -/
def fillTimestampRange (spaceLeft cumUsedSpace numRanges : ℕ) (i : Interval) :
    ℕ → ℕ → List TimestampDelta → Except Failure (List ℕ × ℕ × List TimestampDelta × Bool)
  | _, used, [] => .ok ([],used,[],false)
  | count, used, t::ts =>
    if i.start≤t.pktNum ∧ t.pktNum ≤ i.stop then do
      let deltaSize ← getQuicIntegerSizeThrows t.delta
      let countSize ← getQuicIntegerSizeThrows (count+1)
      let numRangesSize ← getQuicIntegerSizeThrows (numRanges+1)
      if spaceLeft < cumUsedSpace+used+deltaSize+countSize+numRangesSize then
        .ok ([],used,t::ts,true)
      else do
        let (deltas,used',rest,outOfSpace) ←
          fillTimestampRange spaceLeft cumUsedSpace numRanges i (count+1) (used+deltaSize) ts
        .ok (t.delta::deltas,used',rest,outOfSpace)
    else .ok ([],used,t::ts,false)

/-- The outer loop, over the intervals of the selected packet numbers from the largest down. -/
def fillTimestampRanges (spaceLeft : ℕ) : ℕ → ℕ → ℕ → List Interval → List TimestampDelta →
    Except Failure (List RecvdPacketsTimestampsRange)
  | _, _, _, [], _ => .ok []
  | prevPktNum, numRanges, cumUsedSpace, i::is, ts => do
    let gap := if numRanges=0 then subU64 prevPktNum i.stop
      else subU64 (subU64 prevPktNum 2) i.stop
    let gapSize ← getQuicIntegerSizeThrows gap
    let (deltas,used,rest,outOfSpace) ←
      fillTimestampRange spaceLeft cumUsedSpace numRanges i 0 gapSize ts
    if deltas.isEmpty then
      if outOfSpace then .ok []
      else fillTimestampRanges spaceLeft prevPktNum numRanges cumUsedSpace is rest
    else do
      let countSize ← getQuicIntegerSizeThrows deltas.length
      let range : RecvdPacketsTimestampsRange := ⟨gap,deltas.length,deltas⟩
      if outOfSpace then .ok [range]
      else do
        let ranges ← fillTimestampRanges spaceLeft i.start (numRanges+1)
          (cumUsedSpace+used+countSize) is rest
        .ok (range::ranges)

def selectedPktNums (maxRecvTimestampsToSend : ℕ) (infos : List ReceivedPacket) : IntervalSet 1 :=
  (infos.take maxRecvTimestampsToSend).foldl (fun set p => set.insertPoint p.pktNum) .empty

def fillPacketReceiveTimestamps (metaData : WriteAckFrameMetaData)
    (largestAckedPacketNum spaceLeft receiveTimestampsExponent maxRecvTimestampsToSend : ℕ) :
    Except Failure (List RecvdPacketsTimestampsRange) :=
  let infos := metaData.ackState.recvdPacketInfos
  fillTimestampRanges spaceLeft largestAckedPacketNum 0 0
    (selectedPktNums maxRecvTimestampsToSend infos).intervals.reverse
    (timestampDeltas metaData.connTime receiveTimestampsExponent none infos.reverse)

def RecvdPacketsTimestampsRange.fields (r : RecvdPacketsTimestampsRange) : List ℕ :=
  r.gap::r.timestampDeltaCount::r.deltas

/-- The latest received packet as the frame names it: its number and its time since the
start of the connection. -/
def latestRecvdPacket (metaData : WriteAckFrameMetaData) : ℕ × ℤ :=
  match metaData.ackState.lastRecvdPacketInfo with
  | some last => (last.pktNum,sinceConnection metaData.connTime last.receiveTimePoint)
  | none => (0,0)

/-- The count of ranges and the ranges; `acks` is not empty where this is called. -/
def writeTimestampRanges (metaData : WriteAckFrameMetaData)
    (receiveTimestampsExponent maxRecvTimestampsToSend : ℕ) :
    Writer (List RecvdPacketsTimestampsRange) := do
  let spaceLeft := (← get).remainingSpaceInPkt
  if 0 < spaceLeft then
    let largestAcked := (metaData.ackState.acks.intervals.getLast?.map Interval.stop).getD 0
    let ranges ← fillPacketReceiveTimestamps metaData largestAcked spaceLeft
      receiveTimestampsExponent maxRecvTimestampsToSend
    writeIntegers (ranges.length::ranges.flatMap RecvdPacketsTimestampsRange.fields)
    return ranges
  else return []

def writeAckFrameWithReceivedTimestamps (metaData : WriteAckFrameMetaData)
    (recvTimestampsConfig : AckReceiveTimestampsConfig) (maxRecvTimestampsToSend : ℕ) :
    Writer (Option WriteAckFrameResult) := do
  let beginningSpace := (← get).remainingBytes
  match ← writeAckFrameToPacketBuilder metaData .ackReceiveTimestamps with
  | none => return none
  | some frame =>
    let (lastPktNum,lastPktTsDelta) := latestRecvdPacket metaData
    writeIntegers [lastPktNum,u64 lastPktTsDelta]
    let ranges ← writeTimestampRanges metaData recvTimestampsConfig.receiveTimestampsExponent
      maxRecvTimestampsToSend
    return some
      {bytesWritten := (beginningSpace-(← get).remainingBytes).toNat
       writeAckFrame := {frame with
         maybeLatestRecvdPacketNum := some lastPktNum
         maybeLatestRecvdPacketTime := some lastPktTsDelta
         recvdPacketsTimestampRanges := ranges}
       ackBlocksWritten := frame.ackBlocks.length
       timestampRangesWritten := ranges.length
       timestampsWritten := (ranges.map fun r => r.deltas.length).sum}

end QuicWestwood
