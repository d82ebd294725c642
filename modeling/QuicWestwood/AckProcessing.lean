import QuicWestwood.AckReceiveTimestamps
import QuicWestwood.LossDetection

/-! `processAckFrame`: mark and count the acknowledged packets, report them in sent order, detect losses, tell
the congestion controller, forget old lost packets and erase the acknowledged ones. The statistics, the ECN
counts and the observers are left out; the visitors act on streams, of which only the set of living ones is
read. -/
namespace QuicWestwood

/-- `std::chrono::ceil<microseconds>` of nanoseconds. -/
def ceilMicros (ns : ℤ) : ℤ := -((-ns)/1000)

structure AckedContext where
  outstandingPacket : OutstandingPacket
  processAllFrames : Bool

/-- What the loop over the acked packets accumulates. The contexts are kept from the
largest packet number down. -/
structure AckTally where
  counts : OutstandingCounts
  lossState : LossState
  settings : LossSettings
  ack : AckEvent
  dsrPacketsAcked : ℕ := 0
  packetsWithHandlerContext : List AckedContext := []

/-- The adaptive thresholds grow to what would have avoided the spurious loss. -/
def adaptedThreshold (settings : LossSettings) (threshold : ℕ) (p : OutstandingPacket) : ℕ :=
  match settings.useAdaptiveLossReorderingThresholds, p.metadata.lossReorderDistance with
  | true, some distance => max threshold distance.toNat
  | _, _ => threshold

def adaptedDividend (settings : LossSettings) (p : OutstandingPacket) : ℤ :=
  match settings.useAdaptiveLossTimeThresholds, p.metadata.lossTimeoutDividend with
  | true, some dividend => max settings.timeReorderingThreshDividend dividend
  | _, _ => settings.timeReorderingThreshDividend

def modifyStateForSpuriousLoss (t : AckTally) (p : OutstandingPacket) : Except Failure AckTally := do
  check (0<t.counts.declaredLostCount)
  return {t with
    counts := {t.counts with declaredLostCount := t.counts.declaredLostCount-1}
    lossState := {t.lossState with
      reorderingThreshold := adaptedThreshold t.settings t.lossState.reorderingThreshold p}
    settings := {t.settings with timeReorderingThreshDividend := adaptedDividend t.settings p}}

namespace AckTally

/-- The time since the packet was sent, rounded up. An ack that was received before the packet
was sent does not count as the time of arrival. -/
def rttSampleOf (ackReceiveTime nowTime : ℤ) (p : OutstandingPacket) : ℤ :=
  ceilMicros ((if p.metadata.time<ackReceiveTime then ackReceiveTime else nowTime)-p.metadata.time)

/-- Only the packet that the frame names as its largest gives a sample. -/
def sampleRtt (frame : ReadAckFrame) (ackReceiveTime nowTime : ℤ) (t : AckTally)
    (p : OutstandingPacket) : Except Failure AckTally :=
  if !frame.implicit && p.packetNum = frame.largestAcked && rttSampleOf ackReceiveTime nowTime p≠0 then do
    check t.ack.rttSample.isNone
    return {t with
      ack := {t.ack with rttSample := some (rttSampleOf ackReceiveTime nowTime p)}
      lossState := t.lossState.updateRtt (rttSampleOf ackReceiveTime nowTime p) frame.ackDelay}
  else .ok t

def insertContext (c : AckedContext) (l : List AckedContext) : List AckedContext :=
  l.rdropWhile (fun d => d.outstandingPacket.packetNum ≤ c.outstandingPacket.packetNum) ++
    c::l.rtakeWhile fun d => d.outstandingPacket.packetNum ≤ c.outstandingPacket.packetNum

def ackLive (frame : ReadAckFrame) (ackReceiveTime nowTime : ℤ) (t : AckTally)
    (p : OutstandingPacket) : Except Failure AckTally := do
  let needsProcess := t.counts.needsProcess p
  let counts ← t.counts.retire p
  let t ← sampleRtt frame ackReceiveTime nowTime {t with counts} p
  return {t with
    ack := {t.ack with
      ackedBytes := t.ack.ackedBytes+p.size
      largestNewlyAckedPacket :=
        some (max (t.ack.largestNewlyAckedPacket.getD p.packetNum) p.packetNum)}
    dsrPacketsAcked := t.dsrPacketsAcked+if p.isDSRPacket then 1 else 0
    packetsWithHandlerContext := insertContext ⟨p.schedule,needsProcess⟩ t.packetsWithHandlerContext}

def settlePacket (frame : ReadAckFrame) (ackReceiveTime nowTime : ℤ) (t : AckTally)
    (p : OutstandingPacket) : Except Failure AckTally :=
  if p.declaredLost then modifyStateForSpuriousLoss t p
  else ackLive frame ackReceiveTime nowTime t p

def ackPacket (frame : ReadAckFrame) (ackReceiveTime nowTime : ℤ) (t : AckTally)
    (p : OutstandingPacket) : Except Failure (AckTally × OutstandingPacket) :=
  (fun t => (t,p.schedule)) <$> settlePacket frame ackReceiveTime nowTime
    {t with counts := {t.counts with
     scheduledForDestructionCount := t.counts.scheduledForDestructionCount+1}} p

end AckTally

/-- `recordFrameDelivered` and `recordFrameAlreadyDelivered`, as far as they note the
stream packet index; a frame without data is not noted. -/
def recordFrame (details : List (ℕ × Option ℕ)) (frame : WriteStreamFrame) : List (ℕ × Option ℕ) :=
  if frame.len=0 then details
  else
    let idx := if frame.fromBufMeta then some frame.streamPacketIdx
      else (details.lookup frame.streamId).join
    (frame.streamId,idx)::details.filter fun e => e.1≠frame.streamId

/-- The frames of streams that still exist, unless a copy of the packet was processed. -/
def detailsPerStream (streamAlive : ℕ → Bool) (c : AckedContext) : List (ℕ × Option ℕ) :=
  if c.processAllFrames then
    c.outstandingPacket.frames.foldl (fun details frame =>
      match frame with
      | .writeStreamFrame f => if streamAlive f.streamId then recordFrame details f else details
      | _ => details) []
  else []

def AckedContext.toAckPacket (streamAlive : ℕ → Bool) (timestamps : List (ℕ × ℕ)) (c : AckedContext) :
    AckPacket where
  packetNum := c.outstandingPacket.packetNum
  nonDsrPacketSequenceNumber := c.outstandingPacket.nonDsrPacketSequenceNumber.getD 0
  outstandingPacketMetadata := c.outstandingPacket.metadata
  detailsPerStream := detailsPerStream streamAlive c
  receiveRelativeTimeStampUsec :=
    (timestamps.lookup c.outstandingPacket.packetNum).map fun t => (t : ℤ)

/-- Erase old lost packets from the front. The loop steps over packets of other spaces and
packets about to be erased anyway, and ends at the first packet it has to keep. -/
def clearOld (time threshold : ℤ) (pnSpace : PacketNumberSpace) :
    ℕ → List OutstandingPacket → Except Failure (ℕ × List OutstandingPacket)
  | count, [] => .ok (count,[])
  | count, p::rest =>
    if time<p.metadata.time then .ok (count,p::rest)
    else if !p.inSpace pnSpace || p.metadata.scheduledForDestruction then
      (fun r => (r.1,p::r.2)) <$> clearOld time threshold pnSpace count rest
    else if p.declaredLost && 1000*threshold < time-p.metadata.time then do
      check (0 < count)
      clearOld time threshold pnSpace (count-1) rest
    else .ok (count,p::rest)

namespace Connection
variable {σ : Type}

def clearOldOutstandingPackets (conn : Connection σ) (time : ℤ) (pnSpace : PacketNumberSpace) :
    Except Failure (Connection σ) :=
  if conn.outstandings.declaredLostCount=0 then .ok conn
  else do
    let r ← clearOld time (conn.lossState.calculatePTO conn.transportSettings) pnSpace
      conn.outstandings.declaredLostCount conn.outstandings.packets
    return {conn with outstandings := {conn.outstandings with
      declaredLostCount := r.1, packets := r.2}}

def removeOutstandingsForAck (conn : Connection σ) (pnSpace : PacketNumberSpace)
    (frame : ReadAckFrame) : Except Failure (Connection σ) := do
  let r ← AckedPacketIterator.eraseAckedOutstandings pnSpace frame.ackBlocks
    conn.outstandings.scheduledForDestructionCount conn.outstandings.packets
  return {conn with outstandings := {conn.outstandings with
    scheduledForDestructionCount := r.1, packets := r.2}}

def markAcked (conn : Connection σ) (pnSpace : PacketNumberSpace) (frame : ReadAckFrame)
    (ackReceiveTime nowTime : ℤ) : Except Failure (AckTally × List OutstandingPacket) :=
  AckedPacketIterator.forEachAcked pnSpace frame.ackBlocks
    (AckTally.ackPacket frame ackReceiveTime nowTime)
    {counts := conn.outstandings.toOutstandingCounts
     lossState := conn.lossState
     settings := conn.transportSettings
     ack := {ackTime := ackReceiveTime, largestAckedPacket := frame.largestAcked
             implicit := frame.implicit}}
    conn.outstandings.packets

def reportedTimestamps (conn : Connection σ) (pnSpace : PacketNumberSpace) (frame : ReadAckFrame) :
    Except Failure (List (ℕ × ℕ)) :=
  if pnSpace = .appData then
    parseAckReceiveTimestamps conn.transportSettings.maybeAckReceiveTimestampsConfigSentToPeer frame []
      ((conn.outstandings.getFirstOutstandingPacket .appData).map OutstandingPacket.packetNum)
  else .ok []

def settleAcked (conn : Connection σ) (t : AckTally) (packets : List OutstandingPacket) :
    Except Failure (Connection σ) := do
  check (t.dsrPacketsAcked≤t.counts.dsrCount)
  let counts := {t.counts with dsrCount := t.counts.dsrCount-t.dsrPacketsAcked}
  check (counts.declaredLostCount≤packets.length)
  let n ← counts.numOutstanding packets.length
  check (counts.numClonedPackets≤n)
  return {conn with
    outstandings := {counts with packets}
    lossState := t.lossState
    transportSettings := t.settings}

def tellAck (cc : Controller σ) (conn : Connection σ) (ack : AckEvent) (lossEvent : Option LossEvent) :
    Except Failure (Connection σ) :=
  match lossEvent with
  | none =>
    if ack.largestNewlyAckedPacket.isSome then conn.tell cc (.packetAckOrLoss (some ack) none)
    else .ok conn
  | some loss =>
    match loss.smallestLostSentTime, loss.largestLostSentTime with
    | some smallest, some largest =>
      let pto := if conn.lossState.srtt=0 then none
        else some (conn.lossState.calculatePTO conn.transportSettings)
      conn.tell cc (.packetAckOrLoss (some ack) (some {loss with
          persistentCongestion := isPersistentCongestion pto smallest largest ack}))
    | _, _ => .error .checkFailed

def ackEventOf (t : AckTally) (streamAlive : ℕ → Bool) (timestamps : List (ℕ × ℕ)) : AckEvent :=
  {t.ack with
    ackedPackets := t.packetsWithHandlerContext.reverse.map
      (AckedContext.toAckPacket streamAlive timestamps)}

/-- Up to the congestion controller: mark, count and report the acked packets, detect losses.
`streamAlive` is asked for the streams of the acked frames. -/
def applyAck (conn : Connection σ) (pnSpace : PacketNumberSpace) (frame : ReadAckFrame)
    (lossVisitor : LossVisitor) (streamAlive : ℕ → Bool) (ackReceiveTime nowTime : ℤ) :
    Except Failure (Connection σ × AckEvent × Option LossEvent) := do
  let _ ← conn.outstandings.numOutstanding
  let r ← conn.markAcked pnSpace frame ackReceiveTime nowTime
  let timestamps ← conn.reportedTimestamps pnSpace frame
  let conn ← conn.settleAcked r.1 r.2
  let ack := ackEventOf r.1 streamAlive timestamps
  let q ← conn.handleAckForLoss lossVisitor ack pnSpace
  return (q.1,ack,q.2)

def forgetAcked (conn : Connection σ) (pnSpace : PacketNumberSpace) (frame : ReadAckFrame)
    (ackReceiveTime : ℤ) : Except Failure (Connection σ) := do
  let conn ← conn.clearOldOutstandingPackets ackReceiveTime pnSpace
  conn.removeOutstandingsForAck pnSpace frame

def processAckFrame (cc : Controller σ) (conn : Connection σ) (pnSpace : PacketNumberSpace)
    (frame : ReadAckFrame) (lossVisitor : LossVisitor) (streamAlive : ℕ → Bool)
    (ackReceiveTime nowTime : ℤ) : Except Failure (Connection σ × AckEvent) := do
  let r ← conn.applyAck pnSpace frame lossVisitor streamAlive ackReceiveTime nowTime
  let conn ← r.1.tellAck cc r.2.1 r.2.2
  let conn ← conn.forgetAcked pnSpace frame ackReceiveTime
  return (conn,r.2.1)

end Connection

end QuicWestwood
