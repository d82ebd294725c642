import QuicWestwood.AckedPacketIterator
import QuicWestwood.CongestionControl

/-! The sending side of a connection as far as acks and losses touch it, and `QuicLossFunctions`: declaring
packets lost by time and by reordering, the loss times of the three spaces, the PTO alarm and the rejection of
0-RTT packets. What the visitors do to streams is outside this state; a visitor may only fail. -/
namespace QuicWestwood

def kReorderingThreshold : ℕ := 3
def kMaxReorderingThreshold : ℕ := 256
def kPersistentCongestionThreshold : ℤ := 3
def kRttAlpha : ℤ := 8
def kRttBeta : ℤ := 4

inductive AlarmMethod
  | earlyRetransmitOrReordering
  | pto
  deriving DecidableEq

structure LossSettings where
  initialRtt : ℤ := 50000
  timeReorderingThreshDividend : ℤ := 5
  timeReorderingThreshDivisor : ℤ := 4
  useInflightReorderingThreshold : Bool := false
  useAdaptiveLossReorderingThresholds : Bool := false
  useAdaptiveLossTimeThresholds : Bool := false
  maxNumPTOs : ℕ := 7
  earlyRetransmit0Rtt : Bool := false
  maybeAckReceiveTimestampsConfigSentToPeer : Option AckReceiveTimestampsConfig := none

/-- `LossState` without its statistics; `inflightBytes` is kept beside the controller. -/
structure LossState where
  lossTimes : PacketNumberSpace → Option ℤ := fun _ => none
  maxAckDelay : ℤ := 0
  mrtt : ℤ := 2^63-1
  srtt : ℤ := 0
  lrtt : ℤ := 0
  rttvar : ℤ := 0
  lastRetransmittablePacketSentTime : ℤ := 0
  reorderingThreshold : ℕ := kReorderingThreshold
  ptoCount : ℕ := 0
  currentAlarmMethod : AlarmMethod := .earlyRetransmitOrReordering
  attemptedEarlyRetransmit0Rtt : Bool := false

/-- The fields of `AckState` about the packets sent in a space. -/
structure SendState where
  nextPacketNum : ℕ := 0
  nonDsrPacketSequenceNumber : ℕ := 0
  largestAckedByPeer : Option ℕ := none
  largestNonDsrSequenceNumberAckedByPeer : Option ℕ := none
  deriving DecidableEq

structure Connection (σ : Type) where
  outstandings : OutstandingsInfo := {}
  lossState : LossState := {}
  ackStates : PacketNumberSpace → SendState := fun _ => {}
  transportSettings : LossSettings := {}
  setLossDetectionAlarm : Bool := false
  oneRttWriteCipher : Bool := false
  control : Controlled σ

abbrev Controller (σ : Type) := Controlled σ → CcEvent → Outcome Failure (Controlled σ)

/-- What a visitor does with a lost packet, told whether a copy was processed before. -/
abbrev LossVisitor := OutstandingPacket → Bool → Except Failure Unit

/-- `markPacketLoss` moves stream data to the loss buffers, which are not part of this state. -/
def markPacketLoss : LossVisitor := fun _ _ => .ok ()

namespace LossState

def calculatePTO (settings : LossSettings) (l : LossState) : ℤ :=
  if l.srtt=0 then 2*settings.initialRtt else l.srtt+4*l.rttvar+l.maxAckDelay

/-- `rttvar` and `srtt` use the integer divisions of the source. -/
def updateRtt (l : LossState) (rttSample ackDelay : ℤ) : LossState :=
  let mrtt := min l.mrtt rttSample
  let adjustedRtt :=
    if ackDelay < rttSample ∧ mrtt+ackDelay < rttSample then rttSample-ackDelay else rttSample
  {l with
    mrtt
    lrtt := rttSample
    maxAckDelay := max l.maxAckDelay ackDelay
    rttvar :=
      if l.srtt=0 then adjustedRtt.tdiv 2
      else (l.rttvar*(kRttBeta-1)).tdiv kRttBeta+|l.srtt-adjustedRtt|.tdiv kRttBeta
    srtt :=
      if l.srtt=0 then adjustedRtt
      else (l.srtt*(kRttAlpha-1)).tdiv kRttAlpha+adjustedRtt.tdiv kRttAlpha}

end LossState

def isPersistentCongestion (pto : Option ℤ) (lostPeriodStart lostPeriodEnd : ℤ) (ack : AckEvent) : Bool :=
  match pto with
  | none => false
  | some pto =>
    if lostPeriodEnd-lostPeriodStart < 1000*(pto*kPersistentCongestionThreshold) then false
    else !ack.ackedPackets.any fun p => lostPeriodStart ≤ p.time ∧ p.time≤lostPeriodEnd

structure LossScan where
  largestAcked : ℕ
  pnSpace : PacketNumberSpace
  largestDsrAckedSequenceNumber : List (ℕ × ℕ)
  largestNonDsrAckedSequenceNumber : Option ℕ
  lossTime : ℤ
  rttSample : ℤ
  delayUntilLost : ℤ
  reorderingThreshold : ℕ
  settings : LossSettings
  /-- the number of packets in the list -/
  size : ℕ

structure LossTally where
  counts : OutstandingCounts
  lossEvent : LossEvent
  shouldSetTimer : Bool := false

/-- An event without a lost packet is not reported. -/
def LossTally.reported (t : LossTally) : Option LossEvent :=
  if t.lossEvent.largestLostPacketNum.isSome then some t.lossEvent else none

namespace LossScan

/-- The number compared with the largest acked one. The stream packet index of a DSR packet
is only found out after this choice is made. -/
def currentPacketNum (p : OutstandingPacket) : ℕ := p.nonDsrPacketSequenceNumber.getD p.packetNum

def largestAckedForComparison (scan : LossScan) (p : OutstandingPacket) : Except Failure ℕ :=
  match p.frames.head? with
  | some (.writeStreamFrame frame) =>
    if frame.fromBufMeta then do
      check p.isDSRPacket
      return (scan.largestDsrAckedSequenceNumber.lookup frame.streamId).getD frame.streamPacketIdx
    else .ok (scan.largestNonDsrAckedSequenceNumber.getD (currentPacketNum p))
  | _ => .ok (scan.largestNonDsrAckedSequenceNumber.getD (currentPacketNum p))

def reorderDistance (scan : LossScan) (p : OutstandingPacket) : Except Failure ℕ := do
  let largest ← scan.largestAckedForComparison p
  return max largest (currentPacketNum p)-currentPacketNum p

def thresholdToUse (scan : LossScan) (counts : OutstandingCounts) : Except Failure ℕ :=
  if scan.settings.useInflightReorderingThreshold then do
    let numOutstanding ← counts.numOutstanding scan.size
    return max scan.reorderingThreshold (min (numOutstanding/2) kMaxReorderingThreshold)
  else .ok scan.reorderingThreshold

def lostByTimeout (scan : LossScan) (p : OutstandingPacket) : Bool :=
  1000*scan.delayUntilLost < scan.lossTime-p.metadata.time

/-- The packet as it stays in the list, so that a spurious loss can be told later. -/
def markLost (scan : LossScan) (p : OutstandingPacket) (distance : ℕ) (lostByReorder : Bool) :
    OutstandingPacket :=
  {p with
    declaredLost := true
    metadata := {p.metadata with
      lossTimeoutDividend :=
        if scan.lostByTimeout p ∧ 0 < scan.rttSample then
          some (((scan.lossTime-p.metadata.time)*scan.settings.timeReorderingThreshDivisor).tdiv
            (1000*scan.rttSample))
        else p.metadata.lossTimeoutDividend
      lossReorderDistance :=
        if lostByReorder then some (UInt16.ofNat distance) else p.metadata.lossReorderDistance}}

def declareLost (scan : LossScan) (lossVisitor : LossVisitor) (t : LossTally) (p : OutstandingPacket)
    (distance : ℕ) (lostByReorder : Bool) : Except Failure (LossTally × List OutstandingPacket) := do
  check (!p.isDSRPacket || 0 < t.counts.dsrCount)
  lossVisitor p (!t.counts.needsProcess p)
  let counts ← t.counts.retire p
  let lossEvent ← t.lossEvent.addLostPacket p
  return ({t with
    counts := {counts with
      dsrCount := t.counts.dsrCount-if p.isDSRPacket then 1 else 0
      declaredLostCount := counts.declaredLostCount+1}
    lossEvent},[scan.markLost p distance lostByReorder])

def processPacket (scan : LossScan) (lossVisitor : LossVisitor) (t : LossTally)
    (p : OutstandingPacket) : Except Failure (LossTally × List OutstandingPacket) :=
  if p.metadata.scheduledForDestruction || !p.inSpace scan.pnSpace || p.declaredLost then
    .ok (t,[p])
  else do
    let distance ← scan.reorderDistance p
    let threshold ← scan.thresholdToUse t.counts
    if scan.lostByTimeout p || threshold < distance then
      scan.declareLost lossVisitor t p distance (threshold<distance)
    else .ok ({t with shouldSetTimer := true},[p])

/-- The loop ends at the first packet not scheduled for destruction that is not below
`largestAcked`. -/
def continues (scan : LossScan) (p : OutstandingPacket) : Bool :=
  p.metadata.scheduledForDestruction || p.packetNum < scan.largestAcked

end LossScan

/-- The packets before the first live one of the space, those of the loop, and the others. -/
def processOutstandingsForLoss (scan : LossScan) (lossVisitor : LossVisitor) (t : LossTally)
    (packets : List OutstandingPacket) : Except Failure (LossTally × List OutstandingPacket) := do
  let rest := OutstandingsInfo.getNextOutstandingPacket scan.pnSpace packets
  let r ← sweep (scan.processPacket lossVisitor) t (rest.takeWhile scan.continues)
  return (r.1,packets.takeWhile (fun p => !(p.live && p.inSpace scan.pnSpace)) ++
    (r.2++rest.dropWhile scan.continues))

/-- The largest sequence numbers of an ack event: per DSR stream, and of the other packets. -/
structure LargestAcked where
  dsr : List (ℕ × ℕ) := []
  nonDsr : Option ℕ := none
  deriving DecidableEq

namespace LargestAcked

def noteNonDsr (l : LargestAcked) (seq : ℕ) : LargestAcked :=
  {l with nonDsr := some (max (l.nonDsr.getD 0) seq)}

def noteStream (seq : ℕ) (l : LargestAcked) (details : ℕ × Option ℕ) : LargestAcked :=
  match details.2 with
  | some idx =>
    {l with
      dsr := (details.1,max ((l.dsr.lookup details.1).getD idx) idx) ::
        l.dsr.filter fun e => e.1≠details.1}
  | none => l.noteNonDsr seq

def notePacket (l : LargestAcked) (p : AckPacket) : LargestAcked :=
  let l' := p.detailsPerStream.foldl (noteStream p.nonDsrPacketSequenceNumber) l
  if p.detailsPerStream.isEmpty then l'.noteNonDsr p.nonDsrPacketSequenceNumber else l'

def ofAckEvent (ackEvent : Option AckEvent) : LargestAcked :=
  match ackEvent with
  | none => {}
  | some ack => ack.ackedPackets.foldl notePacket {}

/-- Without acked packets the largest number acked before stands in. -/
def orBefore (l : LargestAcked) (before : Option ℕ) : LargestAcked :=
  if l.dsr.isEmpty ∧ before.isSome then {l with nonDsr := l.nonDsr <|> before} else l

end LargestAcked

namespace Connection
variable {σ : Type}

def tell (cc : Controller σ) (conn : Connection σ) (e : CcEvent) : Except Failure (Connection σ) :=
  (fun control => {conn with control}) <$> (cc conn.control e).toExcept

def delayUntilLost (conn : Connection σ) : ℤ :=
  (max conn.lossState.srtt conn.lossState.lrtt*conn.transportSettings.timeReorderingThreshDividend).tdiv
    conn.transportSettings.timeReorderingThreshDivisor

def setLossTime (conn : Connection σ) (s : PacketNumberSpace) (t : Option ℤ) : Connection σ :=
  {conn with lossState := {conn.lossState with
     lossTimes := Function.update conn.lossState.lossTimes s t}}

def lossScan (conn : Connection σ) (lossTime : ℤ) (pnSpace : PacketNumberSpace)
    (ackEvent : Option AckEvent) (largestAcked : ℕ) : LossScan :=
  let largest := (LargestAcked.ofAckEvent ackEvent).orBefore
    (conn.ackStates pnSpace).largestNonDsrSequenceNumberAckedByPeer
  {largestAcked, pnSpace
   largestDsrAckedSequenceNumber := largest.dsr
   largestNonDsrAckedSequenceNumber := largest.nonDsr
   lossTime
   rttSample := max conn.lossState.srtt conn.lossState.lrtt
   delayUntilLost := conn.delayUntilLost
   reorderingThreshold := conn.lossState.reorderingThreshold
   settings := conn.transportSettings
   size := conn.outstandings.packets.length}

/-- The scan is skipped as long as the peer has acked nothing in the space. -/
def scanForLoss (conn : Connection σ) (lossVisitor : LossVisitor) (lossTime : ℤ)
    (pnSpace : PacketNumberSpace) (ackEvent : Option AckEvent) :
    Except Failure (LossTally × List OutstandingPacket) :=
  let t : LossTally := {counts := conn.outstandings.toOutstandingCounts, lossEvent := {lossTime}}
  match (conn.ackStates pnSpace).largestAckedByPeer with
  | none => .ok (t,conn.outstandings.packets)
  | some largestAcked =>
    processOutstandingsForLoss (conn.lossScan lossTime pnSpace ackEvent largestAcked) lossVisitor t
      conn.outstandings.packets

def earliestUnprocessed (counts : OutstandingCounts) (pnSpace : PacketNumberSpace)
    (packets : List OutstandingPacket) : Option OutstandingPacket :=
  packets.find? fun p => p.live && p.inSpace pnSpace && counts.needsProcess p

def lossTimer (conn : Connection σ) (pnSpace : PacketNumberSpace) (t : LossTally)
    (packets : List OutstandingPacket) : Option ℤ :=
  if t.shouldSetTimer then
    (earliestUnprocessed t.counts pnSpace packets).map
      fun p => 1000*conn.delayUntilLost+p.metadata.time
  else none

/-- A controller is installed, so an event with a lost packet is returned to the caller. -/
def detectLossPackets (conn : Connection σ) (lossVisitor : LossVisitor) (lossTime : ℤ)
    (pnSpace : PacketNumberSpace) (ackEvent : Option AckEvent) :
    Except Failure (Connection σ × Option LossEvent) := do
  let r ← conn.scanForLoss lossVisitor lossTime pnSpace ackEvent
  return ({conn with outstandings := {r.1.counts with packets := r.2}}.setLossTime pnSpace
    (conn.lossTimer pnSpace r.1 r.2),r.1.reported)

/-- `setLossDetectionAlarm = numOutstanding() > 0` -/
def requestAlarm (conn : Connection σ) : Except Failure (Connection σ) := do
  let n ← conn.outstandings.numOutstanding
  return {conn with setLossDetectionAlarm := 0 < n}

/-- Only a sequence number other than 0 replaces the one remembered. -/
def noteAcked (s : SendState) (ack : AckEvent) : SendState :=
  match ack.largestNewlyAckedPacket with
  | none => s
  | some n =>
    let seq := ((ack.ackedPackets.find? fun p => p.packetNum = n).map
      AckPacket.nonDsrPacketSequenceNumber).getD 0
    {s with
      largestAckedByPeer := some (max (s.largestAckedByPeer.getD n) n)
      largestNonDsrSequenceNumberAckedByPeer :=
        if seq=0 then s.largestNonDsrSequenceNumberAckedByPeer
        else some (max (s.largestNonDsrSequenceNumberAckedByPeer.getD seq) seq)}

def noteAckEvent (conn : Connection σ) (ack : AckEvent) (pnSpace : PacketNumberSpace) : Connection σ :=
  {conn with
    lossState := {conn.lossState with
      ptoCount := if ack.largestNewlyAckedPacket.isSome then 0 else conn.lossState.ptoCount}
    ackStates := Function.update conn.ackStates pnSpace (noteAcked (conn.ackStates pnSpace) ack)}

def handleAckForLoss (conn : Connection σ) (lossVisitor : LossVisitor) (ack : AckEvent)
    (pnSpace : PacketNumberSpace) : Except Failure (Connection σ × Option LossEvent) := do
  let r ← (conn.noteAckEvent ack pnSpace).detectLossPackets lossVisitor ack.ackTime pnSpace (some ack)
  let conn ← r.1.requestAlarm
  return (conn,r.2)

/-- One 0-RTT packet: lost and erased at once. The DSR count is left alone. -/
def rejectZeroRtt (lossVisitor : LossVisitor) (t : LossTally) (p : OutstandingPacket) :
    Except Failure (LossTally × List OutstandingPacket) :=
  if p.live && p.inSpace .appData && p.protectionType = .zeroRtt then do
    lossVisitor p (!t.counts.needsProcess p)
    let counts ← t.counts.retire p
    let lossEvent ← t.lossEvent.addLostPacket p
    return ({t with counts, lossEvent},[])
  else .ok (t,[p])

def tellRemoved (cc : Controller σ) (conn : Connection σ) (lossEvent : Option LossEvent) :
    Except Failure (Connection σ) :=
  match lossEvent with
  | none => .ok conn
  | some loss => conn.tell cc (.removeBytesFromInflight loss.lostBytes)

def markZeroRttPacketsLost (cc : Controller σ) (conn : Connection σ) (lossVisitor : LossVisitor)
    (now : ℤ) : Except Failure (Connection σ) := do
  let r ← sweep (rejectZeroRtt lossVisitor)
    {counts := conn.outstandings.toOutstandingCounts, lossEvent := {lossTime := now}}
    conn.outstandings.packets
  {conn with outstandings := {r.1.counts with packets := r.2}}.tellRemoved cc r.1.reported

def exceededMaxPTO : Failure := .quicInternalException "Exceeded max PTO" .connectionAbandoned

/-- The number of probes to send depends on the loss buffers and is left out. -/
def onPTOAlarm (cc : Controller σ) (conn : Connection σ) (now : ℤ) : Except Failure (Connection σ) :=
  if conn.lossState.ptoCount+1 = conn.transportSettings.maxNumPTOs then .error exceededMaxPTO
  else if conn.transportSettings.earlyRetransmit0Rtt && !conn.lossState.attemptedEarlyRetransmit0Rtt &&
      conn.oneRttWriteCipher then
    {conn with lossState := {conn.lossState with
       ptoCount := conn.lossState.ptoCount+1, attemptedEarlyRetransmit0Rtt := true}
     }.markZeroRttPacketsLost cc markPacketLoss now
  else
    .ok {conn with lossState := {conn.lossState with ptoCount := conn.lossState.ptoCount+1}}

def earlierOf (a b : Option ℤ × PacketNumberSpace) : Option ℤ × PacketNumberSpace :=
  match a.1, b.1 with
  | _, none => a
  | none, some _ => b
  | some s, some t => if t < s then b else a

/-- The loss times of the spaces in their order; the first of equal ones wins. -/
def earliestLossTimer (conn : Connection σ) : Option ℤ × PacketNumberSpace :=
  let times := conn.lossState.lossTimes
  earlierOf (earlierOf (earlierOf (none,.initial) (times .initial,.initial)) (times .handshake,.handshake))
    (if conn.oneRttWriteCipher then times .appData else none,.appData)

/-- `onPacketAckOrLoss(nullptr, lossEvent)` -/
def tellLoss (cc : Controller σ) (conn : Connection σ) (lossEvent : Option LossEvent) :
    Except Failure (Connection σ) :=
  match lossEvent with
  | none => .ok conn
  | some loss => conn.tell cc (.packetAckOrLoss none (some loss))

def onAlarm (cc : Controller σ) (conn : Connection σ) (lossVisitor : LossVisitor) (now : ℤ) :
    Except Failure (Connection σ) :=
  match conn.lossState.currentAlarmMethod with
  | .earlyRetransmitOrReordering => do
    check conn.earliestLossTimer.1.isSome
    let r ← conn.detectLossPackets lossVisitor now conn.earliestLossTimer.2 none
    r.1.tellLoss cc r.2
  | .pto => conn.onPTOAlarm cc now

def onLossDetectionAlarm (cc : Controller σ) (conn : Connection σ) (lossVisitor : LossVisitor)
    (now : ℤ) : Except Failure (Connection σ) :=
  if conn.outstandings.packets.isEmpty then .ok conn
  else do
    let conn ← conn.onAlarm cc lossVisitor now
    conn.requestAlarm

end Connection

/-! ## What the loops keep -/

def lostBytesOverflow : Failure :=
  .quicInternalException "LossEvent: lostBytes overflow" .lostBytesOverflow

structure LossEvent.Built (e : LossEvent) : Prop where
  times : e.largestLostPacketNum.isSome → e.smallestLostSentTime.isSome ∧ e.largestLostSentTime.isSome
  empty : e.largestLostPacketNum=none → e.lostBytes=0

lemma LossEvent.Built.start (lossTime : ℤ) : LossEvent.Built {lossTime} := ⟨by simp,by simp⟩

lemma ends_addLostPacket (e : LossEvent) (p : OutstandingPacket) :
    Ends (e.addLostPacket p) (· = lostBytesOverflow) fun e' =>
      e'.Built ∧ e'.lostBytes = e.lostBytes+p.size := by
  unfold LossEvent.addLostPacket
  split_ifs
  · rfl
  · exact ⟨⟨fun _ => ⟨rfl,rfl⟩,by simp⟩,rfl⟩

structure LossTally.Balanced (total : ℕ) (ids : Finset ClonedPacketIdentifier) (t : LossTally)
    (packets : List OutstandingPacket) : Prop where
  counted : Counted 0 t.counts packets
  ids : t.counts.clonedPacketIdentifiers ⊆ ids
  bytes : liveBytes packets+t.lossEvent.lostBytes = total
  built : t.lossEvent.Built

def OutstandingPacket.BecomesLost (p q : OutstandingPacket) : Prop :=
  ∃ dividend distance,q = {p with
    declaredLost := true
    metadata := {p.metadata with lossTimeoutDividend := dividend, lossReorderDistance := distance}}

/-- What loss detection in a space may do to a packet. -/
def Judged (pnSpace : PacketNumberSpace) (p q : OutstandingPacket) : Prop :=
  q = p ∨ (p.live=true ∧ p.inSpace pnSpace = true ∧ p.BecomesLost q)

section Loops
variable {E : Failure → Prop} {lossVisitor : LossVisitor} {total : ℕ} {t : LossTally}
  {ids : Finset ClonedPacketIdentifier}
  {pre post : List OutstandingPacket} {p : OutstandingPacket}

namespace LossScan
variable (scan : LossScan)

lemma packets_split (packets : List OutstandingPacket) :
    packets = packets.takeWhile (fun p => !(p.live && p.inSpace scan.pnSpace)) ++
      ((OutstandingsInfo.getNextOutstandingPacket scan.pnSpace packets).takeWhile scan.continues ++
        (OutstandingsInfo.getNextOutstandingPacket scan.pnSpace packets).dropWhile scan.continues) := by
  rw [List.takeWhile_append_dropWhile]
  exact List.takeWhile_append_dropWhile.symm

@[simp] lemma markLost_live (distance : ℕ) (b : Bool) : (scan.markLost p distance b).live = false := by
  simp [markLost,OutstandingPacket.live]

lemma ends_declareLost (hE : E lostBytesOverflow)
    (hvisitor : ∀ b,Ends (lossVisitor p b) E fun _ => True)
    (h : t.Balanced total ids (pre++p::post)) (hp : p.live) (distance : ℕ) (b : Bool) :
    Ends (scan.declareLost lossVisitor t p distance b) E fun r =>
      r.2 = [scan.markLost p distance b] ∧ r.1.Balanced total ids (pre++(r.2++post)) ∧
        r.1.shouldSetTimer = t.shouldSetTimer ∧ t.lossEvent.addLostPacket p = .ok r.1.lossEvent := by
  obtain ⟨hlost,hsched⟩ : p.declaredLost=false ∧ p.metadata.scheduledForDestruction=false := by
    simpa [OutstandingPacket.live] using hp
  have hcheck : (!p.isDSRPacket || decide (0<t.counts.dsrCount)) = true := by
    cases hdsr : p.isDSRPacket with
    | false => rfl
    | true => simpa using h.counted.dsrCount_pos (by simp) hp hdsr
  have hdsr : t.counts.dsrCount-(if p.isDSRPacket then 1 else 0)+0 +
      (if p.isDSRPacket then 1 else 0) = t.counts.dsrCount+0 := by
    have hpos := h.counted.dsrCount_pos (by simp) hp
    split_ifs at hpos ⊢ with hd
    · have := hpos hd
      omega
    · rfl
  obtain ⟨c',hretire,-,hids,hcounted⟩ := Counted.retire [scan.markLost p distance b] _ _ h.counted hp
    (by simp) (by simp [markLost,OutstandingPacket.identifier,OutstandingPacket.packetNumberSpace]) hdsr
  unfold declareLost
  rw [hcheck,check_true]
  refine (hvisitor _).bind fun _ _ => ?_
  rw [hretire]
  refine ((ends_addLostPacket t.lossEvent p).mono ?_ fun _ => id).with_eq.bind ?_
  · rintro _ rfl
    exact hE
  · rintro e ⟨he,heq⟩
    refine ⟨rfl,⟨?_,hids.trans h.ids,?_,he.1⟩,rfl,heq⟩
    · simpa [markLost,hsched] using hcounted
    · have hbytes := h.bytes
      simp only [liveBytes_append,liveBytes_cons,hp,markLost_live,liveBytes_nil,
        Bool.false_eq_true,if_true,if_false] at hbytes ⊢
      rw [he.2]
      omega

lemma ends_reorderDistance (hp : p.FromScheduler) : Ends (scan.reorderDistance p) E fun _ => True := by
  unfold reorderDistance largestAckedForComparison
  split
  · rename_i frame hframe
    split_ifs with hmeta
    · rw [hp.bufMeta frame (List.mem_of_mem_head? hframe) hmeta]
      trivial
    · trivial
  · trivial

lemma ends_thresholdToUse {packets : List OutstandingPacket} (h : t.Balanced total ids packets)
    (hsize : scan.size=packets.length) : Ends (scan.thresholdToUse t.counts) E fun _ => True := by
  unfold thresholdToUse
  split_ifs
  · rw [hsize,h.counted.numOutstanding_eq]
    trivial
  · trivial

lemma ends_processPacket (hE : E lostBytesOverflow)
    (hvisitor : p.live → p.inSpace scan.pnSpace → ∀ b,Ends (lossVisitor p b) E fun _ => True)
    (hp : p.FromScheduler) (hsize : scan.size = (pre++p::post).length) (h : t.Balanced total ids (pre++p::post)) :
    Ends (scan.processPacket lossVisitor t p) E fun r =>
      r.1.Balanced total ids (pre++(r.2++post)) ∧ ∃ q,r.2 = [q] ∧ Judged scan.pnSpace p q := by
  unfold processPacket
  split_ifs with hskip
  · exact ⟨h,p,rfl,.inl rfl⟩
  · simp only [Bool.or_eq_true,Bool.not_eq_true',not_or,Bool.not_eq_true,Bool.not_eq_false] at hskip
    obtain ⟨⟨hsched,hspace⟩,hlost⟩ := hskip
    have hlive : p.live=true := by simp [OutstandingPacket.live,hsched,hlost]
    refine (scan.ends_reorderDistance hp).bind fun distance _ => ?_
    refine (scan.ends_thresholdToUse h hsize).bind fun threshold _ => ?_
    split_ifs
    · refine (scan.ends_declareLost hE (hvisitor hlive hspace) h hlive _ _).imp fun r hr => ?_
      exact ⟨hr.2.1,_,hr.1,.inr ⟨hlive,hspace,_,_,rfl⟩⟩
    · exact ⟨⟨h.counted,h.ids,h.bytes,h.built⟩,p,rfl,.inl rfl⟩

lemma ends_sweep_processPacket {as : List OutstandingPacket} (hE : E lostBytesOverflow)
    (hvisitor : ∀ p ∈ as,p.live → p.inSpace scan.pnSpace → ∀ b,Ends (lossVisitor p b) E fun _ => True)
    (hsched : ∀ p ∈ as,p.FromScheduler) (hsize : scan.size = (pre++(as++post)).length)
    (h : t.Balanced total ids (pre++(as++post))) :
    Ends (sweep (scan.processPacket lossVisitor) t as) E fun r =>
      r.1.Balanced total ids (pre++(r.2++post)) ∧ List.Forall₂ (Judged scan.pnSpace) as r.2 := by
  refine (ends_sweep_forall₂ (I := fun (t : LossTally) l => t.Balanced total ids l ∧ scan.size=l.length)
    ?_ ⟨h,hsize⟩).imp fun r hr => ⟨hr.1.1,hr.2⟩
  rintro t pre p rest hsuffix ⟨hI,hlen⟩
  have hmem : p ∈ as := hsuffix.subset (by simp)
  refine (scan.ends_processPacket hE (hvisitor p hmem) (hsched p hmem) hlen hI).imp fun r hr => ?_
  obtain ⟨hbal,q,hq,hjudged⟩ := hr
  refine ⟨⟨hbal,?_⟩,q,hq,hjudged⟩
  rw [hq,hlen]
  simp

end LossScan

theorem ends_processOutstandingsForLoss (scan : LossScan) {packets : List OutstandingPacket}
    (hE : E lostBytesOverflow)
    (hvisitor : ∀ p ∈ packets,p.live → p.inSpace scan.pnSpace → ∀ b,Ends (lossVisitor p b) E fun _ => True)
    (hsched : ∀ p ∈ packets,p.FromScheduler) (hsize : scan.size=packets.length)
    (h : t.Balanced total ids packets) :
    Ends (processOutstandingsForLoss scan lossVisitor t packets) E fun r =>
      r.1.Balanced total ids r.2 ∧ List.Forall₂ (Judged scan.pnSpace) packets r.2 := by
  have hsplit := scan.packets_split packets
  unfold processOutstandingsForLoss
  generalize OutstandingsInfo.getNextOutstandingPacket scan.pnSpace packets = rest at hsplit ⊢
  generalize packets.takeWhile (fun p => !(p.live && p.inSpace scan.pnSpace)) = front at hsplit ⊢
  have hsame : ∀ l : List OutstandingPacket,List.Forall₂ (Judged scan.pnSpace) l l :=
    fun l => List.forall₂_same.mpr fun _ _ => .inl rfl
  have hmem : ∀ p ∈ rest.takeWhile scan.continues,p ∈ packets := fun p hp => by
    rw [hsplit]
    exact List.mem_append_right _ (List.mem_append_left _ hp)
  rw [hsplit] at h hsize
  refine (scan.ends_sweep_processPacket hE (fun p hp => hvisitor p (hmem p hp))
    (fun p hp => hsched p (hmem p hp)) hsize h).bind fun r hr => ⟨hr.1,?_⟩
  rw [hsplit]
  exact List.rel_append (hsame front) (List.rel_append hr.2 (hsame _))

end Loops

end QuicWestwood
