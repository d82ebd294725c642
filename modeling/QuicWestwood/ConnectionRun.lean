import QuicWestwood.AckBookkeeping

/-! `updateConnection` for a sent packet, the cloning of outstanding packets, the implicit ack of the crypto
streams, and runs in which these, received acks, losses and the rejection of 0-RTT data come in any order. The
frames' effects on streams are left out, and with them the checks that concern streams only. -/
namespace QuicWestwood
open OutstandingPacket List

/-- Acks, padding and datagrams are not retransmitted. -/
def QuicWriteFrame.retransmittable : QuicWriteFrame → Bool
  | .writeAckFrame | .paddingFrame | .datagramFrame => false
  | _ => true

/-- A packet as the schedulers hand it to `updateConnection`. Only the DSR scheduler writes
stream frames without data of their own, and only with the first 1-RTT key. -/
structure SentPacket where
  protectionType : ProtectionType
  frames : List QuicWriteFrame
  sentTime : ℤ
  encodedSize : ℕ
  isDSRPacket : Bool := false
  dsrKey : isDSRPacket → protectionType = .keyPhaseZero := by decide
  bufMeta : ∀ frame,QuicWriteFrame.writeStreamFrame frame ∈ frames → frame.fromBufMeta →
    isDSRPacket := by simp

namespace SentPacket

def packetNumberSpace (p : SentPacket) : PacketNumberSpace :=
  protectionTypeToPacketNumberSpace p.protectionType

def retransmittable (p : SentPacket) : Bool := p.frames.any QuicWriteFrame.retransmittable

/-- The entry in the list of outstanding packets. The size is cut to 16 bits. -/
def toOutstanding (p : SentPacket) (clonedPacketIdentifier : Option ClonedPacketIdentifier)
    (state : SendState) : OutstandingPacket where
  packetNum := state.nextPacketNum
  protectionType := p.protectionType
  frames := p.frames
  metadata := {time := p.sentTime, encodedSize := UInt16.ofNat p.encodedSize}
  maybeClonedPacketIdentifier := clonedPacketIdentifier
  nonDsrPacketSequenceNumber :=
    if p.isDSRPacket then none else some state.nonDsrPacketSequenceNumber
  isDSRPacket := p.isDSRPacket

@[simp] lemma toOutstanding_packetNumberSpace (p : SentPacket) (id : Option ClonedPacketIdentifier)
    (state : SendState) : (p.toOutstanding id state).packetNumberSpace = p.packetNumberSpace := rfl

end SentPacket

def increaseNextPacketNum (dsrPacket : Bool) (s : SendState) : SendState :=
  {s with
    nextPacketNum := s.nextPacketNum+1
    nonDsrPacketSequenceNumber := s.nonDsrPacketSequenceNumber+if dsrPacket then 0 else 1}

/-- Behind the last packet with a smaller number. -/
def insertPacket (p : OutstandingPacket) (packets : List OutstandingPacket) : List OutstandingPacket :=
  packets.rdropWhile (fun q => p.packetNum ≤ q.packetNum) ++
    p::packets.rtakeWhile fun q => p.packetNum ≤ q.packetNum

namespace OutstandingCounts

def countSent (c : OutstandingCounts) (p : OutstandingPacket) : OutstandingCounts :=
  let s := p.packetNumberSpace
  {c with
    dsrCount := c.dsrCount+if p.isDSRPacket then 1 else 0
    clonedPacketCount := fun t => c.clonedPacketCount t +
      if t=s ∧ p.maybeClonedPacketIdentifier.isSome then 1 else 0
    packetCount := fun t => c.packetCount t +
      if t=s ∧ p.maybeClonedPacketIdentifier.isNone then 1 else 0}

/-- The counters after `p` has got its first clone. -/
def countCloned (c : OutstandingCounts) (p : OutstandingPacket) : OutstandingCounts :=
  {c with
    clonedPacketIdentifiers := insert p.identifier c.clonedPacketIdentifiers
    clonedPacketCount := fun t => c.clonedPacketCount t+if t=p.packetNumberSpace then 1 else 0}

def cloneable (c : OutstandingCounts) (p : OutstandingPacket) : Bool :=
  !p.declaredLost && !p.isDSRPacket && c.needsProcess p

end OutstandingCounts

def OutstandingPacket.identified (p : OutstandingPacket) : OutstandingPacket :=
  {p with maybeClonedPacketIdentifier := some p.identifier}

namespace Connection
variable {σ : Type}

def countPacket (conn : Connection σ) (packet : SentPacket) : Connection σ :=
  {conn with
    ackStates := Function.update conn.ackStates packet.packetNumberSpace
      (increaseNextPacketNum packet.isDSRPacket (conn.ackStates packet.packetNumberSpace))
    setLossDetectionAlarm := conn.setLossDetectionAlarm || packet.retransmittable}

/-- The part made for retransmittable packets; the size cut to 16 bits reaches the controller. -/
def addOutstanding (cc : Controller σ) (conn : Connection σ) (p : OutstandingPacket) :
    Except Failure (Connection σ) :=
  {conn with
    outstandings :=
      {conn.outstandings.countSent p with packets := insertPacket p conn.outstandings.packets}
    lossState := {conn.lossState with lastRetransmittablePacketSentTime := p.metadata.time}
  }.tell cc (.packetSent p.metadata.encodedSize)

def updateConnection (cc : Controller σ) (conn : Connection σ)
    (clonedPacketIdentifier : Option ClonedPacketIdentifier) (packet : SentPacket) :
    Except Failure (Connection σ) :=
  if packet.retransmittable then
    (conn.countPacket packet).addOutstanding cc
      (packet.toOutstanding clonedPacketIdentifier (conn.ackStates packet.packetNumberSpace))
  else .ok (conn.countPacket packet)

def cloneOutstandingPacket (conn : Connection σ) (index : ℕ) (p : OutstandingPacket) :
    Connection σ × ClonedPacketIdentifier :=
  match p.maybeClonedPacketIdentifier with
  | some id => (conn,id)
  | none =>
    ({conn with outstandings :=
       {conn.outstandings.countCloned p with
         packets := conn.outstandings.packets.set index p.identified}},p.identifier)

/-- The cloning scheduler picks the packet at `index`; the copy is sent if it could be
rebuilt and written. -/
def scheduleClone (cc : Controller σ) (conn : Connection σ) (index : ℕ) (copy : Option SentPacket) :
    Except Failure (Connection σ) :=
  match conn.outstandings.packets[index]? with
  | none => .ok conn
  | some p =>
    if conn.outstandings.cloneable p &&
        copy.all fun c => !c.isDSRPacket && c.packetNumberSpace = p.packetNumberSpace then
      let cloned := conn.cloneOutstandingPacket index p
      match copy with
      | none => .ok cloned.1
      | some packet => cloned.1.updateConnection cc (some cloned.2) packet
    else .ok conn

def packetNumsIn (packets : List OutstandingPacket) (pnSpace : PacketNumberSpace) : List ℕ :=
  (packets.filter fun p => p.inSpace pnSpace).map packetNum

/-- One block from the first to the last outstanding packet of the space. -/
def implicitAck (packets : List OutstandingPacket) (pnSpace : PacketNumberSpace) : Option ReadAckFrame :=
  match (packetNumsIn packets pnSpace).min?, (packetNumsIn packets pnSpace).max? with
  | some first, some last =>
    some {largestAcked := last, implicit := true, ackBlocks := [⟨first,last⟩]}
  | _, _ => none

/-- The space of the initial or of the handshake keys. -/
def cryptoSpace (handshake : Bool) : PacketNumberSpace := if handshake then .handshake else .initial

/-- Nothing may be lost by an implicit ack: the visitor is fatal. -/
def implicitAckCryptoStream (cc : Controller σ) (conn : Connection σ) (handshake : Bool)
    (streamAlive : ℕ → Bool) (implicitAckTime nowTime : ℤ) : Except Failure (Connection σ) :=
  match implicitAck conn.outstandings.packets (cryptoSpace handshake) with
  | none => .ok conn
  | some frame =>
    Prod.fst <$> conn.processAckFrame cc (cryptoSpace handshake) frame
      (fun _ _ => .error .checkFailed) streamAlive implicitAckTime nowTime

end Connection

inductive Operation
  | send (packet : SentPacket)
  | clone (index : ℕ) (copy : Option SentPacket)
  | processAckFrame (pnSpace : PacketNumberSpace) (frame : ReadAckFrame) (streamAlive : ℕ → Bool)
      (ackReceiveTime nowTime : ℤ)
  | implicitAckCryptoStream (handshake : Bool) (streamAlive : ℕ → Bool) (implicitAckTime nowTime : ℤ)
  | detectLossPackets (pnSpace : PacketNumberSpace) (lossTime : ℤ)
  | onLossDetectionAlarm (now : ℤ)
  | markZeroRttPacketsLost (now : ℤ)
  | installOneRttWriteCipher

namespace Connection
variable {σ : Type}

def perform (cc : Controller σ) (conn : Connection σ) : Operation → Except Failure (Connection σ)
  | .send packet => conn.updateConnection cc none packet
  | .clone index copy => conn.scheduleClone cc index copy
  | .processAckFrame pnSpace frame streamAlive ackReceiveTime nowTime =>
    Prod.fst <$> conn.processAckFrame cc pnSpace frame markPacketLoss streamAlive ackReceiveTime nowTime
  | .implicitAckCryptoStream handshake streamAlive implicitAckTime nowTime =>
    conn.implicitAckCryptoStream cc handshake streamAlive implicitAckTime nowTime
  | .detectLossPackets pnSpace lossTime => do
    let r ← conn.detectLossPackets markPacketLoss lossTime pnSpace none
    r.1.tellLoss cc r.2
  | .onLossDetectionAlarm now => conn.onLossDetectionAlarm cc markPacketLoss now
  | .markZeroRttPacketsLost now => conn.markZeroRttPacketsLost cc markPacketLoss now
  | .installOneRttWriteCipher => .ok {conn with oneRttWriteCipher := true}

end Connection

lemma insertPacket_spec (p : OutstandingPacket) {l : List OutstandingPacket} (hs : SortedByPacketNum l) :
    ∃ front back,l = front++back ∧ insertPacket p l = front++p::back ∧
      (∀ q ∈ front,q.packetNum ≤ p.packetNum) ∧ ∀ q ∈ back,p.packetNum ≤ q.packetNum := by
  refine ⟨_,_,rdropWhile_append_rtakeWhile.symm,rfl,fun q hq => ?_,fun q hq => ?_⟩
  · have hfront := List.Pairwise.sublist
      ( rdropWhile_prefix (fun q => decide (p.packetNum≤q.packetNum)) l).sublist hs
    have hlast := rdropWhile_last_not (fun q => decide (p.packetNum≤q.packetNum)) l
    generalize l.rdropWhile (fun q => decide (p.packetNum≤q.packetNum)) = front at hq hfront hlast
    rcases eq_nil_or_concat front with rfl | ⟨init,last,rfl⟩
    · cases hq
    · have hlt : last.packetNum<p.packetNum := by simpa using hlast (by simp)
      rw [concat_eq_append,pairwise_append] at hfront
      rw [concat_eq_append,mem_append,mem_singleton] at hq
      rcases hq with hq | rfl
      · exact (hfront.2.2 q hq last (by simp)).trans hlt.le
      · exact hlt.le
  · simpa using mem_rtakeWhile_imp hq

lemma mem_insertPacket {p q : OutstandingPacket} {l : List OutstandingPacket} :
    q ∈ insertPacket p l ↔ q=p ∨ q ∈ l := by
  have hsplit := rdropWhile_append_rtakeWhile (p := fun r : OutstandingPacket =>
    decide (p.packetNum ≤ r.packetNum)) (l := l)
  conv_rhs => rw [← hsplit]
  simp only [insertPacket,mem_append,mem_cons]
  tauto

variable {p : OutstandingPacket}

lemma WellOrdered.insert {front back : List OutstandingPacket} (h : WellOrdered (front++back))
    (hfront : ∀ q ∈ front,q.packetNum ≤ p.packetNum) (hback : ∀ q ∈ back,p.packetNum ≤ q.packetNum)
    (hnew : ∀ q ∈ front++back,q.identifier≠p.identifier) : WellOrdered (front++p::back) := by
  rw [WellOrdered,pairwise_map] at h ⊢
  obtain ⟨h₁,h₂,h₁₂⟩ := pairwise_append.mp h
  refine pairwise_append.mpr ⟨h₁,pairwise_cons.mpr ⟨fun q hq => ?_,h₂⟩,fun q hq r hr => ?_⟩
  · exact ⟨hback q hq,(hnew q (by simp [hq])).symm⟩
  · rcases mem_cons.mp hr with rfl | hr
    · exact ⟨hfront q hq,hnew q (by simp [hq])⟩
    · exact h₁₂ q hq r hr

namespace Counted
open OutstandingCounts
variable {c : OutstandingCounts} {front back : List OutstandingPacket} {p : OutstandingPacket}

lemma sent (h : Counted 0 c (front++back)) (hlive : p.live)
    (hspace : ∀ id,p.maybeClonedPacketIdentifier = some id → id.packetNumberSpace=p.packetNumberSpace)
    (hnew : p.identifier ∉ c.clonedPacketIdentifiers) :
    Counted 0 (c.countSent p) (front++p::back) := by
  obtain ⟨hlost,hsched⟩ : p.declaredLost=false ∧ p.metadata.scheduledForDestruction=false := by
    simpa [live] using hlive
  have hin : ∀ s,(p.inSpace s = true) = (s=p.packetNumberSpace) := by
    intro s
    simp [inSpace,eq_comm]
  constructor
  case declaredLost => exact h.declaredLost.trans (by simp [hlost])
  case scheduled => exact h.scheduled.trans (by simp [hsched])
  case dsr =>
    have hcount := h.dsr
    simp only [countP_append,countP_cons,hlive,Bool.true_and] at hcount ⊢
    change c.dsrCount+_ = _
    omega
  case cloned =>
    intro s
    have hcount := h.cloned s
    simp only [countP_append,countP_cons,hlive,Bool.true_and,Bool.and_eq_true,hin] at hcount ⊢
    change c.clonedPacketCount s+_ = _
    omega
  case plain =>
    intro s
    have hcount := h.plain s
    simp only [countP_append,countP_cons,hlive,Bool.true_and,Bool.and_eq_true,hin] at hcount ⊢
    change c.packetCount s+_ = _+(c.pendingIdentifiers s).card
    omega
  case identifierSpace => exact forall_mem_insert.mpr ⟨hspace,h.identifierSpace⟩
  case identified => exact forall_mem_insert.mpr ⟨fun hmem => absurd hmem hnew,h.identified⟩

lemma cloned_first (h : Counted 0 c (front++p::back)) (hlive : p.live)
    (hnone : p.maybeClonedPacketIdentifier=none) (hordered : WellOrdered (front++p::back)) :
    Counted 0 (c.countCloned p) (front++p.identified::back) := by
  have hnew : p.identifier ∉ c.clonedPacketIdentifiers := by
    intro hmem
    have hsome := h.identified p (by simp) hmem
    rw [hnone] at hsome
    cases hsome
  have hother : ∀ q,q ∈ front ∨ q ∈ back → q.identifier≠p.identifier := by
    rw [WellOrdered,pairwise_map] at hordered
    obtain ⟨-,hback,hfront⟩ := pairwise_append.mp hordered
    rintro q (hq | hq)
    · exact (hfront q hq p (by simp)).2
    · exact ((pairwise_cons.mp hback).1 q hq).2.symm
  have hin : ∀ s,(p.inSpace s = true) = (s=p.packetNumberSpace) := by
    intro s
    simp [inSpace,eq_comm]
  have hsame : p.identified.live=p.live ∧ ∀ s,p.identified.inSpace s = p.inSpace s := ⟨rfl,fun _ => rfl⟩
  have hid : p.identified.maybeClonedPacketIdentifier = some p.identifier := rfl
  constructor
  case declaredLost => exact h.declaredLost.trans (by simp only [countP_append,countP_cons]; rfl)
  case scheduled => exact h.scheduled.trans (by simp only [countP_append,countP_cons]; rfl)
  case dsr => exact h.dsr.trans (by simp only [countP_append,countP_cons]; rfl)
  case cloned =>
    intro s
    have hcount := h.cloned s
    simp only [countP_append,countP_cons,hsame.1,hsame.2,hlive,hnone,hid,Bool.true_and,
      Option.isSome_none,Option.isSome_some,Bool.and_false,Bool.and_true,hin,Bool.false_eq_true,
      if_false] at hcount ⊢
    change c.clonedPacketCount s+_ = _
    omega
  case plain =>
    intro s
    have hcount := h.plain s
    have hcard : ((c.countCloned p).pendingIdentifiers s).card =
        (c.pendingIdentifiers s).card+if s=p.packetNumberSpace then 1 else 0 := by
      unfold pendingIdentifiers countCloned
      rw [Finset.filter_insert]
      by_cases hs : p.packetNumberSpace=s
      · rw [if_pos (show p.identifier.packetNumberSpace = s from hs),if_pos hs.symm]
        exact Finset.card_insert_of_notMem (by simp [hnew])
      · rw [if_neg (show ¬p.identifier.packetNumberSpace = s from hs),if_neg (Ne.symm hs)]
        rfl
    simp only [countP_append,countP_cons,hsame.1,hsame.2,hlive,hnone,hid,Bool.true_and,
      Option.isNone_none,Option.isNone_some,Bool.and_false,Bool.and_true,hin,Bool.false_eq_true,
      if_false] at hcount ⊢
    change c.packetCount s = _
    rw [hcard]
    omega
  case identifierSpace =>
    refine forall_mem_insert.mpr ⟨fun id hclone => ?_,(forall_mem_insert.mp h.identifierSpace).2⟩
    rw [hid] at hclone
    obtain rfl := Option.some.inj hclone
    rfl
  case identified =>
    refine forall_mem_insert.mpr ⟨fun _ => rfl,fun q hq hmem => ?_⟩
    exact (forall_mem_insert.mp h.identified).2 q hq
      (Finset.mem_of_mem_insert_of_ne hmem (hother q (mem_append.mp hq)))

end Counted

namespace Connection
variable {σ : Type} {E : Failure → Prop} {A : ℕ → Controlled σ → Prop} {cc : Controller σ}
  {conn : Connection σ}

lemma countPacket_nextPacketNum (conn : Connection σ) (packet : SentPacket) (s : PacketNumberSpace) :
    ((conn.countPacket packet).ackStates s).nextPacketNum = (conn.ackStates s).nextPacketNum +
      if s=packet.packetNumberSpace then 1 else 0 := by
  by_cases hs : s=packet.packetNumberSpace
  · subst hs
    simp [countPacket,increaseNextPacketNum]
  · simp [countPacket,hs]

lemma Sound.countPacket (h : conn.Sound A) (packet : SentPacket) : (conn.countPacket packet).Sound A where
  consistent := h.consistent
  unscheduled := h.unscheduled
  fresh p hp := by
    rw [countPacket_nextPacketNum]
    exact Nat.lt_add_right _ (h.fresh p hp)
  freshIds id hid := by
    rw [countPacket_nextPacketNum]
    exact Nat.lt_add_right _ (h.freshIds id hid)
  accounted := h.accounted

lemma ends_addOutstanding (htracks : Tracks cc E A) (h : conn.Sound A) (hlive : p.live)
    (hbuilt : p.FromScheduler)
    (hspace : ∀ id,p.maybeClonedPacketIdentifier = some id → id.packetNumberSpace=p.packetNumberSpace)
    (hids : p.identifier ∉ conn.outstandings.clonedPacketIdentifiers)
    (hnew : ∀ q ∈ conn.outstandings.packets,q.identifier≠p.identifier)
    (hfresh : p.packetNum < (conn.ackStates p.packetNumberSpace).nextPacketNum) :
    Ends (conn.addOutstanding cc p) E (Sound A) := by
  obtain ⟨front,back,hl,hinsert,hfront,hback⟩ := insertPacket_spec p h.consistent.ordered.sorted
  have hcounted := h.consistent.counted
  have hordered := h.consistent.ordered
  have hmem : ∀ q ∈ insertPacket p conn.outstandings.packets,q = p ∨ q ∈ conn.outstandings.packets :=
    fun q hq => mem_insertPacket.mp hq
  have hbytes : liveBytes (insertPacket p conn.outstandings.packets) =
      liveBytes conn.outstandings.packets+p.metadata.encodedSize.toNat := by
    rw [hinsert,hl,liveBytes_append,liveBytes_append,liveBytes_cons,if_pos hlive]
    change _+(p.metadata.encodedSize.toNat+_) = _
    omega
  refine (ends_tell (n := liveBytes conn.outstandings.packets) htracks ?_).imp ?_
  · exact h.accounted
  rintro conn' ⟨control,rfl,hA⟩
  refine ⟨⟨?consistent,?unscheduled,?accounted⟩,?fresh,?freshIds⟩
  case consistent =>
    constructor
    case counted =>
      rw [hinsert]
      exact Counted.sent (hl ▸ hcounted) hlive hspace hids
    case ordered =>
      rw [hinsert]
      exact WellOrdered.insert (hl ▸ hordered) hfront hback (hl ▸ hnew)
    case built =>
      intro q hq
      rcases hmem q hq with rfl | hq
      · exact hbuilt
      · exact h.consistent.built q hq
  case unscheduled =>
    intro q hq
    rcases hmem q hq with rfl | hq
    · simp only [live,Bool.and_eq_true,Bool.not_eq_true'] at hlive
      exact hlive.2
    · exact h.unscheduled q hq
  case fresh =>
    intro q hq
    rcases hmem q hq with rfl | hq
    · exact hfresh
    · exact h.fresh q hq
  case freshIds => exact h.freshIds
  case accounted =>
    rw [hbytes]
    exact hA

theorem ends_updateConnection (htracks : Tracks cc E A) (h : conn.Sound A)
    {clonedPacketIdentifier : Option ClonedPacketIdentifier} {packet : SentPacket}
    (hid : ∀ id,clonedPacketIdentifier = some id → id.packetNumberSpace=packet.packetNumberSpace) :
    Ends (conn.updateConnection cc clonedPacketIdentifier packet) E (Sound A) := by
  unfold updateConnection
  split_ifs
  · refine ends_addOutstanding htracks (h.countPacket packet) rfl ⟨packet.dsrKey,packet.bufMeta⟩ hid
      ?_ ?_ ?_
    · exact fun hmem => lt_irrefl _ (h.freshIds _ hmem)
    · intro q hq heq
      have hlt := h.fresh q hq
      obtain ⟨hspace,hnum⟩ := ClonedPacketIdentifier.mk.inj heq
      rw [hspace,hnum] at hlt
      exact lt_irrefl _ hlt
    · rw [countPacket_nextPacketNum,SentPacket.toOutstanding_packetNumberSpace,if_pos rfl]
      exact Nat.lt_succ_self _
  · exact h.countPacket packet

lemma cloneOutstandingPacket_origin {index : ℕ} (hp : conn.outstandings.packets[index]? = some p) :
    ∀ q ∈ (conn.cloneOutstandingPacket index p).1.outstandings.packets,
      ∃ r ∈ conn.outstandings.packets,r.Becomes q := by
  unfold cloneOutstandingPacket
  split
  · exact fun q hq => ⟨q,hq,.refl q⟩
  · intro q hq
    rcases mem_or_eq_of_mem_set hq with hq | rfl
    · exact ⟨q,hq,.refl q⟩
    · exact ⟨p,mem_of_getElem? hp,rfl,rfl,rfl,rfl,rfl,id⟩

lemma cloneOutstandingPacket_rest (conn : Connection σ) (index : ℕ) (p : OutstandingPacket) :
    (conn.cloneOutstandingPacket index p).1 =
      {conn with outstandings := (conn.cloneOutstandingPacket index p).1.outstandings} := by
  unfold cloneOutstandingPacket
  split <;> rfl

structure SendResult (clonedPacketIdentifier : Option ClonedPacketIdentifier) (packet : SentPacket)
    (conn conn' : Connection σ) : Prop where
  packets : conn'.outstandings.packets = if packet.retransmittable then
      insertPacket (packet.toOutstanding clonedPacketIdentifier
        (conn.ackStates packet.packetNumberSpace)) conn.outstandings.packets
    else conn.outstandings.packets
  ids : conn'.outstandings.clonedPacketIdentifiers=conn.outstandings.clonedPacketIdentifiers
  lossState : ∃ time,conn'.lossState = {conn.lossState with lastRetransmittablePacketSentTime := time}
  rest : conn' = {conn.countPacket packet with
    outstandings := conn'.outstandings, lossState := conn'.lossState, control := conn'.control}

lemma updateConnection_result (cc : Controller σ) (conn : Connection σ)
    (clonedPacketIdentifier : Option ClonedPacketIdentifier) (packet : SentPacket) :
    Ends (conn.updateConnection cc clonedPacketIdentifier packet) (fun _ => True)
      (SendResult clonedPacketIdentifier packet conn) := by
  unfold updateConnection
  split_ifs with hretrans
  · refine Ends.map ?_
    cases (cc _ _).toExcept with
    | error e => trivial
    | ok control => exact ⟨by rw [if_pos hretrans]; rfl,rfl,⟨_,rfl⟩,rfl⟩
  · exact ⟨by rw [if_neg hretrans]; rfl,rfl,⟨_,rfl⟩,rfl⟩

lemma sound_cloneOutstandingPacket (h : conn.Sound A) {index : ℕ}
    (hp : conn.outstandings.packets[index]? = some p) (hlost : p.declaredLost=false) :
    (conn.cloneOutstandingPacket index p).1.Sound A ∧
      (conn.cloneOutstandingPacket index p).2.packetNumberSpace = p.packetNumberSpace := by
  have hmem := mem_of_getElem? hp
  have hsched := h.unscheduled p hmem
  have hlive : p.live=true := by simp [live,hlost,hsched]
  unfold cloneOutstandingPacket
  split
  · rename_i id hid
    exact ⟨h,h.consistent.counted.identifierSpace p hmem id hid⟩
  · rename_i hnone
    refine ⟨?_,rfl⟩
    obtain ⟨hlt,hget⟩ := List.getElem?_eq_some_iff.mp hp
    have hsplit : conn.outstandings.packets = conn.outstandings.packets.take index ++
        p::conn.outstandings.packets.drop (index+1) := by
      rw [← hget,List.getElem_cons_drop,List.take_append_drop]
    have hset : conn.outstandings.packets.set index p.identified = conn.outstandings.packets.take index ++
          p.identified::conn.outstandings.packets.drop (index+1) :=
      set_eq_take_append_cons_drop .. ▸ if_pos hlt
    generalize conn.outstandings.packets.take index = front at hsplit hset
    generalize conn.outstandings.packets.drop (index+1) = back at hsplit hset
    have hcons := h.consistent
    have hA := h.accounted
    have hmem' : ∀ q ∈ front++p.identified::back,∃ r ∈ conn.outstandings.packets,r.Becomes q ∧
        q.metadata = r.metadata := by
      refine forall_mem_insert.mpr ⟨⟨p,hmem,⟨rfl,rfl,rfl,rfl,rfl,id⟩,rfl⟩,fun q hq => ⟨q,?_,.refl q,rfl⟩⟩
      rw [hsplit]
      exact (forall_mem_insert.mp fun _ hr => hr).2 q hq
    have hmap : (front++p.identified::back).map identifier = conn.outstandings.packets.map identifier := by
      rw [hsplit,map_append,map_append]
      rfl
    rw [hset]
    refine ⟨⟨?consistent,?unscheduled,?accounted⟩,?fresh,?freshIds⟩
    case consistent =>
      constructor
      case counted => exact Counted.cloned_first (hsplit ▸ hcons.counted) hlive hnone (hsplit ▸ hcons.ordered)
      case ordered => exact hcons.ordered.of_map_eq hmap
      case built =>
        intro q hq
        obtain ⟨r,hr,hbecomes,-⟩ := hmem' q hq
        exact hbecomes.built (hcons.built r hr)
    case unscheduled =>
      intro q hq
      obtain ⟨r,hr,-,hmeta⟩ := hmem' q hq
      rw [hmeta]
      exact h.unscheduled r hr
    case fresh =>
      intro q hq
      obtain ⟨r,hr,hbecomes,-⟩ := hmem' q hq
      rw [hbecomes.packetNum,packetNumberSpace,hbecomes.protectionType]
      exact h.fresh r hr
    case freshIds =>
      intro id hid
      rcases Finset.mem_insert.mp hid with rfl | hid
      · exact h.fresh p hmem
      · exact h.freshIds id hid
    case accounted =>
      rw [hsplit] at hA
      simp only [liveBytes_append,liveBytes_cons] at hA ⊢
      exact hA

theorem ends_scheduleClone (htracks : Tracks cc E A) (h : conn.Sound A) (index : ℕ)
    (copy : Option SentPacket) : Ends (conn.scheduleClone cc index copy) E (Sound A) := by
  unfold scheduleClone
  split
  · exact h
  · rename_i p hp
    split_ifs with hok
    · simp only [OutstandingCounts.cloneable,Bool.and_eq_true,Bool.not_eq_true'] at hok
      obtain ⟨hsound,hspace⟩ := sound_cloneOutstandingPacket h hp hok.1.1.1
      cases copy with
      | none => exact hsound
      | some packet =>
        refine ends_updateConnection htracks hsound fun id hid => ?_
        obtain rfl := Option.some.inj hid
        simp only [Option.all_some,Bool.and_eq_true,decide_eq_true_eq] at hok
        rw [hspace,hok.2.2]
    · exact h

lemma ackedBy_implicitAck {packets : List OutstandingPacket} {pnSpace : PacketNumberSpace}
    {frame : ReadAckFrame} (h : implicitAck packets pnSpace = some frame) :
    ∀ p ∈ packets,p.inSpace pnSpace → p.ackedBy pnSpace frame.ackBlocks := by
  intro p hp hspace
  have hmem : p.packetNum ∈ packetNumsIn packets pnSpace :=
    mem_map_of_mem (mem_filter.mpr ⟨hp,hspace⟩)
  unfold implicitAck at h
  split at h
  · rename_i first last hmin hmax
    obtain rfl := Option.some.inj h
    have hfirst := (min?_eq_some_iff.mp hmin).2 _ hmem
    have hlast := (max?_eq_some_iff.mp hmax).2 _ hmem
    simp [ackedBy,hspace,coveredBy,hfirst,hlast]
  · cases h

theorem ends_implicitAckCryptoStream (htracks : Tracks cc E A) (hE : E lostBytesOverflow)
    (hopt : E .optionalEmptyException) (h : conn.Sound A) (handshake : Bool) (streamAlive : ℕ → Bool)
    (implicitAckTime nowTime : ℤ) :
    Ends (conn.implicitAckCryptoStream cc handshake streamAlive implicitAckTime nowTime) E (Sound A) := by
  unfold implicitAckCryptoStream
  split
  · exact h
  · rename_i frame hframe
    refine Ends.map (ends_processAckFrame_sound htracks hE hopt h _ frame streamAlive implicitAckTime
      nowTime ?_)
    -- no live packet of the space is left for the fatal visitor
    intro q hq hlive hspace
    obtain ⟨p,hp,rfl⟩ := mem_map.mp hq
    unfold marked at hlive hspace
    split_ifs at hlive hspace with hacked
    · rw [schedule_live] at hlive
      cases hlive
    · exact absurd (ackedBy_implicitAck hframe p hp hspace) hacked

/-- Every operation keeps the connection sound. A `CHECK` can fail in the loss alarm only. -/
theorem ends_perform (htracks : Tracks cc E A) (hE : E lostBytesOverflow)
    (hopt : E .optionalEmptyException) (hpto : E exceededMaxPTO) (h : conn.Sound A) (op : Operation)
    (hcheck : ∀ now,op = .onLossDetectionAlarm now → E .checkFailed) :
    Ends (conn.perform cc op) E (Sound A) := by
  cases op with
  | send packet => exact ends_updateConnection htracks h nofun
  | clone index copy => exact ends_scheduleClone htracks h index copy
  | processAckFrame pnSpace frame streamAlive ackReceiveTime nowTime =>
    exact Ends.map (ends_processAckFrame_sound htracks hE hopt h pnSpace frame streamAlive ackReceiveTime
      nowTime (visitorOk_markPacketLoss _ _))
  | implicitAckCryptoStream handshake streamAlive implicitAckTime nowTime =>
    exact ends_implicitAckCryptoStream htracks hE hopt h handshake streamAlive implicitAckTime nowTime
  | detectLossPackets pnSpace lossTime =>
    exact (ends_detectLossPackets_tellLoss htracks hE h lossTime pnSpace
      (visitorOk_markPacketLoss _ _)).imp fun _ => And.left
  | onLossDetectionAlarm now =>
    exact (ends_onLossDetectionAlarm htracks hE hpto h now (fun _ _ => hcheck now rfl)
      fun s => visitorOk_markPacketLoss s _).imp fun _ => And.left
  | markZeroRttPacketsLost now =>
    exact (ends_markZeroRttPacketsLost htracks hE h now (visitorOk_markPacketLoss _ _)).imp
      fun _ hconn => hconn.1.1
  | installOneRttWriteCipher => exact h.congr rfl (fun _ => rfl) rfl

lemma Sound.of_empty (hempty : conn.outstandings = {}) (hA : A 0 conn.control) : conn.Sound A := by
  refine ⟨⟨?consistent,?unscheduled,?accounted⟩,?fresh,?freshIds⟩
  case consistent => exact hempty ▸ ⟨Counted.empty,List.Pairwise.nil,by simp⟩
  case unscheduled => simp [hempty]
  case fresh => simp [hempty]
  case freshIds => simp [hempty]
  case accounted => rwa [hempty]

theorem ends_runFallible_perform (htracks : Tracks cc E A) (hE : E lostBytesOverflow)
    (hopt : E .optionalEmptyException) (hpto : E exceededMaxPTO) (hempty : conn.outstandings = {})
    (hA : A 0 conn.control) (ops : List Operation)
    (hcheck : ∀ now,Operation.onLossDetectionAlarm now ∈ ops → E .checkFailed) :
    Ends (runFallible (perform cc) conn ops) E (Sound A) := by
  refine ends_runFallible (Sound.of_empty hempty hA) fun conn' h op hop => ?_
  refine ends_perform htracks hE hopt hpto h op fun now hnow => hcheck now ?_
  rwa [← hnow]

end Connection

end QuicWestwood
