import Mathlib

/-! Times are nanosecond counts of the steady clock, durations are microseconds, and packet numbers and byte
counters are natural numbers with their reduction written out where the code can wrap. Metadata that no modelled
function reads is left out. -/
namespace QuicWestwood

/-- Conversion of a signed value to `uint64_t`. -/
def u64 (z : ℤ) : ℕ := (z % 2^64).toNat

lemma u64_of_nonneg {z : ℤ} (h : 0≤z) (hz : z < 2^64) : (u64 z : ℤ) = z := by
  unfold u64
  rw [Int.emod_eq_of_lt h hz,Int.toNat_of_nonneg h]

/-- `uint64_t` subtraction. -/
def subU64 (a b : ℕ) : ℕ := u64 (a-b)

lemma subU64_of_le {a b : ℕ} (h : b≤a) (ha : a < 2^64) : subU64 a b = a-b := by
  have hz : ((a : ℤ)-b) = ((a-b : ℕ) : ℤ) := by omega
  have := u64_of_nonneg (z := (a : ℤ)-b) (by omega) (by omega)
  unfold subU64
  omega

lemma subU64_of_lt {a b : ℕ} (h : a<b) (hb : b < 2^64) : subU64 a b = a+2^64-b := by
  unfold subU64 u64
  omega

inductive PacketNumberSpace
  | initial
  | handshake
  | appData
  deriving DecidableEq

inductive ProtectionType
  | initial
  | handshake
  | zeroRtt
  | keyPhaseZero
  | keyPhaseOne
  deriving DecidableEq

def protectionTypeToPacketNumberSpace : ProtectionType → PacketNumberSpace
  | .initial => .initial
  | .handshake => .handshake
  | .zeroRtt => .appData
  | .keyPhaseZero => .appData
  | .keyPhaseOne => .appData

inductive LocalErrorCode
  | cwndOverflow
  | lostBytesOverflow
  | connectionAbandoned
  | internalError
  | creatingExistingStream
  | streamLimitExceeded
  | packetNumberEncoding
  deriving DecidableEq

inductive TransportErrorCode
  | internalError
  | flowControlError
  | streamLimitError
  | streamStateError
  | finalSizeError
  | frameEncodingError
  | transportParameterError
  deriving DecidableEq

inductive FrameType
  | ack
  | ackEcn
  | ackReceiveTimestamps
  deriving DecidableEq

structure QuicTransportException where
  message : String
  code : TransportErrorCode
  frameType : Option FrameType := none
  deriving DecidableEq

/-- The ways in which a modelled call can end other than by returning. -/
inductive Failure
  | quicInternalException (message : String) (code : LocalErrorCode)
  | quicTransportException (exception : QuicTransportException)
  | optionalEmptyException
  | divisionByZero
  | lengthError
  | invalidArgument
  | checkFailed
  deriving DecidableEq

/-- `CHECK(condition)` -/
def check (condition : Bool) : Except Failure Unit :=
  if condition then .ok () else .error .checkFailed

@[simp] lemma check_true : check true = .ok () := rfl

structure WriteStreamFrame where
  streamId : ℕ
  offset : ℕ
  len : ℕ
  fin : Bool
  fromBufMeta : Bool := false
  streamPacketIdx : ℕ := 0
  deriving DecidableEq

inductive QuicWriteFrame
  | paddingFrame
  | rstStreamFrame
  | connectionCloseFrame
  | maxDataFrame
  | maxStreamDataFrame
  | dataBlockedFrame
  | streamDataBlockedFrame
  | streamsBlockedFrame
  | writeAckFrame
  | writeStreamFrame (frame : WriteStreamFrame)
  | writeCryptoFrame
  | quicSimpleFrame
  | pingFrame
  | noopFrame
  | datagramFrame
  | immediateAckFrame
  deriving DecidableEq

structure ClonedPacketIdentifier where
  packetNumberSpace : PacketNumberSpace
  packetNumber : ℕ
  deriving DecidableEq

/-- The sizes are 16-bit fields: a larger size handed to the constructor is truncated. -/
structure OutstandingPacketMetadata where
  time : ℤ
  encodedSize : UInt16
  scheduledForDestruction : Bool := false
  lossTimeoutDividend : Option ℤ := none
  lossReorderDistance : Option UInt16 := none
  deriving DecidableEq

structure OutstandingPacket where
  packetNum : ℕ
  protectionType : ProtectionType
  frames : List QuicWriteFrame
  metadata : OutstandingPacketMetadata
  maybeClonedPacketIdentifier : Option ClonedPacketIdentifier := none
  nonDsrPacketSequenceNumber : Option ℕ := none
  isDSRPacket : Bool := false
  declaredLost : Bool := false
  deriving DecidableEq

namespace OutstandingPacket

def packetNumberSpace (p : OutstandingPacket) : PacketNumberSpace :=
  protectionTypeToPacketNumberSpace p.protectionType

def size (p : OutstandingPacket) : ℕ := p.metadata.encodedSize.toNat

end OutstandingPacket

structure AckPacket where
  packetNum : ℕ
  nonDsrPacketSequenceNumber : ℕ := 0
  outstandingPacketMetadata : OutstandingPacketMetadata
  detailsPerStream : List (ℕ × Option ℕ) := []
  receiveRelativeTimeStampUsec : Option ℤ := none
  deriving DecidableEq

namespace AckPacket

def time (p : AckPacket) : ℤ := p.outstandingPacketMetadata.time

def size (p : AckPacket) : ℕ := p.outstandingPacketMetadata.encodedSize.toNat

lemma size_lt (p : AckPacket) : p.size < 2^16 :=
  p.outstandingPacketMetadata.encodedSize.toNat_lt

end AckPacket

structure AckEvent where
  ackTime : ℤ
  largestAckedPacket : ℕ := 0
  ackedBytes : ℕ := 0
  largestNewlyAckedPacket : Option ℕ := none
  rttSample : Option ℤ := none
  implicit : Bool := false
  ackedPackets : List AckPacket := []
  deriving DecidableEq

structure LossEvent where
  largestLostPacketNum : Option ℕ := none
  lostPacketNumbers : List ℕ := []
  lostBytes : ℕ := 0
  lostPackets : ℕ := 0
  lossTime : ℤ
  largestLostSentTime : Option ℤ := none
  smallestLostSentTime : Option ℤ := none
  persistentCongestion : Bool := false
  deriving DecidableEq

namespace LossEvent

def addLostPacket (e : LossEvent) (p : OutstandingPacket) : Except Failure LossEvent :=
  if 2^64-1-e.lostBytes < p.size then
    .error (.quicInternalException "LossEvent: lostBytes overflow" .lostBytesOverflow)
  else
    .ok {e with
      largestLostPacketNum := some (max p.packetNum (e.largestLostPacketNum.getD p.packetNum))
      lostPacketNumbers := e.lostPacketNumbers++[p.packetNum]
      lostBytes := e.lostBytes+p.size
      lostPackets := (e.lostPackets+1) % 2^32
      largestLostSentTime :=
        some (max p.metadata.time (e.largestLostSentTime.getD p.metadata.time))
      smallestLostSentTime :=
        some (min p.metadata.time (e.smallestLostSentTime.getD p.metadata.time))}

def addLostPackets (e : LossEvent) : List OutstandingPacket → Except Failure LossEvent
  | [] => .ok e
  | p::ps =>
    match e.addLostPacket p with
    | .error f => .error f
    | .ok e' => e'.addLostPackets ps

lemma addLostPacket_ok {e e' : LossEvent} {p : OutstandingPacket}
    (h : e.addLostPacket p = .ok e') :
    e'.lostBytes = e.lostBytes+p.size ∧ e'.largestLostPacketNum.isSome ∧
      e'.lossTime = e.lossTime ∧ e'.persistentCongestion=e.persistentCongestion ∧
      ∃ t,e'.largestLostSentTime = some t ∧
        (t=p.metadata.time ∨ e.largestLostSentTime = some t) ∧ p.metadata.time≤t ∧
        ∀ u,e.largestLostSentTime = some u → u≤t := by
  unfold addLostPacket at h
  split_ifs at h
  obtain rfl := Except.ok.inj h
  refine ⟨rfl,rfl,rfl,rfl,_,rfl,?_,le_max_left _ _,?_⟩
  · cases hl : e.largestLostSentTime with
    | none => left; simp
    | some u => rcases max_choice p.metadata.time u with h | h <;> simp [h]
  · intro u hu
    simp [hu]

theorem addLostPackets_sentTime {e e' : LossEvent} {ps : List OutstandingPacket}
    (h : e.addLostPackets ps = .ok e') (hne : ps≠[]) :
    ∃ t,e'.largestLostSentTime = some t ∧ ((∃ p ∈ ps,p.metadata.time=t) ∨ e.largestLostSentTime = some t) ∧
      (∀ p ∈ ps,p.metadata.time ≤ t) ∧ ∀ u,e.largestLostSentTime = some u → u≤t := by
  induction ps generalizing e with
  | nil => exact absurd rfl hne
  | cons p ps ih =>
    simp only [addLostPackets] at h
    split at h
    · cases h
    · rename_i e₁ he₁
      obtain ⟨-,-,-,-,t₁,ht₁,hwho,hge,hbound⟩ := addLostPacket_ok he₁
      cases ps with
      | nil =>
        obtain rfl := Except.ok.inj h
        refine ⟨t₁,ht₁,?_,by simpa using hge,hbound⟩
        exact hwho.imp (fun h => ⟨p,by simp,h.symm⟩) id
      | cons q qs =>
        obtain ⟨t,ht,hsrc,hall,hup⟩ := ih h (by simp)
        have h₁ : t₁≤t := hup t₁ ht₁
        refine ⟨t,ht,?_,?_,fun u hu => (hbound u hu).trans h₁⟩
        · rcases hsrc with ⟨r,hr,hrt⟩ | hsrc
          · exact .inl ⟨r,by simp [hr],hrt⟩
          · obtain rfl : t₁=t := Option.some.inj (ht₁.symm.trans hsrc)
            exact hwho.imp (fun h => ⟨p,by simp,h.symm⟩) id
        · intro r hr
          rcases List.mem_cons.mp hr with rfl | hr
          · exact hge.trans h₁
          · exact hall r hr

def MadeOf (e : LossEvent) (ps : List OutstandingPacket) : Prop :=
  ∃ built,({lossTime := e.lossTime} : LossEvent).addLostPackets ps = .ok built ∧
    e = {built with persistentCongestion := e.persistentCongestion}

lemma MadeOf.exists_sent {e : LossEvent} {ps : List OutstandingPacket} (h : e.MadeOf ps) {t : ℤ}
    (ht : e.largestLostSentTime = some t) : ∃ p ∈ ps,p.metadata.time=t := by
  obtain ⟨built,hb,he⟩ := h
  have hlargest : built.largestLostSentTime = some t := by rw [← ht,he]
  have hne : ps≠[] := by
    rintro rfl
    obtain rfl := Except.ok.inj hb
    cases hlargest
  obtain ⟨u,hu,hsrc | hbase,-⟩ := addLostPackets_sentTime hb hne
  · obtain rfl := Option.some.inj (hu.symm.trans hlargest)
    exact hsrc
  · cases hbase

end LossEvent

end QuicWestwood
