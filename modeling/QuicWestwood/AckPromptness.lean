import QuicWestwood.Run

/-! `updateAckSendStateOnRecvPacket` counts the packets received since the last acknowledgement, those with
retransmittable data in eight bits, and compares the sum with a threshold that is held in eight bits as well. -/
namespace QuicWestwood
open Run

def kNonRtxRxPacketsPendingBeforeAck : ℕ := 20

/-- The fields of `TransportSettings` that choose the threshold without a tolerance of the peer. -/
structure AckThresholds where
  rxPacketsBeforeAckInitThreshold : ℕ := 100
  rxPacketsBeforeAckBeforeInit : ℕ := 10
  rxPacketsBeforeAckAfterInit : ℕ := 10

/-- The fields of `AckState` that decide when an acknowledgement is sent, with the pending event of the connection. -/
structure AckSendState where
  largestRecvdPacketNum : Option ℕ := none
  reorderThreshold : ℕ := 0
  tolerance : Option ℕ := none
  needsToSendAckImmediately : Bool := false
  numRxPacketsRecvd : ℕ := 0
  numNonRxPacketsRecvd : ℕ := 0
  scheduleAckTimeout : Bool := false

structure RecvdPacket where
  distanceFromExpectedPacketNum : ℕ := 0
  pktHasRetransmittableData : Bool
  pktHasCryptoData : Bool := false
  initPktNumSpace : Bool := false

/-- A packet that arrives as expected and has no crypto data. -/
def RecvdPacket.InOrder (p : RecvdPacket) : Prop := p.distanceFromExpectedPacketNum = 0 ∧ p.pktHasCryptoData=false

namespace AckSendState

/-- The variable takes its type from `kNonRtxRxPacketsPendingBeforeAck`, so what is assigned to it loses all but
eight bits. -/
def thresh (settings : AckThresholds) (s : AckSendState) (pktHasRetransmittableData : Bool) : ℕ :=
  if pktHasRetransmittableData || s.numRxPacketsRecvd != 0 then
    (match s.tolerance with
      | some tolerance => tolerance
      | none =>
        if settings.rxPacketsBeforeAckInitThreshold < s.largestRecvdPacketNum.getD 0 then
          settings.rxPacketsBeforeAckAfterInit
        else settings.rxPacketsBeforeAckBeforeInit) % 2^8
  else kNonRtxRxPacketsPendingBeforeAck

def ackImmediately (s : AckSendState) : AckSendState :=
  {s with scheduleAckTimeout := false, needsToSendAckImmediately := true}

/-- The packet with retransmittable data is only counted if neither crypto data nor reordering decides. -/
def updateAckSendStateOnRecvPacket (settings : AckThresholds) (isServer : Bool) (s : AckSendState)
    (p : RecvdPacket) : AckSendState :=
  let thresh := s.thresh settings p.pktHasRetransmittableData
  let exceedsReorderThreshold := s.reorderThreshold < p.distanceFromExpectedPacketNum
  let s :=
    if p.pktHasRetransmittableData then
      let skipCryptoAck := isServer && p.initPktNumSpace
      if (p.pktHasCryptoData && !skipCryptoAck) || exceedsReorderThreshold then s.ackImmediately
      else
        let s := {s with numRxPacketsRecvd := (s.numRxPacketsRecvd+1) % 2^8}
        if thresh ≤ (s.numRxPacketsRecvd+s.numNonRxPacketsRecvd) % 2^64 then s.ackImmediately
        else if !s.needsToSendAckImmediately then {s with scheduleAckTimeout := true}
        else s
    else
      let s := {s with numNonRxPacketsRecvd := (s.numNonRxPacketsRecvd+1) % 2^64}
      if thresh ≤ (s.numNonRxPacketsRecvd+s.numRxPacketsRecvd) % 2^64 then s.ackImmediately else s
  if s.needsToSendAckImmediately then {s with numRxPacketsRecvd := 0, numNonRxPacketsRecvd := 0} else s

/-- No acknowledgement is due: the counters have not wrapped around, and the threshold that applies is not reached. -/
structure Waiting (n : ℕ) (s : AckSendState) (pkts : List RecvdPacket) : Prop where
  notDue : s.needsToSendAckImmediately=false
  rx : s.numRxPacketsRecvd = pkts.countP (·.pktHasRetransmittableData)
  all : s.numRxPacketsRecvd+s.numNonRxPacketsRecvd = pkts.length
  below : if s.numRxPacketsRecvd=0 then pkts.length < kNonRtxRxPacketsPendingBeforeAck else pkts.length < n % 2^8
  timeout : s.numRxPacketsRecvd≠0 → s.scheduleAckTimeout=true

def Counted (n : ℕ) (s : AckSendState) (pkts : List RecvdPacket) : Prop :=
  s.tolerance = some n ∧ (s.needsToSendAckImmediately=true ∨ s.Waiting n pkts)

variable {n : ℕ} {s : AckSendState} {pkts : List RecvdPacket} {p : RecvdPacket}

section
variable (settings : AckThresholds)

lemma thresh_of_tolerance (h : s.tolerance = some n) (rx : Bool) :
    s.thresh settings rx =
      if rx=true ∨ s.numRxPacketsRecvd≠0 then n % 2^8 else kNonRtxRxPacketsPendingBeforeAck := by
  simp [thresh,h]

lemma updateAckSendStateOnRecvPacket_due (isServer : Bool) (p : RecvdPacket)
    (h : s.needsToSendAckImmediately=true) :
    (updateAckSendStateOnRecvPacket settings isServer s p).needsToSendAckImmediately = true := by
  unfold updateAckSendStateOnRecvPacket
  dsimp only
  split_ifs <;> simp_all [ackImmediately]

lemma updateAckSendStateOnRecvPacket_tolerance (isServer : Bool) (s : AckSendState)
    (p : RecvdPacket) : (updateAckSendStateOnRecvPacket settings isServer s p).tolerance = s.tolerance := by
  unfold updateAckSendStateOnRecvPacket
  dsimp only
  split_ifs <;> rfl

lemma updateAckSendStateOnRecvPacket_waiting (isServer : Bool)
    (hnotDue : s.needsToSendAckImmediately=false) (hp : p.InOrder) :
    updateAckSendStateOnRecvPacket settings isServer s p =
      let rx := if p.pktHasRetransmittableData then (s.numRxPacketsRecvd+1) % 2^8 else s.numRxPacketsRecvd
      let nonRx := if p.pktHasRetransmittableData then s.numNonRxPacketsRecvd else (s.numNonRxPacketsRecvd+1) % 2^64
      if s.thresh settings p.pktHasRetransmittableData ≤ (rx+nonRx) % 2^64 then
        {s.ackImmediately with numRxPacketsRecvd := 0, numNonRxPacketsRecvd := 0}
      else
        {s with
          numRxPacketsRecvd := rx
          numNonRxPacketsRecvd := nonRx
          scheduleAckTimeout := p.pktHasRetransmittableData || s.scheduleAckTimeout} := by
  unfold updateAckSendStateOnRecvPacket ackImmediately
  cases hdata : p.pktHasRetransmittableData with
  | true =>
    simp only [hp.1,hp.2,hnotDue,Nat.not_lt_zero]
    split_ifs <;> simp_all
  | false =>
    have hcomm := Nat.add_comm ((s.numNonRxPacketsRecvd+1) % 2^64) s.numRxPacketsRecvd
    simp only [hnotDue,hcomm]
    split_ifs <;> simp_all

lemma Waiting.updateAckSendStateOnRecvPacket (isServer : Bool)
    (htolerance : s.tolerance = some n) (h : s.Waiting n pkts) (hp : p.InOrder) :
    (updateAckSendStateOnRecvPacket settings isServer s p).needsToSendAckImmediately = true ∨
      (updateAckSendStateOnRecvPacket settings isServer s p).Waiting n (pkts++[p]) := by
  obtain ⟨hnotDue,hrx,hall,hbelow,htimeout⟩ := h
  have hsmall : s.numRxPacketsRecvd+s.numNonRxPacketsRecvd < 2^8-1 := by
    simp only [kNonRtxRxPacketsPendingBeforeAck] at hbelow
    split_ifs at hbelow <;> omega
  rw [updateAckSendStateOnRecvPacket_waiting settings isServer hnotDue hp,thresh_of_tolerance settings htolerance]
  cases hdata : p.pktHasRetransmittableData with
  | true =>
    have hcount : (s.numRxPacketsRecvd+1) % 2^8 = s.numRxPacketsRecvd+1 := by omega
    simp only [if_true,true_or,hcount]
    split_ifs with hdue
    · exact .inl rfl
    · refine .inr ⟨hnotDue,by simp [hdata,hrx],by simp; omega,?_,fun _ => rfl⟩
      rw [if_neg (Nat.succ_ne_zero _),List.length_append,List.length_singleton]
      omega
  | false =>
    have hcount : (s.numNonRxPacketsRecvd+1) % 2^64 = s.numNonRxPacketsRecvd+1 := by omega
    simp only [Bool.false_eq_true,if_false,false_or,hcount]
    by_cases hdue : (if s.numRxPacketsRecvd≠0 then n % 2^8 else kNonRtxRxPacketsPendingBeforeAck) ≤
        (s.numRxPacketsRecvd+(s.numNonRxPacketsRecvd+1)) % 2^64
    · rw [if_pos hdue]
      exact .inl rfl
    · rw [if_neg hdue]
      refine .inr ⟨hnotDue,by simp [hdata,hrx],by simp; omega,?_,htimeout⟩
      simp only [List.length_append,List.length_singleton]
      split_ifs at hdue ⊢ <;> omega

lemma counted_run (isServer : Bool) (h : s.Counted n []) (hpkts : ∀ p ∈ pkts,p.InOrder) :
    (run (updateAckSendStateOnRecvPacket settings isServer) s pkts).Counted n pkts := by
  induction pkts using List.reverseRecOn with
  | nil => exact h
  | append_singleton pkts p ih =>
    obtain ⟨htolerance,hstate⟩ := ih fun q hq => hpkts q (by simp [hq])
    rw [run_append]
    refine ⟨(updateAckSendStateOnRecvPacket_tolerance settings isServer _ p).trans htolerance,?_⟩
    rcases hstate with hdue | hwaiting
    · exact .inl (updateAckSendStateOnRecvPacket_due settings isServer p hdue)
    · exact hwaiting.updateAckSendStateOnRecvPacket settings isServer htolerance (hpkts p (by simp))

end

/-- With a tolerance of the peer, packets that arrive in order after an acknowledgement make the next one due as soon as
there are as many as the tolerance, one of them with retransmittable data; until then the timeout is scheduled. -/
theorem ack_due_by_tolerance (settings : AckThresholds) (isServer : Bool) (s : AckSendState) (n : ℕ)
    (htolerance : s.tolerance = some n) (hcounters : s.numRxPacketsRecvd=0 ∧ s.numNonRxPacketsRecvd=0)
    (pkts : List RecvdPacket) (hpkts : ∀ p ∈ pkts,p.InOrder) (hdata : ∃ p ∈ pkts,p.pktHasRetransmittableData=true) :
    let s' := run (updateAckSendStateOnRecvPacket settings isServer) s pkts
    (n≤pkts.length → s'.needsToSendAckImmediately=true) ∧
      (s'.needsToSendAckImmediately=false → s'.scheduleAckTimeout=true) := by
  have hstart : s.Counted n [] := by
    refine ⟨htolerance,?_⟩
    cases hdue : s.needsToSendAckImmediately with
    | true => exact .inl rfl
    | false =>
      right
      constructor <;> simp [hdue,hcounters,kNonRtxRxPacketsPendingBeforeAck]
  obtain ⟨-,hstate⟩ := counted_run settings isServer hstart hpkts
  intro s'
  rcases hstate with hdue | hwaiting
  · exact ⟨fun _ => hdue,fun hnot => absurd hdue (by simp [s',hnot])⟩
  · have hrx : s'.numRxPacketsRecvd≠0 := by
      rw [hwaiting.rx]
      exact (List.countP_pos_iff.mpr hdata).ne'
    have hbelow := hwaiting.below
    rw [if_neg hrx] at hbelow
    have hmod := Nat.mod_le n (2^8)
    exact ⟨fun _ => by omega,fun _ => hwaiting.timeout hrx⟩

theorem ack_due_by_tolerance_two :
    (run (updateAckSendStateOnRecvPacket {} true) {tolerance := some 2}
      [⟨0,false,false,false⟩,⟨0,true,false,false⟩]).needsToSendAckImmediately = true :=
  (ack_due_by_tolerance {} true {tolerance := some 2} 2 rfl ⟨rfl,rfl⟩ _ (by simp [RecvdPacket.InOrder])
    ⟨_,List.mem_cons_of_mem _ (List.mem_singleton_self _),rfl⟩).1 (by decide)

end QuicWestwood.AckSendState
