import QuicWestwood.ConnectionRun

/-! The event of `processAckFrame` lists exactly the live packets that the blocks cover, and the list of
outstanding packets loses exactly the covered packets of the space and old lost ones, whatever the spaces of the
packets between them. -/
namespace QuicWestwood
open OutstandingPacket List

def ReadAckFrame.covers (frame : ReadAckFrame) (p : OutstandingPacket) : Bool :=
  frame.ackBlocks.any fun b => b.startPacket ≤ p.packetNum ∧ p.packetNum≤b.endPacket

structure ReadAckFrame.Descending (frame : ReadAckFrame) : Prop where
  valid : ∀ b ∈ frame.ackBlocks,b.startPacket ≤ b.endPacket
  disjoint : frame.ackBlocks.Pairwise fun b c => c.endPacket < b.startPacket

namespace Connection
variable {σ : Type} {pnSpace : PacketNumberSpace} {frame : ReadAckFrame}

lemma ackedBy_eq_covers (hframe : frame.Descending) (p : OutstandingPacket) :
    p.ackedBy pnSpace frame.ackBlocks = (p.inSpace pnSpace && frame.covers p) := by
  rw [ackedBy,coveredBy_eq_any hframe.valid hframe.disjoint,ReadAckFrame.covers]

lemma filter_newlyAcked_marked {packets : List OutstandingPacket} {blocks : List AckBlock}
    (hunscheduled : ∀ p ∈ packets,p.metadata.scheduledForDestruction = false) :
    (packets.map (marked pnSpace blocks)).filter newlyAcked =
      (packets.filter fun p => p.live && p.ackedBy pnSpace blocks).map schedule := by
  induction packets with
  | nil => rfl
  | cons p ps ih =>
    have hp := hunscheduled p mem_cons_self
    rw [map_cons,filter_cons,filter_cons,ih fun q hq =>
      hunscheduled q (mem_cons_of_mem _ hq)]
    cases hacked : p.ackedBy pnSpace blocks with
    | false => simp [marked,hacked,newlyAcked,hp]
    | true =>
      cases hlost : p.declaredLost <;>
        simp [marked,hacked,newlyAcked,live,hp,hlost,schedule]

lemma filter_marked {packets : List OutstandingPacket} {blocks : List AckBlock}
    {f : OutstandingPacket → Bool}
    (hf : ∀ p,p.ackedBy pnSpace blocks → f p = false ∧ f p.schedule = false) :
    (packets.map (marked pnSpace blocks)).filter f = packets.filter f := by
  induction packets with
  | nil => rfl
  | cons p ps ih =>
    rw [map_cons,filter_cons,filter_cons,ih,marked]
    cases hacked : p.ackedBy pnSpace blocks with
    | false => rfl
    | true => simp [(hf p hacked).1,(hf p hacked).2]

lemma liveBytes_marked (pnSpace : PacketNumberSpace) (packets : List OutstandingPacket) (blocks : List AckBlock) :
    liveBytes packets = liveBytes (packets.map (marked pnSpace blocks)) +
      ((packets.filter fun p => p.live && p.ackedBy pnSpace blocks).map size).sum := by
  induction packets with
  | nil => rfl
  | cons p ps ih =>
    rw [map_cons,liveBytes_cons,liveBytes_cons,ih,filter_cons]
    cases hacked : p.ackedBy pnSpace blocks with
    | false =>
      simp only [marked,hacked,Bool.false_eq_true,if_false,Bool.and_false]
      omega
    | true =>
      simp only [marked,hacked,if_true,schedule_live,Bool.false_eq_true,if_false,Bool.and_true]
      cases p.live with
      | false => simp
      | true =>
        simp only [if_true,map_cons,sum_cons]
        omega

lemma pairwise_lt_of_inSpace {s : PacketNumberSpace} {l : List OutstandingPacket} (h : WellOrdered l)
    (hspace : ∀ p ∈ l,p.inSpace s) : (l.map packetNum).Pairwise (· < ·) := by
  rw [WellOrdered,pairwise_map] at h
  rw [pairwise_map]
  refine h.imp_of_mem fun {p q} hp hq hpq => lt_of_le_of_ne hpq.1 fun heq => hpq.2 ?_
  have hps := hspace p hp
  have hqs := hspace q hq
  simp only [inSpace,decide_eq_true_eq] at hps hqs
  exact congrArg₂ ClonedPacketIdentifier.mk (hps.trans hqs.symm) heq

/-- What `processAckFrame` must have done with a frame of `pnSpace`. -/
structure AppliesExactly (pnSpace : PacketNumberSpace) (frame : ReadAckFrame) (ackReceiveTime : ℤ)
    (conn conn' : Connection σ) (ack : AckEvent) : Prop where
  /-- the event lists the covered live packets of the space, one by one and in their order -/
  listed : List.Forall₂ (fun p a => a.packetNum = p.packetNum ∧
      a.nonDsrPacketSequenceNumber = p.nonDsrPacketSequenceNumber.getD 0 ∧
      a.outstandingPacketMetadata = p.schedule.metadata)
    (conn.outstandings.packets.filter fun p => p.live && p.inSpace pnSpace && frame.covers p)
    ack.ackedPackets
  ascending : (ack.ackedPackets.map AckPacket.packetNum).Pairwise (· < ·)
  bytes : ack.ackedBytes = ((conn.outstandings.packets.filter fun p =>
    p.live && p.inSpace pnSpace && frame.covers p).map size).sum
  gone : ∀ q ∈ conn'.outstandings.packets,¬(q.inSpace pnSpace ∧ frame.covers q)
  /-- the others stay, each as the loss detection has judged it, but for old lost ones -/
  stay : ∃ judged,List.Forall₂ (Judged pnSpace)
      (conn.outstandings.packets.filter fun p => !(p.inSpace pnSpace && frame.covers p)) judged ∧
    conn'.outstandings.packets.Sublist judged ∧ ∀ q ∈ judged,q ∉ conn'.outstandings.packets →
      q.inSpace pnSpace ∧ q.declaredLost ∧
        1000*conn'.lossState.calculatePTO conn'.transportSettings < ackReceiveTime-q.metadata.time
  otherSpaces : (conn'.outstandings.packets.filter fun p => !p.inSpace pnSpace) =
    conn.outstandings.packets.filter fun p => !p.inSpace pnSpace
  sorted : SortedByPacketNum conn'.outstandings.packets

namespace AckResult
variable {lossVisitor : LossVisitor} {ackReceiveTime : ℤ} {conn conn' : Connection σ} {ack : AckEvent}
  (h : AckResult lossVisitor pnSpace frame ackReceiveTime conn conn' ack)
  (hunscheduled : ∀ p ∈ conn.outstandings.packets,p.metadata.scheduledForDestruction = false)
include h

include hunscheduled in
lemma listed : List.Forall₂ (fun p a => a.packetNum = p.packetNum ∧
      a.nonDsrPacketSequenceNumber = p.nonDsrPacketSequenceNumber.getD 0 ∧
      a.outstandingPacketMetadata = p.schedule.metadata)
    (conn.outstandings.packets.filter fun p => p.live && p.ackedBy pnSpace frame.ackBlocks)
    ack.ackedPackets := by
  obtain ⟨conn₀,conn₁,lossEvent,hstage,-⟩ := h.stages
  have hacked := hstage.acked
  rw [hstage.packets,filter_newlyAcked_marked hunscheduled] at hacked
  exact forall₂_map_left_iff.mp hacked

lemma ackedBytes_eq : ack.ackedBytes = ((conn.outstandings.packets.filter fun p =>
    p.live && p.ackedBy pnSpace frame.ackBlocks).map size).sum := by
  obtain ⟨conn₀,conn₁,lossEvent,hstage,-⟩ := h.stages
  have hbytes := hstage.ackedBytes
  rw [hstage.packets,liveBytes_marked pnSpace conn.outstandings.packets frame.ackBlocks] at hbytes
  exact Nat.add_left_cancel hbytes

lemma not_ackedBy : ∀ q ∈ conn'.outstandings.packets,q.ackedBy pnSpace frame.ackBlocks = false := by
  obtain ⟨conn₀,conn₁,lossEvent,-,-,-,-,hforgot⟩ := h.stages
  obtain ⟨l,-,hl⟩ := hforgot.packets
  intro q hq
  rw [hl] at hq
  simpa using (mem_filter.mp hq).2

lemma packets_eq : ∃ judged,
    List.Forall₂ (Judged pnSpace)
      (conn.outstandings.packets.filter fun p => !p.ackedBy pnSpace frame.ackBlocks) judged ∧
    Cleared (oldLost ackReceiveTime (conn'.lossState.calculatePTO conn'.transportSettings) pnSpace)
      judged conn'.outstandings.packets := by
  obtain ⟨conn₀,conn₁,lossEvent,hstage,-,hloss,-,hforgot⟩ := h.stages
  have hstep := hstage.ackStep hloss
  obtain ⟨l,hcleared,hl⟩ := hforgot.packets
  have hjudged := rel_filter (p := fun p => !p.ackedBy pnSpace frame.ackBlocks)
    (q := fun p => !p.ackedBy pnSpace frame.ackBlocks)
    (fun p q hpq => by simp only [ackedBy_of_becomes hpq.becomes]) hstep.judged
  rw [filter_marked fun p hp => ⟨by simp [hp],by
    simpa using (show p.schedule.ackedBy pnSpace frame.ackBlocks = true from hp)⟩] at hjudged
  refine ⟨_,hjudged,?_⟩
  rw [hl]
  exact hcleared.filter _

lemma otherSpaces : (conn'.outstandings.packets.filter fun p => !p.inSpace pnSpace) =
    conn.outstandings.packets.filter fun p => !p.inSpace pnSpace := by
  obtain ⟨judged,hjudged,hcleared⟩ := h.packets_eq
  have hother := rel_filter (p := fun p => !p.inSpace pnSpace) (q := fun p => !p.inSpace pnSpace)
    (fun p q hpq => by simp only [inSpace_of_becomes hpq.becomes]) hjudged
  have heq : List.Forall₂ Eq _ _ :=
    ((forall₂_and_left _ _).mpr ⟨fun p hp => (mem_filter.mp hp).2,hother⟩).imp fun p q hpq => by
      obtain ⟨hspace,rfl | ⟨-,hin,-⟩⟩ := hpq
      · rfl
      · rw [hin] at hspace
        cases hspace
  rw [forall₂_eq_eq_eq] at heq
  rw [hcleared.kept _ fun p hp => by
      simp only [oldLost,Bool.and_eq_true] at hp
      simpa using hp.1.1.1,← heq,filter_filter]
  refine filter_congr fun p _ => ?_
  cases hspace : p.inSpace pnSpace <;> simp [ackedBy,hspace]

end AckResult

lemma AckResult.appliesExactly {lossVisitor : LossVisitor} {ackReceiveTime : ℤ} {conn conn' : Connection σ} {ack : AckEvent}
    (h : AckResult lossVisitor pnSpace frame ackReceiveTime conn conn' ack)
    (hordered : WellOrdered conn.outstandings.packets) (hordered' : WellOrdered conn'.outstandings.packets)
    (hunscheduled : ∀ p ∈ conn.outstandings.packets,p.metadata.scheduledForDestruction = false)
    (hframe : frame.Descending) : AppliesExactly pnSpace frame ackReceiveTime conn conn' ack := by
  have hacked := h.listed hunscheduled
  have hbytes := h.ackedBytes_eq
  have hgone := h.not_ackedBy
  obtain ⟨judged,hjudged,hcleared⟩ := h.packets_eq
  simp only [ackedBy_eq_covers hframe,← Bool.and_assoc] at hacked hbytes hgone hjudged
  constructor
  case listed => exact hacked
  case ascending =>
    have hnums := forall₂_map_left_iff.mpr (forall₂_map_right_iff.mpr (hacked.imp fun p a hpa => hpa.1.symm))
    rw [forall₂_eq_eq_eq] at hnums
    rw [← hnums]
    refine pairwise_lt_of_inSpace (s := pnSpace) (hordered.sublist filter_sublist) fun p hp => ?_
    exact (Bool.and_eq_true_iff.mp (Bool.and_eq_true_iff.mp (mem_filter.mp hp).2).1).2
  case bytes => exact hbytes
  case gone =>
    rintro q hq ⟨hspace,hcovers⟩
    have := hgone q hq
    rw [hspace,hcovers] at this
    cases this
  case stay =>
    refine ⟨judged,hjudged,hcleared.sublist,fun q hq hgone => ?_⟩
    have hold := hcleared.mem_or_old q hq
    simp only [hgone,false_or,oldLost,Bool.and_eq_true,decide_eq_true_eq] at hold
    exact ⟨hold.1.1.1,hold.1.2,hold.2⟩
  case otherSpaces => exact h.otherSpaces
  case sorted => exact hordered'.sorted

/-- What may leave `processAckFrame` early: an exception of the congestion controller, of the
visitor, of the parser of the timestamps or of the sum of the lost bytes. -/
def AckFailure (cc : Controller σ) (lossVisitor : LossVisitor) (e : Failure) : Prop :=
  (∃ s event,(cc s event).thrown = some e) ∨ (∃ p b,lossVisitor p b = .error e) ∨
    e = .optionalEmptyException ∨ e=lostBytesOverflow

end Connection

end QuicWestwood
