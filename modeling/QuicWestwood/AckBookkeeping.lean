import QuicWestwood.AckProcessing
import QuicWestwood.LossBookkeeping

/-! What `processAckFrame` does to the outstanding packets, pass by pass: the acked packets are scheduled and
counted, losses are detected among the rest, old lost packets are forgotten and the scheduled packets are
erased. No `CHECK` on the way fails. -/
namespace QuicWestwood
open OutstandingPacket List

/-- What an ack may change in the loss state before losses are detected. -/
structure LossState.Adapts (l l' : LossState) : Prop where
  lossTimes : l'.lossTimes=l.lossTimes
  alarmMethod : l'.currentAlarmMethod=l.currentAlarmMethod
  threshold : l.reorderingThreshold≤l'.reorderingThreshold

lemma LossState.Adapts.refl (l : LossState) : l.Adapts l := ⟨rfl,rfl,le_rfl⟩

lemma LossState.Adapts.trans {l l' l'' : LossState} (h : l.Adapts l') (h' : l'.Adapts l'') : l.Adapts l'' :=
  ⟨h'.1.trans h.1,h'.2.trans h.2,h.3.trans h'.3⟩

lemma le_adaptedThreshold (settings : LossSettings) (threshold : ℕ) (p : OutstandingPacket) :
    threshold ≤ adaptedThreshold settings threshold p := by
  unfold adaptedThreshold
  split
  · exact le_max_left _ _
  · exact le_rfl

def OutstandingPacket.newlyAcked (p : OutstandingPacket) : Bool :=
  p.metadata.scheduledForDestruction && !p.declaredLost

abbrev OutstandingPacket.lost (p : OutstandingPacket) : Bool :=
  p.declaredLost && !p.metadata.scheduledForDestruction

section Marking
variable {E : Failure → Prop} {pnSpace : PacketNumberSpace} {frame : ReadAckFrame}
  {ackReceiveTime nowTime : ℤ} {total : ℕ} {ids : Finset ClonedPacketIdentifier}
  {lossState : LossState} {settings : LossSettings} {t : AckTally}
  {pre rest : List OutstandingPacket} {p : OutstandingPacket}

namespace AckTally

/-- The loop over the acked packets, which goes from the largest number down. `l` is the
list as it stands, in the order of the loop. -/
structure Marking (pnSpace : PacketNumberSpace) (frame : ReadAckFrame) (ackReceiveTime : ℤ)
    (lossState : LossState) (settings : LossSettings) (total : ℕ) (ids : Finset ClonedPacketIdentifier)
    (t : AckTally) (l : List OutstandingPacket) : Prop where
  counted : Counted t.dsrPacketsAcked t.counts l
  ids : t.counts.clonedPacketIdentifiers ⊆ ids
  bytes : liveBytes l+t.ack.ackedBytes = total
  noBytes : t.ack.largestNewlyAckedPacket=none → t.ack.ackedBytes=0
  contexts : t.packetsWithHandlerContext.map AckedContext.outstandingPacket = l.filter newlyAcked
  largest : t.ack.largestNewlyAckedPacket = (l.filter newlyAcked).head?.map packetNum
  sampled : t.ack.rttSample.isSome →
    ∃ q ∈ l,q.metadata.scheduledForDestruction ∧ q.packetNum=frame.largestAcked
  inSpace : ∀ q ∈ l,q.metadata.scheduledForDestruction → q.inSpace pnSpace
  descending : (l.map identifier).Pairwise fun a b =>
    b.packetNumber ≤ a.packetNumber ∧ a≠b
  ackTime : t.ack.ackTime=ackReceiveTime
  lossState : lossState.Adapts t.lossState
  settings : ∃ dividend,t.settings = {settings with timeReorderingThreshDividend := dividend}

lemma insertContext_of_lt {c : AckedContext} {l : List AckedContext}
    (h : ∀ d ∈ l,c.outstandingPacket.packetNum < d.outstandingPacket.packetNum) :
    insertContext c l = l++[c] := by
  have hlast : ∀ hl : l≠[],
      ¬(decide ((l.getLast hl).outstandingPacket.packetNum ≤ c.outstandingPacket.packetNum) = true) := by
    intro hl
    have := h _ (getLast_mem hl)
    simpa using this
  rw [insertContext,rdropWhile_eq_self_iff.mpr hlast,rtakeWhile_eq_nil_iff.mpr hlast]

lemma ends_sampleRtt
    (hnone : p.packetNum=frame.largestAcked → t.ack.rttSample=none) :
    Ends (sampleRtt frame ackReceiveTime nowTime t p) E fun t' =>
      ∃ rtt l,t' = {t with ack := {t.ack with rttSample := rtt}, lossState := l} ∧
        (rtt.isSome → t.ack.rttSample.isSome ∨ p.packetNum=frame.largestAcked) ∧ t.lossState.Adapts l := by
  unfold sampleRtt
  split_ifs with hlargest
  · have hnum : p.packetNum=frame.largestAcked := by
      simp only [Bool.and_eq_true,decide_eq_true_eq] at hlargest
      exact hlargest.1.2
    rw [hnone hnum]
    exact ⟨_,_,rfl,fun _ => .inr hnum,⟨rfl,rfl,le_rfl⟩⟩
  · exact ⟨_,_,rfl,.inl,.refl _⟩

section
variable (hrest : ∀ q ∈ rest,q.metadata.scheduledForDestruction = false)
include hrest

lemma filter_unscheduled : rest.filter newlyAcked = [] := by
  rw [filter_eq_nil_iff]
  intro q hq
  simp [newlyAcked,hrest q hq]

lemma filter_before (hsched : p.metadata.scheduledForDestruction=false) :
    (pre++p::rest).filter newlyAcked = pre.filter newlyAcked := by
  rw [filter_append,filter_unscheduled (forall_mem_cons.mpr ⟨hsched,hrest⟩),append_nil]

lemma filter_after : (pre++p.schedule::rest).filter newlyAcked =
      pre.filter newlyAcked++if p.declaredLost then [] else [p.schedule] := by
  rw [filter_append,filter_cons,filter_unscheduled hrest]
  cases hl : p.declaredLost <;> simp [newlyAcked,schedule,hl]

end

namespace Marking
variable (h : t.Marking pnSpace frame ackReceiveTime lossState settings total ids (pre++p::rest))
include h

lemma lt_of_newlyAcked (hp : p.inSpace pnSpace) :
    ∀ q ∈ pre.filter newlyAcked,p.packetNum < q.packetNum := by
  intro q hq
  obtain ⟨hmem,hacked⟩ := mem_filter.mp hq
  simp only [newlyAcked,Bool.and_eq_true] at hacked
  have hspace := h.inSpace q (by simp [hmem]) hacked.1
  have hpair := h.descending
  rw [map_append,pairwise_append] at hpair
  obtain ⟨hle,hne⟩ := hpair.2.2 q.identifier (mem_map_of_mem hmem) p.identifier (by simp)
  refine lt_of_le_of_ne hle fun heq => hne ?_
  simp only [OutstandingPacket.inSpace,decide_eq_true_eq] at hp hspace
  simp [OutstandingPacket.identifier,hp,hspace,heq]

lemma rttSample_eq_none (hp : p.inSpace pnSpace) (hsched : p.metadata.scheduledForDestruction=false)
    (hlargest : p.packetNum=frame.largestAcked) : t.ack.rttSample=none := by
  by_contra hsome
  obtain ⟨q,hq,hqs,hnum⟩ := h.sampled (Option.isSome_iff_ne_none.mpr hsome)
  have hspace := h.inSpace q hq hqs
  simp only [OutstandingPacket.inSpace,decide_eq_true_eq] at hp hspace
  have hid : q.identifier=p.identifier := by
    simp [identifier,hp,hspace,hnum,hlargest]
  have hnodup := h.descending.imp And.right
  obtain rfl := inj_on_of_nodup_map hnodup hq (by simp) hid
  rw [hsched] at hqs
  cases hqs

lemma inSpace_schedule (hp : p.inSpace pnSpace) :
    ∀ q ∈ pre++p.schedule::rest,q.metadata.scheduledForDestruction → q.inSpace pnSpace := by
  exact forall_mem_insert.mpr ⟨fun _ => hp,(forall_mem_insert.mp h.inSpace).2⟩

lemma sampled_schedule (hsched : p.metadata.scheduledForDestruction=false)
    (hsome : t.ack.rttSample.isSome) : ∃ q ∈ pre++p.schedule::rest,
      q.metadata.scheduledForDestruction ∧ q.packetNum=frame.largestAcked := by
  obtain ⟨q,hq,hqs,hnum⟩ := h.sampled hsome
  refine ⟨q,?_,hqs,hnum⟩
  have hne : q≠p := by
    rintro rfl
    simp [hsched] at hqs
  simp only [mem_append,mem_cons,hne,false_or] at hq ⊢
  exact hq.imp_right .inr

lemma descending_schedule : ((pre++p.schedule::rest).map identifier).Pairwise
    fun a b => b.packetNumber ≤ a.packetNumber ∧ a≠b := by
  have hdesc := h.descending
  simp only [map_append,map_cons] at hdesc ⊢
  exact hdesc

variable (hsched : p.metadata.scheduledForDestruction=false) (hp : p.inSpace pnSpace)
  (hrest : ∀ q ∈ rest,q.metadata.scheduledForDestruction = false)
include hsched hp hrest

lemma ends_spurious (hlost : p.declaredLost=true) : Ends (modifyStateForSpuriousLoss {t with counts := {t.counts with
      scheduledForDestructionCount := t.counts.scheduledForDestructionCount+1}} p) E fun t' =>
        t'.Marking pnSpace frame ackReceiveTime lossState settings total ids (pre++p.schedule::rest) := by
  have hcount := h.counted.declaredLostCount_pos (by simp) hlost hsched
  have hlive : p.live=false := by simp [live,hlost]
  have hfilter : (pre++p.schedule::rest).filter newlyAcked = (pre++p::rest).filter newlyAcked := by
    rw [filter_after hrest,filter_before hrest hsched,if_pos hlost,append_nil]
  rw [modifyStateForSpuriousLoss,decide_eq_true hcount,check_true]
  exact {h with
    counted := h.counted.spurious hlost hsched
    bytes := by
      have hbytes := h.bytes
      simp only [liveBytes_append,liveBytes_cons,hlive,schedule_live] at hbytes ⊢
      exact hbytes
    contexts := h.contexts.trans hfilter.symm
    largest := h.largest.trans (by rw [hfilter])
    sampled := h.sampled_schedule hsched
    inSpace := h.inSpace_schedule hp
    descending := h.descending_schedule
    lossState := h.lossState.trans ⟨rfl,rfl,le_adaptedThreshold _ _ _⟩
    settings := by
      obtain ⟨dividend,hs⟩ := h.settings
      exact ⟨adaptedDividend t.settings p,by rw [hs]⟩}

lemma ends_ackLive (hlost : p.declaredLost=false) : Ends (ackLive frame ackReceiveTime nowTime {t with counts := {t.counts with
      scheduledForDestructionCount := t.counts.scheduledForDestructionCount+1}} p) E fun t' =>
        t'.Marking pnSpace frame ackReceiveTime lossState settings total ids (pre++p.schedule::rest) := by
  have hlive : p.live=true := by simp [live,hlost,hsched]
  have hbefore := h.largest
  have hcontexts := h.contexts
  rw [filter_before hrest hsched] at hbefore hcontexts
  have hafter : (pre++p.schedule::rest).filter newlyAcked = pre.filter newlyAcked++[p.schedule] := by
    rw [filter_after hrest,if_neg (by simp [hlost])]
  have hlt := h.lt_of_newlyAcked hp
  obtain ⟨c',hretire,⟨hdsr,hcount⟩,hids,hcounted⟩ := Counted.retire [p.schedule] t.counts.dsrCount
    (t.dsrPacketsAcked+if p.isDSRPacket then 1 else 0) h.counted hlive (by simp)
    (by simp [schedule,identifier,packetNumberSpace])
    (by omega)
  unfold ackLive
  rw [OutstandingCounts.retire_scheduled,hretire]
  refine (ends_sampleRtt (t := {t with counts := {c' with
    scheduledForDestructionCount := t.counts.scheduledForDestructionCount+1}})
    (h.rttSample_eq_none hp hsched)).bind ?_
  rintro t' ⟨rtt,l,rfl,hrtt,hadapts⟩
  constructor
  case counted => simpa [schedule,← hdsr,← hcount] using hcounted
  case ids => exact hids.trans h.ids
  case bytes =>
    have hbytes := h.bytes
    simp only [liveBytes_append,liveBytes_cons,hlive,schedule_live,if_true,
      Bool.false_eq_true,if_false] at hbytes ⊢
    omega
  case noBytes => exact fun hnone => by cases hnone
  case contexts =>
    have hlast : ∀ d ∈ t.packetsWithHandlerContext,p.packetNum < d.outstandingPacket.packetNum :=
      fun d hd => hlt _ (hcontexts ▸ mem_map_of_mem hd)
    rw [insertContext_of_lt (by exact hlast),hafter,map_append,hcontexts]
    rfl
  case largest =>
    rw [hafter,hbefore]
    cases hfirst : pre.filter newlyAcked with
    | nil => simp
    | cons q qs =>
      have hq := hlt q (by rw [hfirst]; exact mem_cons_self)
      simp [hq.le]
  case sampled =>
    intro hsome
    rcases hrtt hsome with hold | hnum
    · exact h.sampled_schedule hsched hold
    · exact ⟨p.schedule,by simp,rfl,hnum⟩
  case inSpace => exact h.inSpace_schedule hp
  case descending => exact h.descending_schedule
  case ackTime => exact h.ackTime
  case lossState => exact h.lossState.trans hadapts
  case settings => exact h.settings

lemma ends_ackPacket : Ends (ackPacket frame ackReceiveTime nowTime t p) E fun r => r.2 = p.schedule ∧
      r.1.Marking pnSpace frame ackReceiveTime lossState settings total ids (pre++r.2::rest) := by
  refine Ends.map ?_
  unfold settlePacket
  split_ifs with hlost
  · exact (h.ends_spurious hsched hp hrest hlost).imp fun t' ht => ⟨rfl,ht⟩
  · exact (h.ends_ackLive hsched hp hrest (by simpa using hlost)).imp fun t' ht => ⟨rfl,ht⟩

end Marking

end AckTally

lemma recordFrame_eq_none {details : List (ℕ × Option ℕ)} {frame : WriteStreamFrame}
    (h : ∀ e ∈ details,e.2 = none) (hframe : frame.fromBufMeta=false) :
    ∀ e ∈ recordFrame details frame,e.2 = none := by
  have hlookup : (details.lookup frame.streamId).join = none := by
    cases hl : details.lookup frame.streamId with
    | none => rfl
    | some idx =>
      obtain ⟨l₁,l₂,hsplit,-⟩ := lookup_eq_some_iff.mp hl
      exact h (frame.streamId,idx) (by simp [hsplit])
  intro e he
  simp only [recordFrame,hframe,hlookup,Bool.false_eq_true,if_false] at he
  split_ifs at he
  · exact h e he
  · rcases mem_cons.mp he with rfl | he
    · rfl
    · exact h e (mem_of_mem_filter he)

lemma detailsPerStream_eq_none {c : AckedContext} (streamAlive : ℕ → Bool)
    (h : ∀ f,QuicWriteFrame.writeStreamFrame f ∈ c.outstandingPacket.frames → f.fromBufMeta=false) :
    ∀ e ∈ detailsPerStream streamAlive c,e.2 = none := by
  unfold detailsPerStream
  split_ifs
  · refine foldlRecOn (motive := fun details : List (ℕ × Option ℕ) => ∀ e ∈ details,e.2 = none)
      c.outstandingPacket.frames _ (by simp) fun details hdetails frame hframe => ?_
    split
    · rename_i f
      split_ifs
      · exact recordFrame_eq_none hdetails (h f hframe)
      · exact hdetails
    · exact hdetails
  · simp

namespace AckTally.Marking
variable {packets : List OutstandingPacket}
variable (h : t.Marking pnSpace frame ackReceiveTime lossState settings total ids packets.reverse)
  (streamAlive : ℕ → Bool) (timestamps : List (ℕ × ℕ))
include h

lemma bytesAcked_ackEventOf :
    bytesAcked (some (Connection.ackEventOf t streamAlive timestamps)) = t.ack.ackedBytes := by
  cases hlargest : t.ack.largestNewlyAckedPacket with
  | none => simp [bytesAcked,Connection.ackEventOf,Option.filter,hlargest,h.noBytes hlargest]
  | some n => simp [bytesAcked,Connection.ackEventOf,Option.filter,hlargest]

lemma acked_ackEventOf : Forall₂ (fun p a => a.packetNum = p.packetNum ∧
      a.nonDsrPacketSequenceNumber = p.nonDsrPacketSequenceNumber.getD 0 ∧
      a.outstandingPacketMetadata = p.metadata)
    (packets.filter newlyAcked)
    (Connection.ackEventOf t streamAlive timestamps).ackedPackets := by
  have hcontexts := congrArg reverse h.contexts
  rw [filter_reverse,reverse_reverse,← map_reverse] at hcontexts
  rw [← hcontexts,Connection.ackEventOf,forall₂_map_left_iff,forall₂_map_right_iff,forall₂_same]
  exact fun c _ => ⟨rfl,rfl,rfl⟩

lemma details_ackEventOf (hnone : ∀ p ∈ packets,∀ f,QuicWriteFrame.writeStreamFrame f ∈ p.frames →
      f.fromBufMeta = false) :
    ∀ a ∈ (Connection.ackEventOf t streamAlive timestamps).ackedPackets,
      ∀ e ∈ a.detailsPerStream,e.2 = none := by
  intro a ha
  rw [Connection.ackEventOf,mem_map] at ha
  obtain ⟨c,hc,rfl⟩ := ha
  have hmem : c.outstandingPacket ∈ packets := by
    have hin := mem_map_of_mem (f := AckedContext.outstandingPacket) (mem_reverse.mp hc)
    rw [h.contexts] at hin
    exact mem_reverse.mp (mem_of_mem_filter hin)
  exact detailsPerStream_eq_none streamAlive (hnone _ hmem)

end AckTally.Marking

def OutstandingPacket.marked (pnSpace : PacketNumberSpace) (ackBlocks : List AckBlock)
    (p : OutstandingPacket) : OutstandingPacket :=
  if p.ackedBy pnSpace ackBlocks then p.schedule else p

lemma WellOrdered.sorted {l : List OutstandingPacket} (h : WellOrdered l) : SortedByPacketNum l :=
  (pairwise_map.mp h).imp And.left

end Marking

namespace Connection
open AckedPacketIterator
variable {σ : Type} {E : Failure → Prop} {conn : Connection σ}

theorem ends_markAcked (h : conn.outstandings.Consistent)
    (hunscheduled : ∀ p ∈ conn.outstandings.packets,p.metadata.scheduledForDestruction = false)
    (pnSpace : PacketNumberSpace) (frame : ReadAckFrame) (ackReceiveTime nowTime : ℤ) :
    Ends (conn.markAcked pnSpace frame ackReceiveTime nowTime) E fun r =>
      r.2 = conn.outstandings.packets.map (marked pnSpace frame.ackBlocks) ∧
        r.1.Marking pnSpace frame ackReceiveTime conn.lossState conn.transportSettings
          (liveBytes conn.outstandings.packets) conn.outstandings.clonedPacketIdentifiers r.2.reverse := by
  have hnone := AckTally.filter_unscheduled fun q hq => hunscheduled q (mem_reverse.mp hq)
  unfold markAcked
  rw [forEachAcked_eq_sweep _ h.ordered.sorted]
  refine Ends.map ((ends_sweep_flatMap
    (I := AckTally.Marking pnSpace frame ackReceiveTime conn.lossState conn.transportSettings
      (liveBytes conn.outstandings.packets) conn.outstandings.clonedPacketIdentifiers)
    (g := fun p => [p.marked pnSpace frame.ackBlocks]) ?_ ?_).imp ?_)
  · intro t pre p rest hsuffix hI
    have hmem : ∀ q ∈ p::rest,q.metadata.scheduledForDestruction = false :=
      fun q hq => hunscheduled q (mem_reverse.mp (hsuffix.subset hq))
    unfold visit marked
    split_ifs with hacked
    · have hspace : p.inSpace pnSpace := by
        simp only [ackedBy,Bool.and_eq_true] at hacked
        exact hacked.1
      refine Ends.map ((hI.ends_ackPacket (hmem p mem_cons_self) hspace
        fun q hq => hmem q (mem_cons_of_mem _ hq)).imp ?_)
      rintro r ⟨hr,hmarking⟩
      exact ⟨hmarking,by rw [hr]⟩
    · exact ⟨hI,rfl⟩
  · constructor
    case counted => exact h.counted.reverse
    case ids => exact subset_rfl
    case bytes => simp
    case noBytes => exact fun _ => rfl
    case contexts => rw [hnone]; rfl
    case largest => rw [hnone]; rfl
    case sampled => exact fun hsome => by cases hsome
    case inSpace =>
      intro q hq hsched
      rw [hunscheduled q (mem_reverse.mp hq)] at hsched
      cases hsched
    case descending =>
      rw [map_reverse,pairwise_reverse]
      exact h.ordered.imp fun hab => ⟨hab.1,hab.2.symm⟩
    case ackTime => rfl
    case lossState => exact .refl _
    case settings => exact ⟨_,rfl⟩
  · rintro r ⟨hmarking,hr⟩
    rw [reverse_reverse]
    refine ⟨?_,hmarking⟩
    rw [hr,← map_eq_flatMap,map_reverse,reverse_reverse]

lemma settleAcked_eq {t : AckTally} {packets : List OutstandingPacket}
    (h : Counted t.dsrPacketsAcked t.counts packets) :
    conn.settleAcked t packets = .ok {conn with
      outstandings :=
        {t.counts with dsrCount := t.counts.dsrCount-t.dsrPacketsAcked, packets}
      lossState := t.lossState
      transportSettings := t.settings} := by
  obtain ⟨hle,hcounted⟩ := h.settleDsr
  have hlost : t.counts.declaredLostCount≤packets.length := by
    rw [h.declaredLost]
    exact countP_le_length
  rw [settleAcked,decide_eq_true hle,check_true]
  simp only [decide_eq_true hlost,check_true,bind,Except.bind]
  rw [hcounted.numOutstanding_eq]
  simp only [decide_eq_true hcounted.numClonedPackets_le,check_true]
  rfl

lemma ends_reportedTimestamps (hE : E .optionalEmptyException) (pnSpace : PacketNumberSpace)
    (frame : ReadAckFrame) : Ends (conn.reportedTimestamps pnSpace frame) E fun _ => True := by
  unfold reportedTimestamps
  split_ifs
  · unfold parseAckReceiveTimestamps
    split_ifs
    · trivial
    · split
      · split
        · exact hE
        · trivial
        · split_ifs <;> trivial
      · trivial
  · trivial

/-- What an ack of `pnSpace` makes of the outstanding packets before they are erased. -/
structure AckStep (pnSpace : PacketNumberSpace) (ackBlocks : List AckBlock) (o o' : OutstandingsInfo)
    (ack : AckEvent) (lossEvent : Option LossEvent) : Prop where
  counted : Counted 0 o'.toOutstandingCounts o'.packets
  judged : Forall₂ (Judged pnSpace) (o.packets.map (marked pnSpace ackBlocks))
    o'.packets
  ids : o'.clonedPacketIdentifiers ⊆ o.clonedPacketIdentifiers
  bytes : liveBytes o'.packets+(bytesAcked (some ack)+bytesLost lossEvent) = liveBytes o.packets
  times : ∀ e,lossEvent = some e → e.smallestLostSentTime.isSome ∧ e.largestLostSentTime.isSome

lemma marked_becomes (pnSpace : PacketNumberSpace) (ackBlocks : List AckBlock) (p : OutstandingPacket) :
    p.Becomes (p.marked pnSpace ackBlocks) := by
  unfold marked
  split_ifs
  · exact ⟨rfl,rfl,rfl,rfl,rfl,by simp⟩
  · exact .refl p

variable {pnSpace : PacketNumberSpace} {ackBlocks : List AckBlock} {ack : AckEvent}
  {lossEvent : Option LossEvent}

lemma AckStep.within {o o' : OutstandingsInfo} (h : AckStep pnSpace ackBlocks o o' ack lossEvent) :
    o'.Within o := by
  refine .of_forall₂ ?_ h.ids
  have hjudged := forall₂_map_left_iff.mp h.judged
  exact hjudged.imp fun p q hpq => (marked_becomes pnSpace ackBlocks p).trans hpq.becomes

/-- The connection when losses are about to be detected: the acked packets are scheduled and
counted, and the event is built. -/
structure AckedStage (pnSpace : PacketNumberSpace) (frame : ReadAckFrame) (ackReceiveTime : ℤ)
    (conn conn₀ : Connection σ) (ack : AckEvent) : Prop where
  consistent : conn₀.outstandings.Consistent
  packets : conn₀.outstandings.packets = conn.outstandings.packets.map (marked pnSpace frame.ackBlocks)
  ids : conn₀.outstandings.clonedPacketIdentifiers ⊆ conn.outstandings.clonedPacketIdentifiers
  ackedBytes : liveBytes conn₀.outstandings.packets+ack.ackedBytes = liveBytes conn.outstandings.packets
  bytesAcked : bytesAcked (some ack) = ack.ackedBytes
  acked : Forall₂ (fun p a => a.packetNum = p.packetNum ∧
      a.nonDsrPacketSequenceNumber = p.nonDsrPacketSequenceNumber.getD 0 ∧
      a.outstandingPacketMetadata = p.metadata)
    (conn₀.outstandings.packets.filter newlyAcked) ack.ackedPackets
  details : (∀ p ∈ conn₀.outstandings.packets,∀ f,QuicWriteFrame.writeStreamFrame f ∈ p.frames →
      f.fromBufMeta = false) → ∀ a ∈ ack.ackedPackets,∀ e ∈ a.detailsPerStream,e.2 = none
  largest : ack.largestNewlyAckedPacket = (conn₀.outstandings.packets.filter
    newlyAcked).getLast?.map packetNum
  ackTime : ack.ackTime=ackReceiveTime
  rest : ∃ o lossState dividend,conn₀ = {conn with
      outstandings := o
      lossState
      transportSettings := {conn.transportSettings with timeReorderingThreshDividend := dividend}} ∧
    conn.lossState.Adapts lossState

variable {lossVisitor : LossVisitor}

theorem ends_applyAck_stage (hE : E lostBytesOverflow) (hopt : E .optionalEmptyException)
    (h : conn.outstandings.Consistent)
    (hunscheduled : ∀ p ∈ conn.outstandings.packets,p.metadata.scheduledForDestruction = false)
    (pnSpace : PacketNumberSpace) (frame : ReadAckFrame) (streamAlive : ℕ → Bool) (ackReceiveTime nowTime : ℤ)
    (hvisitor : VisitorOk E lossVisitor pnSpace
      (conn.outstandings.packets.map (marked pnSpace frame.ackBlocks))) :
    Ends (conn.applyAck pnSpace frame lossVisitor streamAlive ackReceiveTime nowTime) E fun r =>
      ∃ conn₀,AckedStage pnSpace frame ackReceiveTime conn conn₀ r.2.1 ∧
        conn₀.handleAckForLoss lossVisitor r.2.1 pnSpace = .ok (r.1,r.2.2) ∧
        LossStep pnSpace conn₀.outstandings r.1.outstandings r.2.2 ∧ LossFrame pnSpace conn₀ r.1 := by
  unfold applyAck
  rw [OutstandingsInfo.numOutstanding,h.counted.numOutstanding_eq,ByteCodec.ok_bind]
  refine (ends_markAcked h hunscheduled pnSpace frame ackReceiveTime nowTime).bind ?_
  rintro ⟨t,packets⟩ ⟨hpackets,hmarking⟩
  simp only at hpackets hmarking
  refine (ends_reportedTimestamps hopt pnSpace frame).bind fun timestamps _ => ?_
  have hcounted := hmarking.counted.reverse
  rw [reverse_reverse] at hcounted
  rw [settleAcked_eq hcounted,ByteCodec.ok_bind]
  have hbecomes : Forall₂ Becomes conn.outstandings.packets packets := by
    rw [hpackets,forall₂_map_right_iff,forall₂_same]
    exact fun p _ => marked_becomes pnSpace frame.ackBlocks p
  have hcons : OutstandingsInfo.Consistent
      {t.counts with dsrCount := t.counts.dsrCount-t.dsrPacketsAcked, packets} :=
    OutstandingsInfo.Within.consistent (.of_forall₂ hbecomes hmarking.ids) h hcounted.settleDsr.2
  refine (ends_handleAckForLoss hE hcons (ackEventOf t streamAlive timestamps) pnSpace
    (hpackets ▸ hvisitor)).with_eq.bind ?_
  rintro ⟨conn',lossEvent⟩ ⟨⟨hstep,hframe⟩,heq⟩
  refine ⟨_,?_,heq,hstep,hframe⟩
  constructor
  case consistent => exact hcons
  case packets => exact hpackets
  case ids => exact hmarking.ids
  case ackedBytes =>
    have hbytes := hmarking.bytes
    rwa [liveBytes_reverse] at hbytes
  case bytesAcked => exact hmarking.bytesAcked_ackEventOf streamAlive timestamps
  case acked => exact hmarking.acked_ackEventOf streamAlive timestamps
  case details => exact hmarking.details_ackEventOf streamAlive timestamps
  case largest =>
    have hlargest := hmarking.largest
    rw [filter_reverse,head?_reverse] at hlargest
    exact hlargest
  case ackTime => exact hmarking.ackTime
  case rest =>
    obtain ⟨dividend,hsettings⟩ := hmarking.settings
    exact ⟨_,t.lossState,dividend,by rw [hsettings],hmarking.lossState⟩

lemma AckedStage.ackStep {frame : ReadAckFrame} {ackReceiveTime : ℤ} {conn₀ conn₁ : Connection σ}
    (h : AckedStage pnSpace frame ackReceiveTime conn conn₀ ack)
    (hstep : LossStep pnSpace conn₀.outstandings conn₁.outstandings lossEvent) :
    AckStep pnSpace frame.ackBlocks conn.outstandings conn₁.outstandings ack lossEvent where
  counted := hstep.counted
  judged := h.packets ▸ hstep.judged
  ids := hstep.ids.trans h.ids
  bytes := by
    have hlost := hstep.bytes
    have hacked := h.ackedBytes
    rw [h.bytesAcked]
    omega
  times := hstep.times

def oldLost (time threshold : ℤ) (pnSpace : PacketNumberSpace) (p : OutstandingPacket) : Bool :=
  p.inSpace pnSpace && !p.metadata.scheduledForDestruction && p.declaredLost &&
    1000*threshold < time-p.metadata.time

structure Cleared (old : OutstandingPacket → Bool) (l l' : List OutstandingPacket) : Prop where
  sublist : l'.Sublist l
  kept : ∀ f : OutstandingPacket → Bool,(∀ p,old p → f p = false) → l'.filter f = l.filter f

lemma Cleared.refl (old : OutstandingPacket → Bool) (l : List OutstandingPacket) : Cleared old l l :=
  ⟨.refl l,fun _ _ => rfl⟩

variable {old : OutstandingPacket → Bool} {l l' : List OutstandingPacket}

lemma Cleared.cons (h : Cleared old l l') (p : OutstandingPacket) : Cleared old (p::l) (p::l') where
  sublist := h.sublist.cons_cons p
  kept f hf := by rw [filter_cons,filter_cons,h.kept f hf]

lemma Cleared.drop (h : Cleared old l l') {p : OutstandingPacket} (hp : old p) : Cleared old (p::l) l' where
  sublist := h.sublist.cons p
  kept f hf := by rw [filter_cons,hf p hp,if_neg Bool.false_ne_true,h.kept f hf]

lemma Cleared.filter (h : Cleared old l l') (g : OutstandingPacket → Bool) :
    Cleared old (l.filter g) (l'.filter g) where
  sublist := h.sublist.filter g
  kept f hf := by
    rw [filter_filter,filter_filter]
    exact h.kept _ fun p hp => by rw [hf p hp,Bool.false_and]

lemma Cleared.mem_or_old (h : Cleared old l l') : ∀ p ∈ l,p ∈ l' ∨ old p = true := by
  intro p hp
  rw [or_iff_not_imp_right]
  intro hold
  have hkept := h.kept (fun q => !old q) fun q hq => by simp [hq]
  have hmem : p ∈ l.filter fun q => !old q := mem_filter.mpr ⟨hp,by simpa using hold⟩
  rw [← hkept] at hmem
  exact (mem_filter.mp hmem).1

lemma ends_clearOld (time threshold : ℤ) (pnSpace : PacketNumberSpace) (before : ℕ)
    (l : List OutstandingPacket) : Ends (clearOld time threshold pnSpace (before+l.countP lost) l) E fun r =>
      r.1 = before+r.2.countP lost ∧ Cleared (oldLost time threshold pnSpace) l r.2 := by
  induction l generalizing before with
  | nil => exact ⟨rfl,.refl _ _⟩
  | cons p l ih =>
    rw [clearOld]
    split_ifs with hfuture hskip hold
    · exact ⟨rfl,.refl _ _⟩
    · have hcount : before+(p::l).countP lost = before+(if p.lost then 1 else 0)+l.countP lost := by
        rw [countP_cons]
        omega
      rw [hcount]
      refine Ends.map ((ih _).imp ?_)
      rintro r ⟨hr,hcleared⟩
      refine ⟨?_,hcleared.cons p⟩
      rw [hr,countP_cons]
      omega
    · simp only [Bool.or_eq_true,Bool.not_eq_true',not_or,Bool.not_eq_true,Bool.not_eq_false] at hskip
      simp only [Bool.and_eq_true,decide_eq_true_eq] at hold
      have hcount : (p::l).countP lost = l.countP lost+1 := by
        simp [lost,hold.1,hskip.2]
      rw [hcount,decide_eq_true (by omega),check_true]
      refine (ih before).imp ?_
      rintro r ⟨hr,hcleared⟩
      exact ⟨hr,hcleared.drop (by simp [oldLost,hskip,hold])⟩
    · exact ⟨rfl,.refl _ _⟩

lemma ends_clearOldOutstandingPackets (h : conn.outstandings.Consistent) (time : ℤ)
    (pnSpace : PacketNumberSpace) :
    Ends (conn.clearOldOutstandingPackets time pnSpace) E fun conn' =>
      ∃ o,conn' = {conn with outstandings := o} ∧ Counted 0 o.toOutstandingCounts o.packets ∧
        o.clonedPacketIdentifiers = conn.outstandings.clonedPacketIdentifiers ∧
        Cleared (oldLost time (conn.lossState.calculatePTO conn.transportSettings) pnSpace)
          conn.outstandings.packets o.packets := by
  unfold clearOldOutstandingPackets
  split_ifs
  · exact ⟨_,rfl,h.counted,rfl,.refl _ _⟩
  · have hcount := ends_clearOld (E := E) time
      (conn.lossState.calculatePTO conn.transportSettings) pnSpace 0 conn.outstandings.packets
    rw [Nat.zero_add,← h.counted.declaredLost] at hcount
    refine hcount.bind ?_
    rintro r ⟨hr,hcleared⟩
    refine ⟨_,rfl,?_,rfl,hcleared⟩
    have hlive := hcleared.kept live fun p hp => by
      simp only [oldLost,Bool.and_eq_true] at hp
      simp [live,hp.1.2]
    have hsched := congrArg length
      (hcleared.kept (fun p => p.metadata.scheduledForDestruction) fun p hp => by
        simp only [oldLost,Bool.and_eq_true] at hp
        simpa using hp.1.1.2)
    rw [← countP_eq_length_filter,← countP_eq_length_filter,← h.counted.scheduled] at hsched
    have hcounted := h.counted.of_filter_live hcleared.sublist.subset hlive
    rw [Nat.zero_add] at hr
    rwa [← hr,hsched] at hcounted

lemma ends_eraseAckedOutstandings {packets : List OutstandingPacket} (hs : SortedByPacketNum packets)
    (hacked : ∀ p ∈ packets,p.metadata.scheduledForDestruction = p.ackedBy pnSpace ackBlocks) :
    Ends (eraseAckedOutstandings pnSpace ackBlocks
      (packets.countP fun p => p.metadata.scheduledForDestruction) packets) E fun r =>
        r.1 = r.2.countP (fun p => p.metadata.scheduledForDestruction) ∧
          r.2 = packets.filter fun p => !p.ackedBy pnSpace ackBlocks := by
  rw [eraseAckedOutstandings_eq_sweep _ hs]
  refine Ends.map ((ends_sweep_flatMap
    (I := fun n l => n = l.countP fun p : OutstandingPacket => p.metadata.scheduledForDestruction)
    (g := fun p => if p.ackedBy pnSpace ackBlocks then [] else [p]) ?_ ?_).imp ?_)
  · rintro n pre p rest hsuffix hn
    have hp := hacked p (mem_reverse.mp (hsuffix.subset mem_cons_self))
    unfold visit
    split_ifs with hpacked
    · rw [hpacked] at hp
      have hpos : 0<n := by
        rw [hn]
        exact countP_pos_iff.mpr ⟨p,by simp,hp⟩
      rw [eraseScheduled,hp,decide_eq_true hpos,check_true]
      refine ⟨?_,rfl⟩
      simp only [countP_append,countP_cons,hp,if_true] at hn
      change n-1 = (pre++rest).countP _
      rw [countP_append]
      omega
    · exact ⟨hn,rfl⟩
  · rw [countP_reverse]
  · rintro r ⟨hn,hr⟩
    rw [flatMap_erase,filter_reverse] at hr
    refine ⟨?_,?_⟩
    · rw [countP_reverse]
      exact hn
    · rw [hr,reverse_reverse]

lemma ends_removeOutstandingsForAck (h : conn.outstandings.Consistent) (pnSpace : PacketNumberSpace)
    (frame : ReadAckFrame)
    (hacked : ∀ p ∈ conn.outstandings.packets,
      p.metadata.scheduledForDestruction = p.ackedBy pnSpace frame.ackBlocks) :
    Ends (conn.removeOutstandingsForAck pnSpace frame) E fun conn' =>
      ∃ o,conn' = {conn with outstandings := o} ∧ Counted 0 o.toOutstandingCounts o.packets ∧
        o.clonedPacketIdentifiers = conn.outstandings.clonedPacketIdentifiers ∧
        o.packets = conn.outstandings.packets.filter fun p => !p.ackedBy pnSpace frame.ackBlocks := by
  unfold removeOutstandingsForAck
  rw [h.counted.scheduled]
  refine (ends_eraseAckedOutstandings h.ordered.sorted hacked).bind ?_
  rintro r ⟨hr,hfilter⟩
  refine ⟨_,rfl,?_,rfl,hfilter⟩
  have hkept : ∀ f : OutstandingPacket → Bool,(∀ p,p.metadata.scheduledForDestruction → f p = false) →
      r.2.filter f = conn.outstandings.packets.filter f := by
    intro f hf
    rw [hfilter,filter_filter]
    refine filter_congr fun p hp => ?_
    rw [← hacked p hp]
    cases hsched : p.metadata.scheduledForDestruction with
    | false => simp
    | true => simp [hf p hsched]
  have hlost := congrArg length (hkept lost fun p hp => by simp [hp])
  rw [← countP_eq_length_filter,← countP_eq_length_filter,← h.counted.declaredLost] at hlost
  have hcounted := h.counted.of_filter_live (hfilter ▸ filter_subset_self _)
    (hkept live fun p hp => by simp [live,hp])
  rwa [← hr,hlost] at hcounted

variable {A : ℕ → Controlled σ → Prop} {cc : Controller σ}

lemma inSpace_of_becomes {p q : OutstandingPacket} (h : p.Becomes q) (pnSpace : PacketNumberSpace) :
    q.inSpace pnSpace = p.inSpace pnSpace := by
  unfold inSpace packetNumberSpace
  rw [h.protectionType]

lemma ackedBy_of_becomes {p q : OutstandingPacket} (h : p.Becomes q) (pnSpace : PacketNumberSpace)
    (ackBlocks : List AckBlock) : q.ackedBy pnSpace ackBlocks = p.ackedBy pnSpace ackBlocks := by
  rw [ackedBy,inSpace_of_becomes h,h.packetNum,ackedBy]

lemma AckStep.scheduled_eq {o o' : OutstandingsInfo} (h : AckStep pnSpace ackBlocks o o' ack lossEvent)
    (hunscheduled : ∀ p ∈ o.packets,p.metadata.scheduledForDestruction = false) :
    ∀ q ∈ o'.packets,q.metadata.scheduledForDestruction = q.ackedBy pnSpace ackBlocks := by
  intro q hq
  obtain ⟨p',hp',hjudged⟩ := exists_of_mem_forall₂ h.judged q hq
  obtain ⟨p,hp,rfl⟩ := mem_map.mp hp'
  rw [hjudged.scheduled_eq,ackedBy_of_becomes ((marked_becomes pnSpace ackBlocks p).trans hjudged.becomes)]
  unfold marked
  split_ifs with hacked
  · exact hacked.symm
  · rw [hunscheduled p hp]
    simpa using hacked

lemma ends_tellAck (htracks : Tracks cc E A) {n : ℕ}
    (htimes : ∀ e,lossEvent = some e → e.smallestLostSentTime.isSome ∧ e.largestLostSentTime.isSome)
    (h : A (n+(bytesAcked (some ack)+bytesLost lossEvent)) conn.control) :
    Ends (conn.tellAck cc ack lossEvent) E fun conn' =>
      ∃ control,conn' = {conn with control} ∧ A n control := by
  unfold tellAck
  cases lossEvent with
  | none =>
    simp only
    split_ifs with hnew
    · exact ends_tell htracks h
    · refine ⟨_,rfl,?_⟩
      simpa [bytesAcked,bytesLost,Option.filter,hnew] using h
  | some loss =>
    obtain ⟨hsmallest,hlargest⟩ := htimes loss rfl
    obtain ⟨smallest,hs⟩ := Option.isSome_iff_exists.mp hsmallest
    obtain ⟨largest,hl⟩ := Option.isSome_iff_exists.mp hlargest
    simp only [hs,hl]
    exact ends_tell htracks h

/-- What remains once an ack has been processed: from the packets that the ack and the loss
detection leave, old lost packets and the acked ones are gone. -/
structure Forgotten (pnSpace : PacketNumberSpace) (ackBlocks : List AckBlock) (time threshold : ℤ)
    (o o' : OutstandingsInfo) : Prop where
  counted : Counted 0 o'.toOutstandingCounts o'.packets
  ids : o'.clonedPacketIdentifiers=o.clonedPacketIdentifiers
  packets : ∃ l,Cleared (oldLost time threshold pnSpace) o.packets l ∧
    o'.packets = l.filter fun p => !p.ackedBy pnSpace ackBlocks

lemma ends_forgetAcked (h : conn.outstandings.Consistent) (pnSpace : PacketNumberSpace)
    (frame : ReadAckFrame) (ackReceiveTime : ℤ)
    (hacked : ∀ p ∈ conn.outstandings.packets,
      p.metadata.scheduledForDestruction = p.ackedBy pnSpace frame.ackBlocks) :
    Ends (conn.forgetAcked pnSpace frame ackReceiveTime) E fun conn' =>
      ∃ o,conn' = {conn with outstandings := o} ∧ Forgotten pnSpace frame.ackBlocks ackReceiveTime
        (conn.lossState.calculatePTO conn.transportSettings) conn.outstandings o := by
  refine (ends_clearOldOutstandingPackets h ackReceiveTime pnSpace).bind ?_
  rintro conn' ⟨o,rfl,hcounted,hids,hcleared⟩
  have hcons := OutstandingsInfo.Within.consistent (.of_sublist hcleared.sublist (hids ▸ subset_rfl)) h hcounted
  refine (ends_removeOutstandingsForAck hcons pnSpace frame
    fun p hp => hacked p (hcleared.sublist.subset hp)).imp ?_
  rintro conn'' ⟨o',rfl,hcounted',hids',hpackets⟩
  exact ⟨o',rfl,hcounted',hids'.trans hids,_,hcleared,hpackets⟩

namespace Forgotten
variable {pnSpace : PacketNumberSpace} {ackBlocks : List AckBlock} {time threshold : ℤ}
  {o o' : OutstandingsInfo} (h : Forgotten pnSpace ackBlocks time threshold o o')
include h

lemma sublist : o'.packets.Sublist o.packets := by
  obtain ⟨l,hcleared,hl⟩ := h.packets
  rw [hl]
  exact filter_sublist.trans hcleared.sublist

lemma filter_live (hacked : ∀ p ∈ o.packets,
      p.metadata.scheduledForDestruction = p.ackedBy pnSpace ackBlocks) :
    o'.packets.filter live = o.packets.filter live := by
  obtain ⟨l,hcleared,hl⟩ := h.packets
  rw [hl,filter_filter,← hcleared.kept live fun p hp => by
    simp only [oldLost,Bool.and_eq_true] at hp
    simp [live,hp.1.2]]
  refine filter_congr fun p hp => ?_
  rw [← hacked p (hcleared.sublist.subset hp)]
  cases hsched : p.metadata.scheduledForDestruction <;> simp [live,hsched]

end Forgotten

/-- Everything `processAckFrame` does: it marks the acked packets, detects losses, tells the
controller and forgets packets. -/
structure AckResult (lossVisitor : LossVisitor) (pnSpace : PacketNumberSpace) (frame : ReadAckFrame)
    (ackReceiveTime : ℤ) (conn conn' : Connection σ) (ack : AckEvent) : Prop where
  stages : ∃ conn₀ conn₁ lossEvent,AckedStage pnSpace frame ackReceiveTime conn conn₀ ack ∧
    conn₀.handleAckForLoss lossVisitor ack pnSpace = .ok (conn₁,lossEvent) ∧
    LossStep pnSpace conn₀.outstandings conn₁.outstandings lossEvent ∧
    conn' = {conn₁ with outstandings := conn'.outstandings, control := conn'.control} ∧
    Forgotten pnSpace frame.ackBlocks ackReceiveTime
      (conn'.lossState.calculatePTO conn'.transportSettings) conn₁.outstandings conn'.outstandings
  nextPacketNum : ∀ s,(conn'.ackStates s).nextPacketNum = (conn.ackStates s).nextPacketNum
  alarm : conn'.setLossDetectionAlarm = decide (0 < conn'.outstandings.packets.countP live)

theorem ends_processAckFrame (htracks : Tracks cc E A) (hE : E lostBytesOverflow)
    (hopt : E .optionalEmptyException) (h : conn.Settled A) (pnSpace : PacketNumberSpace)
    (frame : ReadAckFrame) (streamAlive : ℕ → Bool) (ackReceiveTime nowTime : ℤ)
    (hvisitor : VisitorOk E lossVisitor pnSpace
      (conn.outstandings.packets.map (marked pnSpace frame.ackBlocks))) :
    Ends (conn.processAckFrame cc pnSpace frame lossVisitor streamAlive ackReceiveTime nowTime) E
      fun r => r.1.Settled A ∧ r.1.outstandings.Within conn.outstandings ∧
        AckResult lossVisitor pnSpace frame ackReceiveTime conn r.1 r.2 := by
  refine (ends_applyAck_stage hE hopt h.consistent h.unscheduled pnSpace frame streamAlive ackReceiveTime
    nowTime hvisitor).bind ?_
  rintro ⟨conn₁,ack,lossEvent⟩ ⟨conn₀,hstage,heq,hloss,hframe⟩
  simp only at hstage heq hloss hframe
  have hstep := hstage.ackStep hloss
  have hcons := hstep.within.consistent h.consistent hstep.counted
  have hacked := hstep.scheduled_eq h.unscheduled
  obtain ⟨o₀,lossState,dividend,hrest,-⟩ := hstage.rest
  have hA : A (liveBytes conn₁.outstandings.packets+(bytesAcked (some ack)+bytesLost lossEvent))
      conn₁.control := by
    rw [hstep.bytes,hframe.control,hrest]
    exact h.accounted
  refine (ends_tellAck htracks hstep.times hA).bind ?_
  rintro conn₂ ⟨control,rfl,hA₂⟩
  have hcons₂ : ({conn₁ with control} : Connection σ).outstandings.Consistent := hcons
  refine (ends_forgetAcked hcons₂ pnSpace frame ackReceiveTime hacked).bind ?_
  rintro conn₃ ⟨o,rfl,hforgot⟩
  have hlive := hforgot.filter_live hacked
  have hwithin := (OutstandingsInfo.Within.of_sublist hforgot.sublist (hforgot.ids ▸ subset_rfl)).trans hstep.within
  refine ⟨⟨hwithin.consistent h.consistent hforgot.counted,?_,?_⟩,hwithin,
    ⟨conn₀,conn₁,lossEvent,hstage,heq,hloss,rfl,hforgot⟩,fun s => ?_,?_⟩
  · intro p hp
    rw [hacked p (hforgot.sublist.subset hp)]
    obtain ⟨l,-,hl⟩ := hforgot.packets
    rw [hl] at hp
    simpa using (mem_filter.mp hp).2
  · simp only [liveBytes,hlive]
    exact hA₂
  · rw [hframe.nextPacketNum s,hrest]
  · rw [countP_eq_length_filter,hlive,← countP_eq_length_filter]
    exact hframe.alarm

lemma ends_processAckFrame_sound (htracks : Tracks cc E A) (hE : E lostBytesOverflow)
    (hopt : E .optionalEmptyException) (h : conn.Sound A) (pnSpace : PacketNumberSpace) (frame : ReadAckFrame)
    (streamAlive : ℕ → Bool) (ackReceiveTime nowTime : ℤ) (hvisitor : VisitorOk E lossVisitor pnSpace
      (conn.outstandings.packets.map (marked pnSpace frame.ackBlocks))) :
    Ends (conn.processAckFrame cc pnSpace frame lossVisitor streamAlive ackReceiveTime nowTime) E
      fun r => r.1.Sound A :=
  (ends_processAckFrame htracks hE hopt h.toSettled pnSpace frame streamAlive ackReceiveTime nowTime
    hvisitor).imp fun _ hr => h.of_within hr.1 hr.2.1 hr.2.2.nextPacketNum

end Connection

end QuicWestwood
