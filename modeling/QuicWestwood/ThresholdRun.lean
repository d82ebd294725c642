import QuicWestwood.PacketThreshold

/-! A run is traced together with the sequence numbers of the packets acked while they were live. In every state
that a run without DSR packets reaches, no live packet lies more than the reordering threshold below one of
these numbers, and every loss declared next is explained by one of them or by time. -/
namespace QuicWestwood
open Connection OutstandingPacket List Function

def AckEvent.seqs (ack : AckEvent) : List ℕ := ack.ackedPackets.map AckPacket.nonDsrPacketSequenceNumber

structure Traced (σ : Type) where
  conn : Connection σ
  acked : PacketNumberSpace → List ℕ := fun _ => []

variable {σ : Type}

namespace Traced

def hear (t : Traced σ) (pnSpace : PacketNumberSpace) (r : Connection σ × AckEvent) : Traced σ :=
  ⟨r.1,Function.update t.acked pnSpace (t.acked pnSpace++r.2.seqs)⟩

def perform (cc : Controller σ) (t : Traced σ) : Operation → Except Failure (Traced σ)
  | .processAckFrame pnSpace frame streamAlive ackReceiveTime nowTime =>
    t.hear pnSpace <$>
      t.conn.processAckFrame cc pnSpace frame markPacketLoss streamAlive ackReceiveTime nowTime
  | .implicitAckCryptoStream handshake streamAlive implicitAckTime nowTime =>
    match implicitAck t.conn.outstandings.packets (cryptoSpace handshake) with
    | none => .ok t
    | some frame =>
      t.hear (cryptoSpace handshake) <$>
        t.conn.processAckFrame cc (cryptoSpace handshake) frame
          (fun _ _ => .error .checkFailed) streamAlive implicitAckTime nowTime
  | op => (fun conn => {t with conn}) <$> t.conn.perform cc op

lemma conn_perform (cc : Controller σ) (t : Traced σ) (op : Operation) :
    Traced.conn <$> t.perform cc op = t.conn.perform cc op := by
  have hhear : ∀ s (x : Except Failure (Connection σ × AckEvent)),
      Traced.conn <$> t.hear s <$> x = Prod.fst <$> x := by
    intro s x
    cases x <;> rfl
  have hkeep : ∀ x : Except Failure (Connection σ),
      Traced.conn <$> (fun conn => ({t with conn} : Traced σ)) <$> x = x := by
    intro x
    cases x <;> rfl
  cases op with
  | processAckFrame => exact hhear _ _
  | implicitAckCryptoStream handshake streamAlive implicitAckTime nowTime =>
    simp only [perform,Connection.perform,Connection.implicitAckCryptoStream]
    cases Connection.implicitAck t.conn.outstandings.packets (Connection.cryptoSpace handshake) with
    | none => rfl
    | some frame => exact hhear _ _
  | send => exact hkeep _
  | clone => exact hkeep _
  | detectLossPackets => exact hkeep _
  | onLossDetectionAlarm => exact hkeep _
  | markZeroRttPacketsLost => exact hkeep _
  | installOneRttWriteCipher => exact hkeep _

lemma conn_runFallible (cc : Controller σ) (t : Traced σ) (ops : List Operation) :
    Traced.conn <$> runFallible (Traced.perform cc) t ops =
      runFallible (Connection.perform cc) t.conn ops := by
  induction ops generalizing t with
  | nil => rfl
  | cons op ops ih =>
    rw [runFallible,runFallible,← conn_perform]
    cases t.perform cc op with
    | error e => rfl
    | ok t' => exact ih t'

end Traced

namespace Connection

/-- The packets in flight were sent in the order of their sequence numbers. -/
structure Sequenced (conn : Connection σ) : Prop where
  sound : conn.Sound fun _ _ => True
  inflight : conn.transportSettings.useInflightReorderingThreshold=false
  plain : ∀ p ∈ conn.outstandings.packets,p.Plain
  below : ∀ p ∈ conn.outstandings.packets,
    p.seq < (conn.ackStates p.packetNumberSpace).nonDsrPacketSequenceNumber
  ascending : ∀ p ∈ conn.outstandings.packets,∀ q ∈ conn.outstandings.packets,
    p.packetNumberSpace = q.packetNumberSpace → p.packetNum<q.packetNum → p.seq<q.seq

lemma packetNumberSpace_of_becomes {p q : OutstandingPacket} (h : p.Becomes q) :
    q.packetNumberSpace = p.packetNumberSpace := by
  rw [packetNumberSpace,h.protectionType,packetNumberSpace]

lemma Sequenced.of_origin {conn conn' : Connection σ} (h : conn.Sequenced)
    (hsound : conn'.Sound fun _ _ => True)
    (horigin : ∀ q ∈ conn'.outstandings.packets,∃ p ∈ conn.outstandings.packets,p.Becomes q)
    (hseq : ∀ s,(conn'.ackStates s).nonDsrPacketSequenceNumber =
      (conn.ackStates s).nonDsrPacketSequenceNumber)
    (hinflight : conn'.transportSettings.useInflightReorderingThreshold =
      conn.transportSettings.useInflightReorderingThreshold) : conn'.Sequenced where
  sound := hsound
  inflight := hinflight.trans h.inflight
  plain q hq := by
    obtain ⟨p,hp,hbecomes⟩ := horigin q hq
    exact hbecomes.plain (h.plain p hp)
  below q hq := by
    obtain ⟨p,hp,hbecomes⟩ := horigin q hq
    rw [hseq,hbecomes.seq,packetNumberSpace_of_becomes hbecomes]
    exact h.below p hp
  ascending q hq q' hq' hspace hlt := by
    obtain ⟨p,hp,hbecomes⟩ := horigin q hq
    obtain ⟨p',hp',hbecomes'⟩ := horigin q' hq'
    rw [packetNumberSpace_of_becomes hbecomes,packetNumberSpace_of_becomes hbecomes'] at hspace
    rw [hbecomes.packetNum,hbecomes'.packetNum] at hlt
    rw [hbecomes.seq,hbecomes'.seq]
    exact h.ascending p hp p' hp' hspace hlt

end Connection

namespace Traced

/-- What the trace says about the packets still in flight. -/
structure Explained (t : Traced σ) : Prop where
  sequenced : t.conn.Sequenced
  ackedBelow : ∀ s,∀ n ∈ t.acked s,n < (t.conn.ackStates s).nonDsrPacketSequenceNumber
  remembered : ∀ s n,(t.conn.ackStates s).largestNonDsrSequenceNumberAckedByPeer = some n → n ∈ t.acked s
  complete : ∀ p ∈ t.conn.outstandings.packets,p.live → ∀ n ∈ t.acked p.packetNumberSpace,
    n ≤ p.seq+t.conn.lossState.reorderingThreshold

lemma Explained.of_origin {t : Traced σ} {conn' : Connection σ} (h : t.Explained)
    (hsound : conn'.Sound fun _ _ => True)
    (horigin : ∀ q ∈ conn'.outstandings.packets,∃ p ∈ t.conn.outstandings.packets,p.Becomes q)
    (hstates : conn'.ackStates=t.conn.ackStates)
    (hthreshold : conn'.lossState.reorderingThreshold=t.conn.lossState.reorderingThreshold)
    (hsettings : conn'.transportSettings=t.conn.transportSettings) :
    Explained {t with conn := conn'} where
  sequenced := h.sequenced.of_origin hsound horigin (fun s => by rw [hstates]) (by rw [hsettings])
  ackedBelow s n hn := by
    rw [hstates]
    exact h.ackedBelow s n hn
  remembered s n hn := by
    rw [hstates] at hn
    exact h.remembered s n hn
  complete q hq hlive n hn := by
    obtain ⟨p,hp,hbecomes⟩ := horigin q hq
    rw [packetNumberSpace_of_becomes hbecomes] at hn
    rw [hthreshold,hbecomes.seq]
    exact h.complete p hp (hbecomes.live hlive) n hn

lemma Explained.of_quiet {t : Traced σ} {conn' : Connection σ} (h : t.Explained)
    (hsound : conn'.Sound fun _ _ => True) (hquiet : t.conn.Quiet conn') :
    Explained {t with conn := conn'} :=
  h.of_origin hsound hquiet.within.origin hquiet.ackStates hquiet.threshold hquiet.settings

section Send
variable {t : Traced σ} {conn' : Connection σ} {id : Option ClonedPacketIdentifier} {packet : SentPacket}

lemma mem_of_send (hsend : SendResult id packet t.conn conn') {q : OutstandingPacket}
    (hq : q ∈ conn'.outstandings.packets) :
    q = packet.toOutstanding id (t.conn.ackStates packet.packetNumberSpace) ∨
      q ∈ t.conn.outstandings.packets := by
  rw [hsend.packets] at hq
  split_ifs at hq
  · exact mem_insertPacket.mp hq
  · exact .inr hq

lemma nonDsr_of_send (hsend : SendResult id packet t.conn conn')
    (hplain : packet.isDSRPacket=false) (s : PacketNumberSpace) :
    (conn'.ackStates s).nonDsrPacketSequenceNumber = (t.conn.ackStates s).nonDsrPacketSequenceNumber +
        if s=packet.packetNumberSpace then 1 else 0 := by
  rw [hsend.rest,countPacket]
  by_cases hs : s=packet.packetNumberSpace
  · simp [hs,increaseNextPacketNum,hplain]
  · simp [hs]

lemma Explained.of_send (h : t.Explained) (hplain : packet.isDSRPacket=false)
    (hsound : conn'.Sound fun _ _ => True) (hsend : SendResult id packet t.conn conn') :
    Explained {t with conn := conn'} := by
  obtain ⟨time,hloss⟩ := hsend.lossState
  have hnonDsr := nonDsr_of_send hsend hplain
  have hnew : (packet.toOutstanding id (t.conn.ackStates packet.packetNumberSpace)).seq =
      (t.conn.ackStates packet.packetNumberSpace).nonDsrPacketSequenceNumber := by
    simp [seq,SentPacket.toOutstanding,hplain]
  refine ⟨⟨hsound,?inflight,?plain,?below,?ascending⟩,?ackedBelow,?remembered,?complete⟩
  case inflight =>
    rw [hsend.rest]
    exact h.sequenced.inflight
  case plain =>
    intro q hq
    rcases mem_of_send hsend hq with rfl | hq
    · exact ⟨hplain,by simp [seq,SentPacket.toOutstanding,hplain]⟩
    · exact h.sequenced.plain q hq
  case below =>
    intro q hq
    rw [hnonDsr]
    rcases mem_of_send hsend hq with rfl | hq
    · rw [hnew,SentPacket.toOutstanding_packetNumberSpace,if_pos rfl]
      exact Nat.lt_succ_self _
    · exact Nat.lt_add_right _ (h.sequenced.below q hq)
  case ascending =>
    intro p hp q hq hspace hlt
    rcases mem_of_send hsend hp with rfl | hp <;> rcases mem_of_send hsend hq with rfl | hq
    · exact absurd hlt (lt_irrefl _)
    · have hfresh := h.sequenced.sound.fresh q hq
      rw [← hspace,SentPacket.toOutstanding_packetNumberSpace] at hfresh
      exact absurd hlt (Nat.lt_asymm hfresh)
    · have hbelow := h.sequenced.below p hp
      rw [hspace,SentPacket.toOutstanding_packetNumberSpace] at hbelow
      rwa [hnew]
    · exact h.sequenced.ascending p hp q hq hspace hlt
  case ackedBelow =>
    intro s n hn
    rw [hnonDsr]
    exact Nat.lt_add_right _ (h.ackedBelow s n hn)
  case remembered =>
    intro s n hn
    refine h.remembered s n ?_
    rw [← hn,hsend.rest,countPacket]
    by_cases hs : s=packet.packetNumberSpace
    · simp [hs,increaseNextPacketNum]
    · simp [update_of_ne hs]
  case complete =>
    intro q hq hlive n hn
    rw [hloss]
    rcases mem_of_send hsend hq with rfl | hq
    · rw [hnew]
      exact (h.ackedBelow _ n hn).le.trans (Nat.le_add_right _ _)
    · exact h.complete q hq hlive n hn

end Send

lemma tracks_true (cc : Controller σ) : Tracks cc (fun _ => True) fun _ _ => True :=
  tracks_of_thrown fun _ _ _ _ => trivial

lemma ends_send (cc : Controller σ) {t : Traced σ} (h : t.Explained)
    {id : Option ClonedPacketIdentifier} {packet : SentPacket} (hplain : packet.isDSRPacket=false)
    (hid : ∀ i,id = some i → i.packetNumberSpace=packet.packetNumberSpace) :
    Ends (t.conn.updateConnection cc id packet) (fun _ => True)
      fun conn' => Explained {t with conn := conn'} :=
  ((ends_updateConnection (tracks_true cc) h.sequenced.sound hid).and
    (updateConnection_result cc t.conn id packet)).mono (fun _ _ => trivial)
    fun _ hconn' => h.of_send hplain hconn'.1 hconn'.2

lemma ends_clone (cc : Controller σ) {t : Traced σ} (h : t.Explained) (index : ℕ)
    (copy : Option SentPacket) :
    Ends (t.conn.scheduleClone cc index copy) (fun _ => True)
      fun conn' => Explained {t with conn := conn'} := by
  unfold scheduleClone
  split
  · exact h
  · rename_i p hp
    split_ifs with hok
    · simp only [OutstandingCounts.cloneable,Bool.and_eq_true,Bool.not_eq_true'] at hok
      obtain ⟨hsound,hspace⟩ := sound_cloneOutstandingPacket h.sequenced.sound hp hok.1.1.1
      have hrest := cloneOutstandingPacket_rest t.conn index p
      have hcloned := h.of_origin hsound (cloneOutstandingPacket_origin hp) (by rw [hrest]) (by rw [hrest])
          (by rw [hrest])
      cases copy with
      | none => exact hcloned
      | some packet =>
        simp only [Option.all_some,Bool.and_eq_true,Bool.not_eq_true',decide_eq_true_eq] at hok
        refine ends_send cc hcloned hok.2.1 fun i hi => ?_
        obtain rfl := Option.some.inj hi
        rw [hspace,hok.2.2]
    · exact h

section Ack
variable {t : Traced σ} {conn₀ conn₁ : Connection σ} {pnSpace : PacketNumberSpace} {frame : ReadAckFrame}
  {ackReceiveTime : ℤ} {ack : AckEvent} {lossVisitor : LossVisitor} {lossEvent : Option LossEvent}

lemma mem_hear {r : Connection σ × AckEvent} {s : PacketNumberSpace} {n : ℕ}
    (hn : n ∈ (t.hear pnSpace r).acked s) : n ∈ t.acked s ∨ s=pnSpace ∧ n ∈ r.2.seqs := by
  change n ∈ update t.acked pnSpace (t.acked pnSpace++r.2.seqs) s at hn
  by_cases hs : s=pnSpace
  · subst hs
    rw [update_self] at hn
    exact (mem_append.mp hn).imp_right fun h => ⟨rfl,h⟩
  · rw [update_of_ne hs] at hn
    exact .inl hn

@[simp] lemma noteAcked_nonDsrPacketSequenceNumber (state : SendState) (ack : AckEvent) :
    (noteAcked state ack).nonDsrPacketSequenceNumber = state.nonDsrPacketSequenceNumber := by
  unfold noteAcked
  split <;> rfl

lemma inSpace_of_ackedBy {p : OutstandingPacket} {blocks : List AckBlock}
    (h : p.ackedBy pnSpace blocks) : p.packetNumberSpace=pnSpace := by
  simp only [ackedBy,inSpace,Bool.and_eq_true,decide_eq_true_eq] at h
  exact h.1

lemma of_live_marked {p : OutstandingPacket} {blocks : List AckBlock}
    (h : (p.marked pnSpace blocks).live) :
    p.marked pnSpace blocks = p ∧ p.ackedBy pnSpace blocks = false := by
  unfold marked at h ⊢
  split_ifs at h ⊢ with hacked
  · rw [schedule_live] at h
    cases h
  · exact ⟨rfl,by simpa using hacked⟩

lemma mem_of_noteAcked {state : SendState} {acked : List ℕ}
    (h : ∀ n,state.largestNonDsrSequenceNumberAckedByPeer = some n → n ∈ acked) :
    ∀ n,(noteAcked state ack).largestNonDsrSequenceNumberAckedByPeer = some n → n ∈ acked++ack.seqs := by
  intro n hn
  unfold noteAcked at hn
  split at hn
  · exact mem_append_left _ (h n hn)
  · rename_i largest _
    simp only at hn
    cases hfind : ack.ackedPackets.find? fun p => p.packetNum = largest with
    | none =>
      simp only [hfind,Option.map_none,Option.getD_none,if_true] at hn
      exact mem_append_left _ (h n hn)
    | some a =>
      simp only [hfind,Option.map_some,Option.getD_some] at hn
      have hseq : a.nonDsrPacketSequenceNumber ∈ ack.seqs :=
        mem_map_of_mem (mem_of_find?_eq_some hfind)
      split_ifs at hn
      · exact mem_append_left _ (h n hn)
      · obtain rfl := Option.some.inj hn
        cases hold : state.largestNonDsrSequenceNumberAckedByPeer with
        | none => simpa using Or.inr hseq
        | some m =>
          rw [Option.getD_some]
          rcases max_choice m a.nonDsrPacketSequenceNumber with heq | heq <;> rw [heq]
          · exact mem_append_left _ (h m hold)
          · exact mem_append_right _ hseq

section
variable (h : t.Explained) (hstage : AckedStage pnSpace frame ackReceiveTime t.conn conn₀ ack)
include h hstage

lemma plain_of_stage :
    ∀ p ∈ conn₀.outstandings.packets,p.Plain := by
  intro p hp
  rw [hstage.packets] at hp
  obtain ⟨q,hq,rfl⟩ := mem_map.mp hp
  exact (marked_becomes pnSpace frame.ackBlocks q).plain (h.sequenced.plain q hq)

lemma noIndex_of_stage :
    ∀ a ∈ ack.ackedPackets,∀ e ∈ a.detailsPerStream,e.2 = none := by
  refine hstage.details fun p hp f hf => ?_
  by_contra hmeta
  have hdsr := (hstage.consistent.built p hp).bufMeta f hf (by simpa using hmeta)
  rw [(plain_of_stage h hstage p hp).notDsr] at hdsr
  cases hdsr

lemma ends_detect_of_stage :
    Ends ((conn₀.noteAckEvent ack pnSpace).detectLossPackets lossVisitor ack.ackTime pnSpace (some ack))
      (fun _ => True) fun r =>
        r.1.outstandings.packets = conn₀.outstandings.packets.map
            ((conn₀.noteAckEvent ack pnSpace).scanFor ackReceiveTime pnSpace (some ack)).verdict ∧
          LossesExplained (t.acked pnSpace++ack.seqs) pnSpace ackReceiveTime
            conn₀.outstandings.packets r.1 r.2 := by
  obtain ⟨o,lossState,dividend,hrest,-⟩ := hstage.rest
  have hcons : (conn₀.noteAckEvent ack pnSpace).outstandings.Consistent := hstage.consistent
  have hinflight :
      (conn₀.noteAckEvent ack pnSpace).transportSettings.useInflightReorderingThreshold = false := by
    rw [hrest]
    exact h.sequenced.inflight
  have hindex := noIndex_of_stage h hstage
  rw [hstage.ackTime]
  have hplain₀ := plain_of_stage h hstage
  have hplain := hplain₀
  refine ends_detectLossPackets_of_plain trivial hcons ?_ hplain hinflight ?_
  · intro p _ _ _ b
    cases lossVisitor p b <;> trivial
  · intro m hm
    rw [scanFor_largest _ hindex] at hm
    cases hevent : (ack.ackedPackets.foldl LargestAcked.notePacket {}).nonDsr with
    | some n =>
      obtain rfl : n=m := by simpa [hevent] using hm
      obtain ⟨⟨a,ha,rfl⟩,-⟩ := (LargestAcked.foldl_notePacket hindex).2.2 n hevent
      exact mem_append_right _ (mem_map_of_mem ha)
    | none =>
      refine mem_of_noteAcked (h.remembered pnSpace) m ?_
      simpa [hevent,hrest,noteAckEvent] using hm

end

lemma exists_of_mem_seqs (hstage : AckedStage pnSpace frame ackReceiveTime t.conn conn₀ ack)
    (hunscheduled : ∀ p ∈ t.conn.outstandings.packets,p.metadata.scheduledForDestruction = false)
    {n : ℕ} (hn : n ∈ ack.seqs) : ∃ r ∈ t.conn.outstandings.packets,r.seq=n ∧
      r.ackedBy pnSpace frame.ackBlocks ∧
      ∃ largest,ack.largestNewlyAckedPacket = some largest ∧ r.packetNum≤largest := by
  obtain ⟨a,ha,rfl⟩ := mem_map.mp hn
  obtain ⟨p,hp,-,hseq,-⟩ := exists_of_mem_forall₂ hstage.acked a ha
  have hfilter := hp
  rw [hstage.packets] at hp
  obtain ⟨hmem,hacked⟩ := mem_filter.mp hp
  obtain ⟨r,hr,rfl⟩ := mem_map.mp hmem
  have hackedBy : r.ackedBy pnSpace frame.ackBlocks = true := by
    by_contra hnot
    simp only [marked,hnot,Bool.false_eq_true,if_false,newlyAcked,hunscheduled r hr,Bool.false_and] at hacked
  refine ⟨r,hr,?_,hackedBy,?_⟩
  · rw [hseq,← seq,(marked_becomes pnSpace frame.ackBlocks r).seq]
  · have hsorted := (hstage.consistent.ordered.sublist (filter_sublist (p := newlyAcked))).sorted
    have hlargest := hstage.largest
    generalize conn₀.outstandings.packets.filter newlyAcked = l at *
    rcases eq_nil_or_concat l with rfl | ⟨init,last,rfl⟩
    · cases hfilter
    · rw [concat_eq_append] at hsorted hfilter hlargest
      refine ⟨last.packetNum,by simpa using hlargest,?_⟩
      rw [← (marked_becomes pnSpace frame.ackBlocks r).packetNum]
      rcases mem_append.mp hfilter with hin | hin
      · exact (pairwise_append.mp hsorted).2.2 _ hin last (by simp)
      · rw [mem_singleton.mp hin]

/-- A live packet that the scan has left alone is not too far below a packet acked now: it
was sent after that packet, or the scan has compared it with the largest number acked. -/
lemma le_of_not_declares (h : t.Explained)
    (hstage : AckedStage pnSpace frame ackReceiveTime t.conn conn₀ ack)
    {p : OutstandingPacket} (hp : p ∈ t.conn.outstandings.packets) (hlive : p.live)
    (hspace : p.inSpace pnSpace) (hacked : p.ackedBy pnSpace frame.ackBlocks = false)
    (hdeclares : ((conn₀.noteAckEvent ack pnSpace).scanFor ackReceiveTime pnSpace
      (some ack)).declares p = false) {n : ℕ} (hn : n ∈ ack.seqs) :
    n ≤ p.seq+conn₀.lossState.reorderingThreshold := by
  obtain ⟨r,hr,rfl,hracked,largest,hlargest,hle⟩ :=
    exists_of_mem_seqs hstage h.sequenced.sound.unscheduled hn
  have hsame : r.packetNumberSpace=p.packetNumberSpace := by
    simp only [inSpace,decide_eq_true_eq] at hspace
    rw [inSpace_of_ackedBy hracked,hspace]
  rcases lt_trichotomy r.packetNum p.packetNum with hlt | heq | hlt
  · exact (h.sequenced.ascending r hr p hp hsame hlt).le.trans (Nat.le_add_right _ _)
  · have hrp := h.sequenced.sound.consistent.ordered.eq_of_identifier_eq hr hp
      (congrArg₂ ClonedPacketIdentifier.mk hsame heq)
    rw [hrp,hacked] at hracked
    cases hracked
  · have hconsiders : ((conn₀.noteAckEvent ack pnSpace).scanFor ackReceiveTime pnSpace
        (some ack)).considers p = true := by
      have hbelow : p.packetNum < (noteAcked (conn₀.ackStates pnSpace) ack).largestAckedByPeer.getD
          0 := by
        simp only [noteAcked,hlargest,Option.getD_some]
        exact (hlt.trans_le hle).trans_le (le_max_right _ _)
      simpa [LossScan.considers,hlive,scanFor,lossScan,hspace,noteAckEvent] using hbelow
    have hindex := noIndex_of_stage h hstage
    obtain ⟨a,ha,hseq⟩ := mem_map.mp hn
    obtain ⟨-,hnone,hmax⟩ := LargestAcked.foldl_notePacket hindex
    obtain ⟨m,hm⟩ : ∃ m,(ack.ackedPackets.foldl LargestAcked.notePacket {}).nonDsr = some m := by
      rw [← Option.isSome_iff_exists,Option.isSome_iff_ne_none]
      intro hempty
      rw [hnone.mp hempty] at ha
      cases ha
    have hcompared : ((conn₀.noteAckEvent ack pnSpace).scanFor ackReceiveTime pnSpace
        (some ack)).largestNonDsrAckedSequenceNumber = some m := by
      rw [scanFor_largest _ hindex,hm]
      rfl
    rw [LossScan.declares,hconsiders,Bool.true_and,Bool.or_eq_false_iff] at hdeclares
    have hdistance := of_decide_eq_false hdeclares.2
    rw [LossScan.distance,hcompared,Option.getD_some] at hdistance
    change ¬conn₀.lossState.reorderingThreshold < m-p.seq at hdistance
    have hle := (hmax m hm).2 a ha
    omega

theorem ends_hear (cc : Controller σ) (h : t.Explained) (streamAlive : ℕ → Bool) (nowTime : ℤ) :
    Ends (t.conn.processAckFrame cc pnSpace frame lossVisitor streamAlive ackReceiveTime nowTime)
      (fun _ => True) fun r => (t.hear pnSpace r).Explained := by
  refine (ends_processAckFrame (tracks_true cc) trivial trivial h.sequenced.sound.toSettled
    pnSpace frame streamAlive ackReceiveTime nowTime ?_).imp ?_
  · intro p _ _ _ b
    cases lossVisitor p b <;> trivial
  rintro ⟨conn',ack⟩ ⟨hsettled,hwithin,hresult⟩
  simp only at hsettled hwithin hresult
  obtain ⟨conn₀,conn₁,lossEvent,hstage,heq,-,hconn',hforgot⟩ := hresult.stages
  obtain ⟨o,lossState,dividend,hrest,hadapts⟩ := hstage.rest
  have hsound := h.sequenced.sound.of_within hsettled hwithin hresult.nextPacketNum
  obtain ⟨q,hdetect,-,alarm,hconn₁⟩ := handleAckForLoss_eq_ok heq
  obtain ⟨o₁,timer,hframe⟩ := detectLossPackets_eq_ok hdetect
  obtain ⟨hpackets,-⟩ := (ends_detect_of_stage h hstage).of_eq_ok hdetect
  simp only at hconn₁
  have hstates : conn'.ackStates = update t.conn.ackStates pnSpace
      (noteAcked (t.conn.ackStates pnSpace) ack) := by
    rw [hconn',hconn₁,hframe,hrest]
    rfl
  have hthreshold : conn'.lossState.reorderingThreshold=conn₀.lossState.reorderingThreshold := by
    rw [hconn',hconn₁,hframe]
    rfl
  have hadapted : t.conn.lossState.reorderingThreshold ≤ conn₀.lossState.reorderingThreshold := by
    rw [hrest]
    exact hadapts.threshold
  have hseq : ∀ s,(conn'.ackStates s).nonDsrPacketSequenceNumber =
      (t.conn.ackStates s).nonDsrPacketSequenceNumber := by
    intro s
    rw [hstates]
    by_cases hs : s=pnSpace
    · rw [hs,update_self,noteAcked_nonDsrPacketSequenceNumber]
    · rw [update_of_ne hs]
  refine ⟨h.sequenced.of_origin hsound hwithin.origin hseq ?_,fun s n hn => ?_,fun s n hn => ?_,
    fun q hq hlive n hn => ?_⟩
  · rw [hconn',hconn₁,hframe,hrest]
    rfl
  · change n < (conn'.ackStates s).nonDsrPacketSequenceNumber
    rw [hseq]
    rcases mem_hear hn with hold | ⟨rfl,hnew⟩
    · exact h.ackedBelow s n hold
    · obtain ⟨r,hr,rfl,hracked,-⟩ := exists_of_mem_seqs hstage h.sequenced.sound.unscheduled hnew
      rw [← inSpace_of_ackedBy hracked]
      exact h.sequenced.below r hr
  · change (conn'.ackStates s).largestNonDsrSequenceNumberAckedByPeer = some n at hn
    rw [hstates] at hn
    by_cases hs : s=pnSpace
    · subst hs
      rw [update_self] at hn
      simpa [hear] using mem_of_noteAcked (h.remembered s) n hn
    · rw [update_of_ne hs] at hn
      simpa [hear,update_of_ne hs] using h.remembered s n hn
  · change n ≤ q.seq+conn'.lossState.reorderingThreshold
    rw [hthreshold]
    -- the packet is one of those before the ack, neither acked nor declared lost
    have hq₁ := hforgot.sublist.subset hq
    rw [hconn₁] at hq₁
    rw [hpackets] at hq₁
    obtain ⟨p₀,hp₀,rfl⟩ := mem_map.mp hq₁
    obtain ⟨hverdict,hdeclares⟩ := of_live_verdict hlive
    rw [hverdict] at hlive hn ⊢
    rw [hstage.packets] at hp₀
    obtain ⟨r,hr,rfl⟩ := mem_map.mp hp₀
    obtain ⟨hmarked,hacked⟩ := of_live_marked hlive
    rw [hmarked] at hlive hn hdeclares ⊢
    rcases mem_hear hn with hold | ⟨hspace,hnew⟩
    · exact (h.complete r hr hlive n hold).trans (Nat.add_le_add_left hadapted _)
    · exact le_of_not_declares h hstage hr hlive (by simpa [inSpace] using hspace) hacked
        hdeclares hnew

end Ack

end Traced

/-- No DSR packet is sent. Clones are never DSR packets. -/
def Operation.plain : Operation → Bool
  | .send packet => !packet.isDSRPacket
  | _ => true

/-- The connection before its first packet, with the reordering threshold of the loss state. -/
def Connection.unsent (conn : Connection σ) : Connection σ :=
  {conn with
    outstandings := {}
    ackStates := fun s => {conn.ackStates s with
      largestAckedByPeer := none, largestNonDsrSequenceNumberAckedByPeer := none}
    transportSettings := {conn.transportSettings with useInflightReorderingThreshold := false}}

namespace Traced

lemma Explained.start (conn : Connection σ) : Explained {conn := conn.unsent} where
  sequenced := ⟨Sound.of_empty rfl trivial,rfl,by simp [unsent],
    by simp [unsent],by simp [unsent]⟩
  ackedBelow := by simp
  remembered := by simp [unsent]
  complete := by simp

theorem ends_perform (cc : Controller σ) {t : Traced σ} (h : t.Explained) {op : Operation} (hop : op.plain) :
    Ends (t.perform cc op) (fun _ => True) Explained := by
  have hsound := h.sequenced.sound
  cases op with
  | send packet => exact Ends.map (ends_send cc h (by simpa [Operation.plain] using hop) nofun)
  | clone index copy => exact Ends.map (ends_clone cc h index copy)
  | processAckFrame pnSpace frame streamAlive ackReceiveTime nowTime =>
    exact Ends.map (ends_hear cc h streamAlive nowTime)
  | implicitAckCryptoStream handshake streamAlive implicitAckTime nowTime =>
    simp only [perform]
    split
    · exact h
    · exact Ends.map (ends_hear cc h streamAlive nowTime)
  | detectLossPackets pnSpace lossTime =>
    exact Ends.map ((ends_detectLossPackets_tellLoss (tracks_true cc) trivial hsound lossTime
      pnSpace (visitorOk_markPacketLoss _ _)).imp fun _ hconn' => h.of_quiet hconn'.1 hconn'.2)
  | onLossDetectionAlarm now =>
    exact Ends.map ((ends_onLossDetectionAlarm (tracks_true cc) trivial trivial hsound now
      (fun _ _ => trivial) fun s => visitorOk_markPacketLoss s _).imp
        fun _ hconn' => h.of_quiet hconn'.1 hconn'.2.1)
  | markZeroRttPacketsLost now =>
    exact Ends.map ((ends_markZeroRttPacketsLost (tracks_true cc) trivial hsound now
      (visitorOk_markPacketLoss _ _)).imp fun _ hconn' => h.of_quiet hconn'.1.1 hconn'.1.2)
  | installOneRttWriteCipher =>
    exact h.of_quiet (hsound.congr rfl (fun _ => rfl) rfl) (.of_eq rfl rfl rfl rfl)

/-- Losses by packet threshold in a state of a run: none is missing, and those that the next
call of `detectLossPackets` declares, in an alarm or in an ack, are explained. -/
structure LossesByThreshold (t : Traced σ) : Prop where
  complete : ∀ s,∀ p ∈ t.conn.outstandings.packets,p.live → p.inSpace s →
    ∀ largest,(t.conn.ackStates s).largestAckedByPeer = some largest → p.packetNum<largest →
      ∀ n ∈ t.acked s,¬p.seq+t.conn.lossState.reorderingThreshold < n
  alarm : ∀ lossVisitor lossTime s r,t.conn.detectLossPackets lossVisitor lossTime s none = .ok r →
    LossesExplained (t.acked s) s lossTime t.conn.outstandings.packets r.1 r.2
  ack : ∀ s frame lossVisitor streamAlive ackReceiveTime nowTime r,
    t.conn.applyAck s frame lossVisitor streamAlive ackReceiveTime nowTime = .ok r →
    LossesExplained (t.acked s++r.2.1.seqs) s ackReceiveTime
      (t.conn.outstandings.packets.map (marked s frame.ackBlocks)) r.1 r.2.2

lemma Explained.lossesByThreshold {t : Traced σ} (h : t.Explained) : t.LossesByThreshold := by
  have hvisitor : ∀ (lossVisitor : LossVisitor) s packets,
      VisitorOk (fun _ => True) lossVisitor s packets := by
    intro lossVisitor s packets p _ _ _ b
    cases lossVisitor p b <;> trivial
  constructor
  case complete =>
    intro s p hp hlive hspace largest _ _ n hn
    simp only [inSpace,decide_eq_true_eq] at hspace
    subst hspace
    exact Nat.not_lt.mpr (h.complete p hp hlive n hn)
  case alarm =>
    intro lossVisitor lossTime s r hr
    refine (Ends.of_eq_ok (ends_detectLossPackets_of_plain trivial
      h.sequenced.sound.consistent (hvisitor _ _ _) h.sequenced.plain h.sequenced.inflight
      fun m hm => ?_) hr).2
    rw [scanFor_largest_none] at hm
    exact h.remembered s m hm
  case ack =>
    intro s frame lossVisitor streamAlive ackReceiveTime nowTime r hr
    obtain ⟨conn₀,hstage,heq,-⟩ := Ends.of_eq_ok (ends_applyAck_stage trivial trivial
      h.sequenced.sound.consistent h.sequenced.sound.unscheduled s frame streamAlive ackReceiveTime nowTime
      (hvisitor lossVisitor _ _)) hr
    obtain ⟨q,hdetect,hevent,alarm,hconn₁⟩ := handleAckForLoss_eq_ok heq
    obtain ⟨-,hexplained⟩ := (ends_detect_of_stage h hstage).of_eq_ok hdetect
    simp only at hevent hconn₁
    rw [hevent,hstage.packets] at hexplained
    rw [hconn₁]
    exact ⟨hexplained.judged,hexplained.sound,hexplained.bytes,hexplained.packets,hexplained.timer⟩

/-- In every state that a run without DSR packets reaches, no live packet of a space lies
more than the reordering threshold below a packet acked in it, and whatever is declared
lost next is explained by the packets acked so far or by time. -/
theorem losses_by_packet_threshold (cc : Controller σ) (conn : Connection σ) (ops : List Operation)
    (hops : ∀ op ∈ ops,op.plain) :
    Traced.conn <$> runFallible (Traced.perform cc) {conn := conn.unsent} ops =
        runFallible (Connection.perform cc) conn.unsent ops ∧
      ∀ t,runFallible (Traced.perform cc) {conn := conn.unsent} ops = .ok t → t.LossesByThreshold := by
  refine ⟨conn_runFallible cc _ ops,fun t ht => ?_⟩
  have hrun := ends_runFallible (Explained.start conn) fun t h op hop => ends_perform cc h (hops op hop)
  exact (hrun.of_eq_ok ht).lossesByThreshold

theorem losses_by_packet_threshold_five :
    let cc : Controller Unit := fun s _ => .done s
    let conn : Connection Unit := {control := {cc := ()}}
    let packet : SentPacket :=
      {protectionType := .initial, frames := [.writeCryptoFrame], sentTime := 0, encodedSize := 1200}
    let ops : List Operation := [.send packet,.send packet,.send packet,.send packet,.send packet,
      .processAckFrame .initial {largestAcked := 4, ackBlocks := [⟨4,4⟩]} (fun _ => true) 1000 1000]
    ∃ t,runFallible (Traced.perform cc) {conn := conn.unsent} ops = .ok t ∧
      (t.conn.outstandings.packets.filter declaredLost).map
        packetNum = [0] ∧ t.LossesByThreshold := by
  intro cc conn packet ops
  obtain ⟨-,hkept⟩ := losses_by_packet_threshold cc conn ops (by decide)
  have hlost : (fun t : Traced Unit => (t.conn.outstandings.packets.filter declaredLost).map packetNum) <$>
      runFallible (Traced.perform cc) {conn := conn.unsent} ops = .ok [0] := by decide +kernel
  cases hrun : runFallible (Traced.perform cc) {conn := conn.unsent} ops with
  | error e =>
    rw [hrun] at hlost
    cases hlost
  | ok t =>
    rw [hrun] at hlost
    exact ⟨t,rfl,Except.ok.inj hlost,hkept t hrun⟩

end Traced

end QuicWestwood
