import QuicWestwood.ConnectionRun

/-! Without DSR packets and with the reordering threshold of the loss state, the verdict on a packet depends on
the packet alone. The scan compares it with the sequence numbers of the present ack event only; that no live
packet is ever left too far below an acked one is an invariant of the whole run. -/
namespace QuicWestwood
open LossScan List OutstandingPacket

def OutstandingPacket.seq (p : OutstandingPacket) : ℕ := p.nonDsrPacketSequenceNumber.getD 0

structure OutstandingPacket.Plain (p : OutstandingPacket) : Prop where
  notDsr : p.isDSRPacket=false
  sequenced : p.nonDsrPacketSequenceNumber = some p.seq

lemma OutstandingPacket.Becomes.seq {p q : OutstandingPacket} (h : p.Becomes q) : q.seq=p.seq := by
  rw [OutstandingPacket.seq,h.sequenceNumber,OutstandingPacket.seq]

lemma OutstandingPacket.Becomes.plain {p q : OutstandingPacket} (h : p.Becomes q) (hp : p.Plain) :
    q.Plain := ⟨h.isDSRPacket.trans hp.notDsr,by rw [h.sequenceNumber,h.seq,hp.sequenced]⟩

structure LossEvent.SumsUp (e : LossEvent) (ps : List OutstandingPacket) : Prop where
  bytes : e.lostBytes = (ps.map OutstandingPacket.size).sum
  packets : e.lostPackets = ps.length % 2^32
  reported : e.largestLostPacketNum.isSome = !ps.isEmpty

lemma LossEvent.SumsUp.add {e e' : LossEvent} {ps : List OutstandingPacket} {p : OutstandingPacket}
    (h : e.SumsUp ps) (he : e.addLostPacket p = .ok e') : e'.SumsUp (ps++[p]) := by
  unfold LossEvent.addLostPacket at he
  split_ifs at he
  obtain rfl := Except.ok.inj he
  refine ⟨?_,?_,by simp⟩
  · simp [h.bytes]
  · change (e.lostPackets+1) % 2^32 = _
    rw [h.packets,length_append,length_singleton]
    omega

lemma LossTally.reported_of_sumsUp {t : LossTally} {ps : List OutstandingPacket}
    (h : t.lossEvent.SumsUp ps) : bytesLost t.reported = t.lossEvent.lostBytes ∧
      (t.reported.map LossEvent.lostPackets).getD 0 = t.lossEvent.lostPackets := by
  unfold reported
  split_ifs with hsome
  · exact ⟨rfl,rfl⟩
  · rw [h.reported] at hsome
    have hnil : ps=[] := by simpa using hsome
    rw [h.bytes,h.packets,hnil]
    exact ⟨rfl,rfl⟩

namespace LossScan
variable (scan : LossScan)

def distance (p : OutstandingPacket) : ℕ := scan.largestNonDsrAckedSequenceNumber.getD p.seq-p.seq

def lostByReorder (p : OutstandingPacket) : Bool := scan.reorderingThreshold < scan.distance p

def considers (p : OutstandingPacket) : Bool :=
  p.live && p.inSpace scan.pnSpace && p.packetNum < scan.largestAcked

def declares (p : OutstandingPacket) : Bool :=
  scan.considers p && (scan.lostByTimeout p || scan.lostByReorder p)

def waitsFor (p : OutstandingPacket) : Bool :=
  scan.considers p && !(scan.lostByTimeout p || scan.lostByReorder p)

def verdict (p : OutstandingPacket) : OutstandingPacket :=
  if scan.declares p then scan.markLost p (scan.distance p) (scan.lostByReorder p) else p

variable {scan} {p : OutstandingPacket}

lemma reorderDistance_of_plain (hp : p.Plain) (hbuilt : p.FromScheduler) :
    scan.reorderDistance p = .ok (scan.distance p) := by
  have hnum : currentPacketNum p = p.seq := by rw [currentPacketNum,hp.sequenced]; rfl
  have hlargest : scan.largestAckedForComparison p =
      .ok (scan.largestNonDsrAckedSequenceNumber.getD p.seq) := by
    unfold largestAckedForComparison
    split
    · rename_i frame hframe
      split_ifs with hmeta
      · have hdsr := hbuilt.bufMeta frame (mem_of_mem_head? hframe) hmeta
        rw [hp.notDsr] at hdsr
        cases hdsr
      · rw [hnum]
    · rw [hnum]
  rw [reorderDistance,hlargest,hnum]
  change Except.ok _ = Except.ok _
  rw [distance]
  congr 1
  omega

variable {E : Failure → Prop} {lossVisitor : LossVisitor} {total : ℕ} {t : LossTally}
  {ids : Finset ClonedPacketIdentifier} {pre post : List OutstandingPacket}

lemma ends_processPacket_of_plain (hE : E lostBytesOverflow)
    (hvisitor : p.live → p.inSpace scan.pnSpace → ∀ b,Ends (lossVisitor p b) E fun _ => True)
    (hp : p.Plain) (hbuilt : p.FromScheduler)
    (hinflight : scan.settings.useInflightReorderingThreshold=false) (hcontinues : scan.continues p)
    (h : t.Balanced total ids (pre++p::post)) {lost : List OutstandingPacket}
    (hsums : t.lossEvent.SumsUp lost) :
    Ends (scan.processPacket lossVisitor t p) E fun r =>
      r.2 = [scan.verdict p] ∧ r.1.Balanced total ids (pre++(scan.verdict p::post)) ∧
        r.1.shouldSetTimer = (t.shouldSetTimer || scan.waitsFor p) ∧
        r.1.lossEvent.SumsUp (lost++[p].filter scan.declares) := by
  have hthreshold : scan.thresholdToUse t.counts = .ok scan.reorderingThreshold := by
    rw [thresholdToUse,hinflight]
    rfl
  unfold processPacket
  split_ifs with hskip
  · have hnot : scan.considers p = false := by
      rw [considers,live]
      revert hskip
      cases p.metadata.scheduledForDestruction <;> cases p.inSpace scan.pnSpace <;>
        cases p.declaredLost <;> simp
    have hdeclares : scan.declares p = false := by rw [declares,hnot,Bool.false_and]
    have hverdict : scan.verdict p = p := by rw [verdict,hdeclares]; rfl
    rw [hverdict,waitsFor,hnot,filter_singleton,hdeclares]
    exact ⟨rfl,h,by simp,by simpa using hsums⟩
  · simp only [Bool.or_eq_true,Bool.not_eq_true',not_or,Bool.not_eq_true,Bool.not_eq_false] at hskip
    obtain ⟨⟨hsched,hspace⟩,hlost⟩ := hskip
    have hlive : p.live=true := by simp [live,hsched,hlost]
    have hconsiders : scan.considers p = true := by
      simpa [considers,hlive,hspace,continues,hsched] using hcontinues
    have hdeclares : scan.declares p = (scan.lostByTimeout p || scan.lostByReorder p) := by
      rw [declares,hconsiders,Bool.true_and]
    rw [reorderDistance_of_plain hp hbuilt,hthreshold,verdict,waitsFor,hconsiders,← hdeclares,
      filter_singleton]
    change Ends (if scan.lostByTimeout p || scan.lostByReorder p then _ else _) _ _
    rw [← hdeclares]
    cases hverdict : scan.declares p with
    | true =>
      refine (scan.ends_declareLost hE (hvisitor hlive hspace) h hlive _ _).imp ?_
      rintro r ⟨hr,hbal,htimer,hevent⟩
      rw [hr] at hbal
      exact ⟨hr,hbal,by simpa using htimer,hsums.add hevent⟩
    | false => exact ⟨rfl,⟨h.counted,h.ids,h.bytes,h.built⟩,by simp,by simpa using hsums⟩

lemma unconsidered (h : scan.considers p = false) :
    scan.declares p = false ∧ scan.waitsFor p = false ∧ scan.verdict p = p := by
  have hdeclares : scan.declares p = false := by rw [declares,h,Bool.false_and]
  exact ⟨hdeclares,by rw [waitsFor,h,Bool.false_and],by rw [verdict,hdeclares]; rfl⟩

lemma verdict_filter_any {l : List OutstandingPacket} (h : ∀ p ∈ l,scan.considers p = false) :
    l.map scan.verdict = l ∧ l.filter scan.declares = [] ∧ l.any scan.waitsFor = false := by
  refine ⟨?_,?_,?_⟩
  · exact (map_congr_left fun p hp => (unconsidered (h p hp)).2.2).trans (map_id l)
  · exact filter_eq_nil_iff.mpr fun p hp => by simp [(unconsidered (h p hp)).1]
  · exact any_eq_false.mpr fun p hp => by simp [(unconsidered (h p hp)).2.1]

variable (scan) in
lemma not_considers_of_mem_dropWhile {l : List OutstandingPacket} (hsorted : SortedByPacketNum l) :
    ∀ p ∈ l.dropWhile scan.continues,scan.considers p = false := by
  cases hdrop : l.dropWhile scan.continues with
  | nil => simp
  | cons d ds =>
    have hhead := head?_dropWhile_not scan.continues l
    have hsub := List.Pairwise.sublist (dropWhile_sublist scan.continues) hsorted
    rw [hdrop] at hhead hsub
    have hstop : scan.largestAcked≤d.packetNum := by
      simp only [head?_cons,continues,Bool.or_eq_false_iff,decide_eq_false_iff_not,Nat.not_lt] at hhead
      exact hhead.2
    have hlarge : ∀ p ∈ d::ds,scan.largestAcked ≤ p.packetNum := by
      intro p hp
      rcases mem_cons.mp hp with rfl | hp
      · exact hstop
      · exact hstop.trans ((pairwise_cons.mp hsub).1 p hp)
    intro p hp
    rw [considers,decide_eq_false (Nat.not_lt.mpr (hlarge p hp)),Bool.and_false]

theorem ends_processOutstandingsForLoss_of_plain {packets : List OutstandingPacket}
    (hE : E lostBytesOverflow)
    (hvisitor : ∀ p ∈ packets,p.live → p.inSpace scan.pnSpace → ∀ b,Ends (lossVisitor p b) E fun _ => True)
    (hplain : ∀ p ∈ packets,p.Plain) (hbuilt : ∀ p ∈ packets,p.FromScheduler)
    (hinflight : scan.settings.useInflightReorderingThreshold=false)
    (hsorted : SortedByPacketNum packets) (h : t.Balanced total ids packets)
    (htimer : t.shouldSetTimer=false) (hsums : t.lossEvent.SumsUp []) :
    Ends (processOutstandingsForLoss scan lossVisitor t packets) E fun r =>
      r.2 = packets.map scan.verdict ∧ r.1.shouldSetTimer = packets.any scan.waitsFor ∧
        r.1.lossEvent.SumsUp (packets.filter scan.declares) := by
  have hfront : ∀ p ∈ packets.takeWhile (fun p => !(p.live && p.inSpace scan.pnSpace)),
      scan.considers p = false := by
    intro p hp
    have hskip := mem_takeWhile_imp hp
    simp only [Bool.not_eq_true'] at hskip
    rw [considers,hskip,Bool.false_and]
  have hback := not_considers_of_mem_dropWhile scan
    (List.Pairwise.sublist (dropWhile_sublist fun p => !(p.live && p.inSpace scan.pnSpace)) hsorted)
  have hsplit := scan.packets_split packets
  unfold processOutstandingsForLoss
  change ∀ p ∈ (OutstandingsInfo.getNextOutstandingPacket scan.pnSpace packets).dropWhile scan.continues,
    scan.considers p = false at hback
  generalize OutstandingsInfo.getNextOutstandingPacket scan.pnSpace packets = rest at hsplit hback ⊢
  generalize packets.takeWhile (fun p => !(p.live && p.inSpace scan.pnSpace)) = front at hsplit hfront ⊢
  obtain ⟨hfrontMap,hfrontFilter,hfrontAny⟩ := verdict_filter_any hfront
  obtain ⟨hbackMap,hbackFilter,hbackAny⟩ := verdict_filter_any hback
  have hmem : ∀ p ∈ rest.takeWhile scan.continues,p ∈ packets := by
    intro p hp
    rw [hsplit]
    exact mem_append_right _ (mem_append_left _ hp)
  refine Ends.bind (ends_sweep_map (g := scan.verdict) (J := fun t done todo =>
    t.Balanced total ids (front++done.map scan.verdict++(todo++rest.dropWhile scan.continues)) ∧
      t.shouldSetTimer = done.any scan.waitsFor ∧ t.lossEvent.SumsUp (done.filter scan.declares)) ?_ ?_) ?_
  · rintro t done p todo hsuffix ⟨hbal,htimer,hsums⟩
    have hp := hsuffix.subset mem_cons_self
    refine (ends_processPacket_of_plain hE (hvisitor p (hmem p hp)) (hplain p (hmem p hp))
      (hbuilt p (hmem p hp)) hinflight (mem_takeWhile_imp hp) hbal hsums).imp ?_
    rintro r ⟨hr,hbal',htimer',hsums'⟩
    refine ⟨hr,?_,?_,?_⟩
    · simpa using hbal'
    · rw [htimer',htimer,any_append,any_cons,any_nil,Bool.or_false]
    · rwa [filter_append]
  · refine ⟨?_,by simpa using htimer,by simpa using hsums⟩
    rw [map_nil,append_nil,← hsplit]
    exact h
  · rintro r ⟨hr,-,htimer,hsums⟩
    refine ⟨?_,?_,?_⟩
    · change front++(r.2++_) = _
      conv_rhs => rw [hsplit]
      rw [map_append,map_append,hfrontMap,hbackMap,hr]
    · conv_rhs => rw [hsplit]
      rw [any_append,any_append,hfrontAny,hbackAny,Bool.false_or,Bool.or_false]
      exact htimer
    · rw [hsplit,filter_append,filter_append,hfrontFilter,hbackFilter,nil_append,append_nil]
      exact hsums

end LossScan

def newlyLost (before after : List OutstandingPacket) : List OutstandingPacket :=
  ((before.zip after).filter fun pq => !pq.1.declaredLost && pq.2.declaredLost).map Prod.fst

lemma newlyLost_map_verdict (scan : LossScan) (packets : List OutstandingPacket) :
    newlyLost packets (packets.map scan.verdict) = packets.filter scan.declares := by
  induction packets with
  | nil => rfl
  | cons p ps ih =>
    have hhead : (!p.declaredLost && (scan.verdict p).declaredLost) = scan.declares p := by
      unfold verdict
      cases hdeclares : scan.declares p with
      | false => cases hlost : p.declaredLost <;> simp [hlost]
      | true =>
        have hlive : p.live=true := by
          simp only [declares,considers,Bool.and_eq_true] at hdeclares
          exact hdeclares.1.1.1
        simp only [live,Bool.and_eq_true] at hlive
        simp [markLost,hlive.1]
    unfold newlyLost at ih ⊢
    rw [map_cons,zip_cons_cons,filter_cons,filter_cons,hhead]
    split_ifs
    · rw [map_cons,ih]
    · exact ih

namespace LargestAcked

@[simp] lemma noteNonDsr_noteNonDsr (l : LargestAcked) (seq : ℕ) :
    (l.noteNonDsr seq).noteNonDsr seq = l.noteNonDsr seq := by
  simp [noteNonDsr]

lemma foldl_noteStream_of_noIndex {details : List (ℕ × Option ℕ)} (h : ∀ e ∈ details,e.2 = none)
    (hne : details≠[]) (seq : ℕ) (l : LargestAcked) :
    details.foldl (noteStream seq) l = l.noteNonDsr seq := by
  induction details generalizing l with
  | nil => exact absurd rfl hne
  | cons e es ih =>
    have hstep : noteStream seq l e = l.noteNonDsr seq := by rw [noteStream,h e mem_cons_self]
    rw [foldl_cons,hstep]
    cases es with
    | nil => rfl
    | cons e' es' =>
      rw [ih (fun d hd => h d (mem_cons_of_mem _ hd)) (by simp),noteNonDsr_noteNonDsr]

lemma notePacket_of_noIndex {l : LargestAcked} {a : AckPacket} (h : ∀ e ∈ a.detailsPerStream,e.2 = none) :
    l.notePacket a = l.noteNonDsr a.nonDsrPacketSequenceNumber := by
  unfold notePacket
  cases hdetails : a.detailsPerStream with
  | nil => rfl
  | cons e es =>
    rw [← hdetails,foldl_noteStream_of_noIndex h (by simp [hdetails])]
    simp [hdetails]

lemma foldl_notePacket {as : List AckPacket} (h : ∀ a ∈ as,∀ e ∈ a.detailsPerStream,e.2 = none) :
    (as.foldl notePacket {}).dsr = [] ∧ ((as.foldl notePacket {}).nonDsr = none ↔ as=[]) ∧
      ∀ m,(as.foldl notePacket {}).nonDsr = some m →
        (∃ a ∈ as,a.nonDsrPacketSequenceNumber=m) ∧ ∀ a ∈ as,a.nonDsrPacketSequenceNumber ≤ m := by
  induction as using reverseRecOn with
  | nil => simp
  | append_singleton as a ih =>
    obtain ⟨hdsr,hnone,hmax⟩ := ih fun b hb => h b (mem_append_left _ hb)
    rw [foldl_append,foldl_cons,foldl_nil,notePacket_of_noIndex (h a (by simp))]
    refine ⟨hdsr,by simp [noteNonDsr],fun m hm => ?_⟩
    obtain rfl := Option.some.inj hm
    cases hbefore : (as.foldl notePacket {}).nonDsr with
    | none =>
      rw [hnone.mp hbefore]
      simp
    | some n =>
      obtain ⟨⟨b,hb,hbn⟩,hle⟩ := hmax n hbefore
      rw [Option.getD_some]
      refine ⟨?_,fun c hc => ?_⟩
      · rcases max_choice n a.nonDsrPacketSequenceNumber with heq | heq
        · exact ⟨b,by simp [hb],hbn.trans heq.symm⟩
        · exact ⟨a,by simp,heq.symm⟩
      · rcases mem_append.mp hc with hc | hc
        · exact (hle c hc).trans (le_max_left _ _)
        · rw [mem_singleton.mp hc]
          exact le_max_right _ _

lemma orBefore_nonDsr {l : LargestAcked} (h : l.dsr=[]) (before : Option ℕ) :
    (l.orBefore before).nonDsr = (l.nonDsr <|> before) := by
  unfold orBefore
  rw [h]
  cases before <;> simp

end LargestAcked

namespace Connection
variable {σ : Type} {E : Failure → Prop} {conn : Connection σ} {lossVisitor : LossVisitor}
  {lossTime : ℤ} {pnSpace : PacketNumberSpace} {ackEvent : Option AckEvent}

/-- The scan of `detectLossPackets`; where nothing was acked it considers no packet. -/
def scanFor (conn : Connection σ) (lossTime : ℤ) (pnSpace : PacketNumberSpace)
    (ackEvent : Option AckEvent) : LossScan :=
  conn.lossScan lossTime pnSpace ackEvent ((conn.ackStates pnSpace).largestAckedByPeer.getD 0)

lemma ends_scanForLoss_of_plain (hE : E lostBytesOverflow) (h : conn.outstandings.Consistent)
    (hvisitor : VisitorOk E lossVisitor pnSpace conn.outstandings.packets)
    (hplain : ∀ p ∈ conn.outstandings.packets,p.Plain)
    (hinflight : conn.transportSettings.useInflightReorderingThreshold=false) :
    Ends (conn.scanForLoss lossVisitor lossTime pnSpace ackEvent) E fun r =>
      r.2 = conn.outstandings.packets.map (conn.scanFor lossTime pnSpace ackEvent).verdict ∧
        r.1.shouldSetTimer = conn.outstandings.packets.any (conn.scanFor lossTime pnSpace ackEvent).waitsFor ∧
        r.1.lossEvent.SumsUp
          (conn.outstandings.packets.filter (conn.scanFor lossTime pnSpace ackEvent).declares) := by
  have hsums : LossEvent.SumsUp {lossTime} [] := ⟨rfl,rfl,rfl⟩
  unfold scanForLoss
  cases hlargest : (conn.ackStates pnSpace).largestAckedByPeer with
  | none =>
    have hnone : ∀ p ∈ conn.outstandings.packets,
        (conn.scanFor lossTime pnSpace ackEvent).considers p = false := by
      intro p _
      simp [considers,scanFor,lossScan,hlargest]
    obtain ⟨hmap,hfilter,hany⟩ := verdict_filter_any hnone
    rw [hmap,hfilter,hany]
    exact ⟨rfl,rfl,hsums⟩
  | some largest =>
    have hscan : conn.scanFor lossTime pnSpace ackEvent =
        conn.lossScan lossTime pnSpace ackEvent largest := by
      rw [scanFor,hlargest]
      rfl
    rw [hscan]
    exact ends_processOutstandingsForLoss_of_plain hE hvisitor
      hplain h.built hinflight h.ordered.sorted
      ⟨h.counted,subset_rfl,rfl,LossEvent.Built.start lossTime⟩ rfl hsums

lemma scanFor_largest (conn : Connection σ) {ack : AckEvent}
    (hindex : ∀ a ∈ ack.ackedPackets,∀ e ∈ a.detailsPerStream,e.2 = none) :
    (conn.scanFor lossTime pnSpace (some ack)).largestNonDsrAckedSequenceNumber =
      ((ack.ackedPackets.foldl LargestAcked.notePacket {}).nonDsr <|>
        (conn.ackStates pnSpace).largestNonDsrSequenceNumberAckedByPeer) :=
  LargestAcked.orBefore_nonDsr (LargestAcked.foldl_notePacket hindex).1 _

lemma scanFor_largest_none (conn : Connection σ) :
    (conn.scanFor lossTime pnSpace none).largestNonDsrAckedSequenceNumber =
      (conn.ackStates pnSpace).largestNonDsrSequenceNumberAckedByPeer :=
  (LargestAcked.orBefore_nonDsr (l := LargestAcked.ofAckEvent none) rfl _).trans (Option.none_or ..)

/-- What one call declares lost, and how it is explained by the sequence numbers acked so far. -/
structure LossesExplained (acked : List ℕ) (pnSpace : PacketNumberSpace) (lossTime : ℤ)
    (before : List OutstandingPacket) (conn' : Connection σ) (lossEvent : Option LossEvent) : Prop where
  judged : List.Forall₂ (Judged pnSpace) before conn'.outstandings.packets
  sound : ∀ p ∈ newlyLost before conn'.outstandings.packets,p.live ∧ p.inSpace pnSpace ∧
    (∃ largest,(conn'.ackStates pnSpace).largestAckedByPeer = some largest ∧ p.packetNum<largest) ∧
    ((∃ n ∈ acked,p.seq+conn'.lossState.reorderingThreshold < n) ∨
      1000*conn'.delayUntilLost < lossTime-p.metadata.time)
  bytes : bytesLost lossEvent = ((newlyLost before conn'.outstandings.packets).map OutstandingPacket.size).sum
  packets : (lossEvent.map LossEvent.lostPackets).getD 0 =
    (newlyLost before conn'.outstandings.packets).length % 2^32
  timer : (∃ p ∈ conn'.outstandings.packets,p.live ∧ p.inSpace pnSpace ∧
      ∃ largest,(conn'.ackStates pnSpace).largestAckedByPeer = some largest ∧ p.packetNum<largest) →
    (∃ p ∈ conn'.outstandings.packets,p.live ∧ p.inSpace pnSpace ∧ conn'.outstandings.needsProcess p) →
    (conn'.lossState.lossTimes pnSpace).isSome

lemma judged_verdict (scan : LossScan) (p : OutstandingPacket) : Judged scan.pnSpace p (scan.verdict p) := by
  unfold verdict
  split_ifs with hdeclares
  · simp only [declares,considers,Bool.and_eq_true] at hdeclares
    exact .inr ⟨hdeclares.1.1.1,hdeclares.1.1.2,_,_,rfl⟩
  · exact .inl rfl

lemma of_live_verdict {scan : LossScan} {p : OutstandingPacket} (h : (scan.verdict p).live) :
    scan.verdict p = p ∧ scan.declares p = false := by
  unfold verdict at h ⊢
  split_ifs at h ⊢ with hdeclares
  · rw [markLost_live] at h
    cases h
  · exact ⟨rfl,by simpa using hdeclares⟩

lemma of_declares {acked : List ℕ} {p : OutstandingPacket}
    (hacked : ∀ m,(conn.scanFor lossTime pnSpace ackEvent).largestNonDsrAckedSequenceNumber = some m →
      m ∈ acked)
    (h : (conn.scanFor lossTime pnSpace ackEvent).declares p) : p.live ∧ p.inSpace pnSpace ∧
      (∃ largest,(conn.ackStates pnSpace).largestAckedByPeer = some largest ∧ p.packetNum<largest) ∧
      ((∃ n ∈ acked,p.seq+conn.lossState.reorderingThreshold < n) ∨
        1000*conn.delayUntilLost < lossTime-p.metadata.time) := by
  simp only [declares,considers,Bool.and_eq_true,Bool.or_eq_true,decide_eq_true_eq] at h
  obtain ⟨⟨⟨hlive,hspace⟩,hbelow⟩,hwhy⟩ := h
  refine ⟨hlive,hspace,?_,?_⟩
  · change p.packetNum < (conn.ackStates pnSpace).largestAckedByPeer.getD 0 at hbelow
    cases hlargest : (conn.ackStates pnSpace).largestAckedByPeer with
    | none => simp [hlargest] at hbelow
    | some largest => exact ⟨largest,rfl,by simpa [hlargest] using hbelow⟩
  · rcases hwhy with htime | hreorder
    · exact .inr (of_decide_eq_true htime)
    · have hdistance : conn.lossState.reorderingThreshold <
          (conn.scanFor lossTime pnSpace ackEvent).distance p := of_decide_eq_true hreorder
      unfold distance at hdistance
      cases hlargest : (conn.scanFor lossTime pnSpace ackEvent).largestNonDsrAckedSequenceNumber with
      | none =>
        rw [hlargest,Option.getD_none,Nat.sub_self] at hdistance
        exact absurd hdistance (Nat.not_lt_zero _)
      | some m =>
        rw [hlargest,Option.getD_some] at hdistance
        exact .inl ⟨m,hacked m hlargest,by omega⟩

theorem ends_detectLossPackets_of_plain (hE : E lostBytesOverflow) (h : conn.outstandings.Consistent)
    (hvisitor : VisitorOk E lossVisitor pnSpace conn.outstandings.packets)
    (hplain : ∀ p ∈ conn.outstandings.packets,p.Plain)
    (hinflight : conn.transportSettings.useInflightReorderingThreshold=false) {acked : List ℕ}
    (hacked : ∀ m,(conn.scanFor lossTime pnSpace ackEvent).largestNonDsrAckedSequenceNumber = some m →
      m ∈ acked) :
    Ends (conn.detectLossPackets lossVisitor lossTime pnSpace ackEvent) E fun r =>
      r.1.outstandings.packets =
          conn.outstandings.packets.map (conn.scanFor lossTime pnSpace ackEvent).verdict ∧
        LossesExplained acked pnSpace lossTime conn.outstandings.packets r.1 r.2 := by
  refine (ends_scanForLoss_of_plain hE h hvisitor hplain hinflight).bind ?_
  rintro ⟨t,after⟩ ⟨hafter,htimer,hsums⟩
  simp only at hafter htimer hsums
  refine ⟨hafter,?_⟩
  have hnewly : newlyLost conn.outstandings.packets after =
      conn.outstandings.packets.filter (conn.scanFor lossTime pnSpace ackEvent).declares := by
    rw [hafter,newlyLost_map_verdict]
  constructor
  case judged =>
    change List.Forall₂ (Judged pnSpace) conn.outstandings.packets after
    rw [hafter,forall₂_map_right_iff,forall₂_same]
    exact fun p _ => judged_verdict (conn.scanFor lossTime pnSpace ackEvent) p
  case sound =>
    change ∀ p ∈ newlyLost conn.outstandings.packets after,_
    rw [hnewly]
    exact fun p hp => of_declares hacked (mem_filter.mp hp).2
  case bytes =>
    change bytesLost t.reported = ((newlyLost conn.outstandings.packets after).map _).sum
    rw [hnewly,← hsums.bytes]
    exact (LossTally.reported_of_sumsUp hsums).1
  case packets =>
    change (t.reported.map LossEvent.lostPackets).getD 0 =
      (newlyLost conn.outstandings.packets after).length % 2^32
    rw [hnewly,← hsums.packets]
    exact (LossTally.reported_of_sumsUp hsums).2
  case timer =>
    rintro ⟨p,hp,hlive,hspace,largest,hlargest,hbelow⟩ ⟨q,hq,hqlive,hqspace,hneeds⟩
    change p ∈ after at hp
    change q ∈ after at hq
    have hwait : t.shouldSetTimer=true := by
      rw [hafter] at hp
      obtain ⟨p₀,hp₀,rfl⟩ := mem_map.mp hp
      obtain ⟨heq,hnot⟩ := of_live_verdict hlive
      rw [heq] at hlive hspace hbelow
      rw [htimer,any_eq_true]
      refine ⟨p₀,hp₀,?_⟩
      have hconsiders : (conn.scanFor lossTime pnSpace ackEvent).considers p₀ = true := by
        change (conn.ackStates pnSpace).largestAckedByPeer = some largest at hlargest
        simpa [considers,hlive,scanFor,lossScan,hspace,hlargest] using hbelow
      rw [declares,hconsiders,Bool.true_and] at hnot
      rw [waitsFor,hconsiders,hnot]
      rfl
    have hfind : (earliestUnprocessed t.counts pnSpace after).isSome := by
      rw [earliestUnprocessed,find?_isSome]
      exact ⟨q,hq,by rw [hqlive,hqspace]; exact hneeds⟩
    change (Function.update conn.lossState.lossTimes pnSpace (conn.lossTimer pnSpace t after) pnSpace).isSome
    rw [Function.update_self,lossTimer,if_pos hwait,Option.isSome_map]
    exact hfind

end Connection

end QuicWestwood
