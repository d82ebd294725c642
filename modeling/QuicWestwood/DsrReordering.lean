import QuicWestwood.AckBookkeeping

/-! DSR packets are meant to have a timeline of their own: the index of the packet in its stream. The scan reads
the index of a packet only after it has chosen the number that it compares, which is the packet number. -/
namespace QuicWestwood
open OutstandingPacket List

/-- A live packet of a DSR backend; only the other packets have a sequence number. -/
structure OutstandingPacket.CarriesDsr (p : OutstandingPacket) (streamId idx : ℕ) : Prop where
  frame : ∃ frame,p.frames.head? = some (.writeStreamFrame frame) ∧ frame.fromBufMeta=true ∧
    frame.streamId = streamId ∧ frame.streamPacketIdx=idx
  unsequenced : p.nonDsrPacketSequenceNumber=none
  live : p.live=true
  unmarked : p.metadata.lossReorderDistance=none

def OutstandingPacket.lostByReorder (p : OutstandingPacket) : Bool :=
  p.declaredLost && p.metadata.lossReorderDistance.isSome

def LargestAcked.indexIn (streamId : ℕ) (details : ℕ × Option ℕ) : Option ℕ :=
  if details.1=streamId then details.2 else none

def AckEvent.streamPacketIndices (ack : AckEvent) (streamId : ℕ) : List ℕ :=
  (ack.ackedPackets.flatMap AckPacket.detailsPerStream).filterMap (LargestAcked.indexIn streamId)

namespace LargestAcked

def larger (best : Option ℕ) (idx : ℕ) : Option ℕ := some (max (best.getD idx) idx)

variable (streamId : ℕ)

lemma lookup_filter_ne {other : ℕ} (h : other≠streamId) (l : List (ℕ × ℕ)) :
    (l.filter fun e => e.1≠other).lookup streamId = l.lookup streamId := by
  induction l with
  | nil => rfl
  | cons e l ih =>
    by_cases he : e.1=other
    · have hne : (streamId == e.1) = false := by simpa [he] using h.symm
      rw [filter_cons_of_neg (by simp [he]),ih,lookup_cons,hne]
    · rw [filter_cons_of_pos (by simp [he]),lookup_cons,lookup_cons,ih]

lemma lookup_noteStream (seq : ℕ) (l : LargestAcked) (details : ℕ × Option ℕ) :
    (noteStream seq l details).dsr.lookup streamId =
      (indexIn streamId details).toList.foldl larger (l.dsr.lookup streamId) := by
  obtain ⟨id,idx⟩ := details
  cases idx with
  | none => simp [noteStream,noteNonDsr,indexIn]
  | some idx =>
    by_cases hid : id=streamId
    · simp [noteStream,indexIn,hid,larger]
    · have hne : (streamId == id) = false := by simpa using Ne.symm hid
      simpa [noteStream,indexIn,hid,lookup_cons,hne] using lookup_filter_ne streamId hid l.dsr

lemma lookup_foldl_noteStream (seq : ℕ) (l : LargestAcked) (details : List (ℕ × Option ℕ)) :
    (details.foldl (noteStream seq) l).dsr.lookup streamId =
      (details.filterMap (indexIn streamId)).foldl larger (l.dsr.lookup streamId) := by
  induction details generalizing l with
  | nil => rfl
  | cons e es ih =>
    rw [foldl_cons,ih,lookup_noteStream,filterMap_cons]
    cases indexIn streamId e <;> rfl

lemma lookup_foldl_notePacket (l : LargestAcked) (as : List AckPacket) :
    (as.foldl notePacket l).dsr.lookup streamId =
      ((as.flatMap AckPacket.detailsPerStream).filterMap (indexIn streamId)).foldl larger (l.dsr.lookup streamId) := by
  induction as generalizing l with
  | nil => rfl
  | cons a as ih =>
    have hdsr : (l.notePacket a).dsr =
        (a.detailsPerStream.foldl (noteStream a.nonDsrPacketSequenceNumber) l).dsr := by
      unfold notePacket
      split_ifs <;> rfl
    rw [foldl_cons,ih,hdsr,lookup_foldl_noteStream,flatMap_cons,filterMap_append,foldl_append]

lemma foldl_larger (idx : ℕ) (l : List ℕ) : l.foldl larger (some idx) = some (l.foldl max idx) := by
  induction l generalizing idx with
  | nil => rfl
  | cons i l ih => exact ih (max idx i)

lemma lookup_lossScan {σ : Type} (conn : Connection σ) (lossTime : ℤ) (pnSpace : PacketNumberSpace)
    (ack : AckEvent) (largestAcked : ℕ) :
    (conn.lossScan lossTime pnSpace (some ack) largestAcked).largestDsrAckedSequenceNumber.lookup streamId =
      (ack.streamPacketIndices streamId).max? := by
  have hdsr (l : LargestAcked) (before : Option ℕ) : (l.orBefore before).dsr = l.dsr := by
    unfold orBefore
    split_ifs <;> rfl
  unfold Connection.lossScan
  dsimp only
  rw [hdsr,ofAckEvent,lookup_foldl_notePacket,← AckEvent.streamPacketIndices]
  cases ack.streamPacketIndices streamId with
  | nil => rfl
  | cons i l =>
    rw [max?_cons',foldl_cons,lookup_nil,larger,Option.getD_none,max_self,foldl_larger]

end LargestAcked

namespace LossScan
variable {scan : LossScan} {E : Failure → Prop} {lossVisitor : LossVisitor} {total : ℕ} {t : LossTally}
  {ids : Finset ClonedPacketIdentifier} {pre post : List OutstandingPacket} {p : OutstandingPacket}
  {streamId idx : ℕ}

variable (scan) in
/-- The threshold while the list stands as `l`. -/
def thresholdAt (l : List OutstandingPacket) : ℕ :=
  if scan.settings.useInflightReorderingThreshold then
    max scan.reorderingThreshold (min (l.countP live/2) kMaxReorderingThreshold)
  else scan.reorderingThreshold

lemma thresholdToUse_eq {l : List OutstandingPacket} (h : t.Balanced total ids l) (hsize : scan.size=l.length) :
    scan.thresholdToUse t.counts = .ok (scan.thresholdAt l) := by
  unfold thresholdToUse thresholdAt
  split_ifs
  · rw [hsize,h.counted.numOutstanding_eq]
    rfl
  · rfl

lemma reorderDistance_of_dsr (hp : p.CarriesDsr streamId idx) (hbuilt : p.FromScheduler) :
    scan.reorderDistance p =
      .ok ((scan.largestDsrAckedSequenceNumber.lookup streamId).getD idx-p.packetNum) := by
  obtain ⟨frame,hframe,hmeta,rfl,rfl⟩ := hp.frame
  have hdsr : p.isDSRPacket=true := hbuilt.bufMeta frame (mem_of_mem_head? hframe) hmeta
  unfold reorderDistance largestAckedForComparison currentPacketNum
  rw [hframe,hp.unsequenced]
  dsimp only
  rw [if_pos hmeta,hdsr,check_true]
  simp only [bind,Except.bind,pure,Except.pure,Option.getD_none]
  congr 1
  omega

lemma ends_processPacket_of_dsr (hE : E lostBytesOverflow)
    (hvisitor : p.live → p.inSpace scan.pnSpace → ∀ b,Ends (lossVisitor p b) E fun _ => True)
    (hp : p.CarriesDsr streamId idx) (hbuilt : p.FromScheduler) (hspace : p.inSpace scan.pnSpace = true)
    (hsize : scan.size = (pre++p::post).length) (h : t.Balanced total ids (pre++p::post)) :
    Ends (scan.processPacket lossVisitor t p) E fun r => r.1.Balanced total ids (pre++(r.2++post)) ∧
      ∃ q,r.2 = [q] ∧ (q.lostByReorder=true ↔ scan.thresholdAt (pre++p::post)+p.packetNum <
        (scan.largestDsrAckedSequenceNumber.lookup streamId).getD idx) := by
  obtain ⟨hlost,hsched⟩ : p.declaredLost=false ∧ p.metadata.scheduledForDestruction=false := by
    simpa [live] using hp.live
  unfold processPacket
  rw [hlost,hsched,hspace,if_neg (by decide),reorderDistance_of_dsr hp hbuilt,ByteCodec.ok_bind,
    thresholdToUse_eq h hsize,ByteCodec.ok_bind]
  split_ifs with hdeclared
  · refine (scan.ends_declareLost hE (hvisitor hp.live hspace) h hp.live _ _).imp fun r hr => ⟨hr.2.1,_,hr.1,?_⟩
    by_cases hreorder : scan.thresholdAt (pre++p::post) <
        (scan.largestDsrAckedSequenceNumber.lookup streamId).getD idx-p.packetNum
    · simp only [lostByReorder,markLost,hreorder,decide_true,if_true]
      simp only [Option.isSome_some,Bool.and_self,true_iff]
      omega
    · simp only [lostByReorder,markLost,hreorder,decide_false,Bool.false_eq_true,if_false,hp.unmarked]
      simp only [Option.isSome_none,Bool.and_false,Bool.false_eq_true,false_iff]
      omega
  · simp only [Bool.or_eq_true,decide_eq_true_eq,not_or] at hdeclared
    refine ⟨⟨h.counted,h.ids,h.bytes,h.built⟩,p,rfl,?_⟩
    simp only [lostByReorder,hlost,Bool.false_and,Bool.false_eq_true,false_iff]
    omega

lemma span_of_stop {f : OutstandingPacket → Bool} (h : f p = false) (pre post : List OutstandingPacket) :
    (pre++p::post).takeWhile f = pre.takeWhile f ∧ (pre++p::post).dropWhile f = pre.dropWhile f++p::post := by
  induction pre with
  | nil => simp [h]
  | cons q pre ih =>
    cases hq : f q with
    | false => simp [hq]
    | true => simp [hq,ih]

theorem ends_processOutstandingsForLoss_of_dsr (hE : E lostBytesOverflow)
    (hvisitor : ∀ q ∈ pre++p::post,q.live → q.inSpace scan.pnSpace →
      ∀ b,Ends (lossVisitor q b) E fun _ => True)
    (hbuilt : ∀ q ∈ pre++p::post,q.FromScheduler) (hsorted : SortedByPacketNum (pre++p::post))
    (hsize : scan.size = (pre++p::post).length) (h : t.Balanced total ids (pre++p::post))
    (hp : p.CarriesDsr streamId idx) (hspace : p.inSpace scan.pnSpace = true) :
    Ends (processOutstandingsForLoss scan lossVisitor t (pre++p::post)) E fun r =>
      ∃ pre' q post',r.2 = pre'++q::post' ∧ pre'.length=pre.length ∧
        (q.lostByReorder=true ↔ p.packetNum < scan.largestAcked ∧
          scan.thresholdAt (pre'++p::post)+p.packetNum <
            (scan.largestDsrAckedSequenceNumber.lookup streamId).getD idx) := by
  obtain ⟨hlost,hsched⟩ : p.declaredLost=false ∧ p.metadata.scheduledForDestruction=false := by
    simpa [live] using hp.live
  have hfirst : (!(p.live && p.inSpace scan.pnSpace)) = false := by rw [hp.live,hspace]; rfl
  obtain ⟨htake,hdrop⟩ := span_of_stop (f := fun q => !(q.live && q.inSpace scan.pnSpace)) hfirst pre post
  unfold processOutstandingsForLoss OutstandingsInfo.getNextOutstandingPacket
  rw [htake,hdrop]
  dsimp only
  have hpre := takeWhile_append_dropWhile (p := fun q => !(q.live && q.inSpace scan.pnSpace)) (l := pre)
  generalize pre.takeWhile (fun q => !(q.live && q.inSpace scan.pnSpace)) = front at hpre ⊢
  generalize pre.dropWhile (fun q => !(q.live && q.inSpace scan.pnSpace)) = mid at hpre ⊢
  subst hpre
  by_cases hbelow : p.packetNum < scan.largestAcked
  · -- the loop reaches the packet, since the packets before it have smaller numbers
    have hcontinues : ∀ q ∈ mid,scan.continues q = true := by
      intro q hq
      have hle := (pairwise_append.mp hsorted).2.2 q (mem_append_right _ hq) p (by simp)
      simp only [continues,Bool.or_eq_true,decide_eq_true_eq]
      omega
    have hself : scan.continues p = true := by simp [continues,hbelow]
    rw [takeWhile_append_of_pos hcontinues,dropWhile_append_of_pos hcontinues,
      takeWhile_cons_of_pos hself,dropWhile_cons_of_pos hself,sweep_append]
    have hpost := takeWhile_append_dropWhile (p := scan.continues) (l := post)
    generalize post.takeWhile scan.continues = next at hpost ⊢
    generalize post.dropWhile scan.continues = back at hpost ⊢
    subst hpost
    simp only [append_assoc] at hvisitor hbuilt hsize h
    refine ((scan.ends_sweep_processPacket hE (fun q hq => hvisitor q (by simp [hq]))
      (fun q hq => hbuilt q (by simp [hq])) hsize h).bind ?_).bind fun r hr => hr
    rintro ⟨t₁,mid'⟩ ⟨hbal,hjudged⟩
    have hlen := hjudged.length_eq
    rw [← append_assoc] at hbal
    have hsize₁ : scan.size = (front++mid'++p::(next++back)).length := by
      rw [hsize]
      simp [hlen]
    refine Ends.map ((ends_processPacket_of_dsr hE (hvisitor p (by simp)) hp (hbuilt p (by simp)) hspace hsize₁
      hbal).bind ?_)
    rintro ⟨t₂,out⟩ ⟨hbal₂,q,rfl,hiff⟩
    have hbal₃ : t₂.Balanced total ids (front++mid'++[q]++(next++back)) := by simpa using hbal₂
    refine (scan.ends_sweep_processPacket hE (fun q hq => hvisitor q (by simp [hq]))
      (fun q hq => hbuilt q (by simp [hq])) (by rw [hsize₁]; simp) hbal₃).bind ?_
    rintro ⟨t₃,next'⟩ -
    refine ⟨front++mid',q,next'++back,by simp,by simp [hlen],?_⟩
    rw [hiff]
    exact (and_iff_right hbelow).symm
  · have hstop : scan.continues p = false := by simp [continues,hsched,hbelow]
    obtain ⟨htake,hdrop⟩ := span_of_stop hstop mid post
    rw [htake,hdrop]
    have hmid := takeWhile_append_dropWhile (p := scan.continues) (l := mid)
    generalize mid.takeWhile scan.continues = seen at hmid ⊢
    generalize mid.dropWhile scan.continues = unseen at hmid ⊢
    subst hmid
    simp only [append_assoc] at hvisitor hbuilt hsize h
    refine (scan.ends_sweep_processPacket hE (fun q hq => hvisitor q (by simp [hq]))
      (fun q hq => hbuilt q (by simp [hq])) hsize h).bind ?_
    rintro ⟨t₁,seen'⟩ ⟨-,hjudged⟩
    refine ⟨front++(seen'++unseen),p,post,by simp,by simp [hjudged.length_eq],?_⟩
    simp [lostByReorder,hlost,hbelow]

end LossScan

namespace Connection

/-- A DSR packet is judged by the indices in its stream exactly where the packet number stands on the same side
of the largest acked index as the index of the packet does. -/
theorem dsr_reordering_by_index_iff {σ : Type} {E : Failure → Prop} (hE : E lostBytesOverflow) (conn : Connection σ)
    (h : conn.outstandings.Consistent) {lossVisitor : LossVisitor} {pnSpace : PacketNumberSpace}
    (hvisitor : VisitorOk E lossVisitor pnSpace conn.outstandings.packets) (ack : AckEvent) (lossTime : ℤ)
    (largestAcked : ℕ) (pre post : List OutstandingPacket) {p : OutstandingPacket}
    (hpackets : conn.outstandings.packets = pre++p::post) {streamId idx : ℕ} (hp : p.CarriesDsr streamId idx)
    (hspace : p.inSpace pnSpace = true) :
    let scan := conn.lossScan lossTime pnSpace (some ack) largestAcked
    let largest := (ack.streamPacketIndices streamId).max?
    Ends (processOutstandingsForLoss scan lossVisitor
      {counts := conn.outstandings.toOutstandingCounts, lossEvent := {lossTime}} conn.outstandings.packets) E
      fun r => ∃ pre' q post',r.2 = pre'++q::post' ∧ pre'.length=pre.length ∧
        let threshold := scan.thresholdAt (pre'++p::post)
        ((q.lostByReorder=true ↔ p.packetNum<largestAcked ∧ ∃ j ∈ largest,threshold+idx < j) ↔
          (p.packetNum<largestAcked →
            (threshold+p.packetNum < largest.getD idx ↔ threshold+idx < largest.getD idx))) := by
  intro scan largest
  have hordered := h.ordered.sorted
  have hbuilt := h.built
  have hbalanced : LossTally.Balanced (liveBytes conn.outstandings.packets)
      conn.outstandings.clonedPacketIdentifiers
      {counts := conn.outstandings.toOutstandingCounts, lossEvent := {lossTime}} conn.outstandings.packets :=
    ⟨h.counted,subset_rfl,rfl,LossEvent.Built.start lossTime⟩
  have hsize : scan.size=conn.outstandings.packets.length := rfl
  unfold VisitorOk at hvisitor
  rw [hpackets] at hordered hbuilt hbalanced hsize hvisitor ⊢
  refine (LossScan.ends_processOutstandingsForLoss_of_dsr hE hvisitor hbuilt hordered hsize hbalanced hp
    hspace).imp ?_
  rintro r ⟨pre',q,post',hr,hlen,hiff⟩
  refine ⟨pre',q,post',hr,hlen,?_⟩
  have hbeyond (n : ℕ) : (∃ j ∈ largest,n+idx < j) ↔ n+idx < largest.getD idx := by
    cases largest <;> simp
  rw [LargestAcked.lookup_lossScan] at hiff
  dsimp only
  rw [hiff,hbeyond]
  exact and_congr_right_iff

def tenthPacket : OutstandingPacket where
  packetNum := 10
  protectionType := .keyPhaseZero
  frames := [.writeStreamFrame ⟨4,0,60,false,true,0⟩]
  metadata := {time := 0, encodedSize := 100}
  isDSRPacket := true

def withTenthPacket : Connection Unit where
  outstandings := {packets := [tenthPacket], dsrCount := 1, packetCount := fun s => if s = .appData then 1 else 0}
  control := {cc := ()}

def ackOfTwentieth : AckEvent where
  ackTime := 0
  ackedPackets := [⟨20,0,{time := 0, encodedSize := 100},[(4,some 5)],none⟩]

lemma withTenthPacket_consistent : withTenthPacket.outstandings.Consistent where
  counted :=
    {declaredLost := rfl
     scheduled := rfl
     dsr := rfl
     cloned := fun s => by cases s <;> rfl
     plain := fun s => by cases s <;> rfl
     identifierSpace := by simp [withTenthPacket,tenthPacket]
     identified := by simp [withTenthPacket]}
  ordered := pairwise_singleton _ _
  built p hp := by
    obtain rfl := mem_singleton.mp hp
    exact ⟨fun _ => rfl,fun _ _ _ => rfl⟩

theorem dsr_reordering_by_index_iff_tenth :
    let scan := withTenthPacket.lossScan 0 .appData (some ackOfTwentieth) 20
    let largest := (ackOfTwentieth.streamPacketIndices 4).max?
    Ends (processOutstandingsForLoss scan markPacketLoss
      {counts := withTenthPacket.outstandings.toOutstandingCounts, lossEvent := {lossTime := 0}}
      withTenthPacket.outstandings.packets) (· = lostBytesOverflow)
      fun r => ∃ pre' q post',r.2 = pre'++q::post' ∧ pre'.length=0 ∧
        let threshold := scan.thresholdAt (pre'++tenthPacket::[])
        ((q.lostByReorder=true ↔ 10<20 ∧ ∃ j ∈ largest,threshold+0 < j) ↔
          (10<20 → (threshold+10 < largest.getD 0 ↔ threshold+0 < largest.getD 0))) :=
  dsr_reordering_by_index_iff rfl withTenthPacket withTenthPacket_consistent
    (visitorOk_markPacketLoss .appData _) ackOfTwentieth 0 20 [] [] rfl
    ⟨⟨_,rfl,rfl,rfl,rfl⟩,rfl,rfl,rfl⟩ rfl

/-- Five later packets of the stream are acked or passed over, but the packet stays. -/
theorem dsr_packet_outruns_threshold :
    let scan := withTenthPacket.lossScan 0 .appData (some ackOfTwentieth) 20
    (ackOfTwentieth.streamPacketIndices 4).max? = some 5 ∧ scan.thresholdAt [tenthPacket]+0 < 5 ∧
      (Prod.snd <$> processOutstandingsForLoss scan markPacketLoss
        {counts := withTenthPacket.outstandings.toOutstandingCounts, lossEvent := {lossTime := 0}}
        [tenthPacket]) = .ok [tenthPacket] := by
  refine ⟨rfl,by decide,by decide +kernel⟩

end Connection

end QuicWestwood
