import QuicWestwood.TimestampRanges

/-! The selection loop takes the oldest stored packets up to the requested number, while the loop that writes
starts from the newest one. They agree exactly when nothing is left out. -/
namespace QuicWestwood
open ByteCodec List

def rangeNumbers : ℕ → List RecvdPacketsTimestampsRange → List ℕ
  | _, [] => []
  | n, r::rs =>
    (List.range r.timestampDeltaCount).map (fun i => n-r.gap-i) ++
      rangeNumbers (n-r.gap-r.timestampDeltaCount-1) rs

theorem cutRanges_spec {base : ℕ} {is : List Interval} {ts : List TimestampDelta}
    (htiles : Tiles is ts) (hbelow : BlocksBelow (base+2) is) :
    rangeNumbers base (cutRanges base is ts) = ts.map TimestampDelta.pktNum ∧
      (cutRanges base is ts).flatMap RecvdPacketsTimestampsRange.deltas = ts.map TimestampDelta.delta ∧
      ∀ r ∈ cutRanges base is ts,r.timestampDeltaCount = r.deltas.length := by
  induction is generalizing base ts with
  | nil =>
    obtain rfl : ts=[] := by simpa [Tiles] using htiles
    simp [cutRanges,rangeNumbers]
  | cons i is ih =>
    obtain ⟨hstop,hbelow'⟩ := hbelow
    obtain ⟨run,rest,rfl,hne,hrun,hrest,hnums⟩ := htiles.cons hbelow'
    have hvalid := i.valid
    have hlen : run.length = i.stop+1-i.start := by
      have := congrArg length hnums
      simpa [Interval.elements] using this
    have hnext : BlocksBelow (i.start-2+2) is := hbelow'.mono (by omega)
    obtain ⟨ih₁,ih₂,ih₃⟩ := ih hrest hnext
    rw [cutRanges_run hrun hne]
    refine ⟨?_,?_,?_⟩
    · have hbase : base-(base-i.stop) = i.stop := by omega
      have hnext : i.stop-(i.stop+1-i.start)-1 = i.start-2 := by omega
      rw [rangeNumbers,map_append,hnums,i.elements_reverse]
      simp only [hbase,hlen,hnext,ih₁]
    · rw [flatMap_cons,ih₂,map_append]
    · intro r hr
      rcases mem_cons.mp hr with rfl | hr
      · simp
      · exact ih₃ r hr

lemma fillTimestampRanges_above {space prev cum : ℕ} {is : List Interval} {t : TimestampDelta}
    {ts : List TimestampDelta} {ranges : List RecvdPacketsTimestampsRange}
    (habove : ∀ i ∈ is,i.stop < t.pktNum)
    (h : fillTimestampRanges space prev 0 cum is (t::ts) = .ok ranges) : ranges=[] := by
  induction is with
  | nil => exact (Except.ok.inj h).symm
  | cons i is ih =>
    have hout : ¬(i.start≤t.pktNum ∧ t.pktNum ≤ i.stop) := fun hin =>
      absurd (habove i (by simp)) (by omega)
    simp only [fillTimestampRanges,bind_eq_ok,fillTimestampRange,if_neg hout] at h
    obtain ⟨gapSize,-,r,hr,h⟩ := h
    obtain rfl := Except.ok.inj hr
    exact ih (fun k hk => habove k (by simp [hk])) (by simpa using h)

/-- If more packets are stored than were asked for, the frame carries no timestamp. -/
theorem fillPacketReceiveTimestamps_overfull {metaData : WriteAckFrameMetaData} {m : ℕ}
    (hincreasing : metaData.ackState.recvdPacketInfos.Pairwise fun p q => p.pktNum < q.pktNum)
    (hm : m < metaData.ackState.recvdPacketInfos.length) {largestAcked space e : ℕ}
    {ranges : List RecvdPacketsTimestampsRange}
    (h : fillPacketReceiveTimestamps metaData largestAcked space e m = .ok ranges) : ranges=[] := by
  obtain ⟨older,newest,hinfos⟩ : ∃ older newest,
      metaData.ackState.recvdPacketInfos = older++[newest] := by
    have hne : metaData.ackState.recvdPacketInfos≠[] := by
      rw [← length_pos_iff]
      omega
    exact ⟨_,_,(dropLast_append_getLast hne).symm⟩
  simp only [fillPacketReceiveTimestamps,hinfos,reverse_append,reverse_singleton,
    singleton_append,timestampDeltas] at h
  refine fillTimestampRanges_above (fun i hi => ?_) h
  rw [hinfos] at hincreasing hm
  have hmem : i.stop ∈ selectedPktNums m (older++[newest]) :=
    ⟨i,mem_reverse.mp hi,i.valid,le_rfl⟩
  obtain ⟨p,hp,hpn⟩ := mem_selectedPktNums.mp hmem
  rw [length_append,length_singleton] at hm
  rw [take_append_of_le_length (by omega)] at hp
  rw [← hpn]
  exact (pairwise_append.mp hincreasing).2.2 p (mem_of_mem_take hp) newest (by simp)

/-- The frame carries the timestamps of the newest stored packets, as many as were asked for
or as there are, and names these packets. -/
def CarriesNewest (metaData : WriteAckFrameMetaData) (e m largestAcked : ℕ)
    (result : WriteAckFrameResult) : Prop :=
  let newest := metaData.ackState.recvdPacketInfos.reverse.take
    (min metaData.ackState.recvdPacketInfos.length m)
  let ranges := result.writeAckFrame.recvdPacketsTimestampRanges
  result.timestampsWritten = min metaData.ackState.recvdPacketInfos.length m ∧
    rangeNumbers largestAcked ranges = newest.map ReceivedPacket.pktNum ∧
    ranges.flatMap RecvdPacketsTimestampsRange.deltas =
      (timestampDeltas metaData.connTime e none newest).map TimestampDelta.delta ∧
    ∀ r ∈ ranges,r.timestampDeltaCount = r.deltas.length

lemma written_all {metaData : WriteAckFrameMetaData} {largest : Interval} {others : List Interval}
    (h : ReadyToWrite metaData largest others) {m : ℕ}
    (hle : metaData.ackState.recvdPacketInfos.length ≤ m) (config : AckReceiveTimestampsConfig)
    {b : PacketBuilder}
    (hspace : 8*(2*others.length+3*metaData.ackState.recvdPacketInfos.length+8) ≤ b.remainingSpaceInPkt) :
    let ranges := newestRanges metaData.connTime config.receiveTimestampsExponent largest.stop
      metaData.ackState.recvdPacketInfos metaData.ackState.recvdPacketInfos.length
    let fields := timestampFrameFields metaData largest others ranges
    Encodable fields ∧ ∃ result,(writeAckFrameWithReceivedTimestamps metaData config m).run b =
        .ok (some result,b.append (quicIntegers fields)) ∧
      result.writeAckFrame.recvdPacketsTimestampRanges = ranges ∧
      result.timestampsWritten = (ranges.map fun r => r.deltas.length).sum := by
  have hbefore := length_before_timestamps_le metaData largest others
  have hlimit : b.remainingSpaceInPkt≤kEightByteLimit := by
    have : b.remainingSpaceInPkt < 2^32 := b.remainingBytes.toNat_lt
    unfold kEightByteLimit
    omega
  have hfill := fillPacketReceiveTimestamps_all (e := config.receiveTimestampsExponent)
    h.stored rfl h.largest_le (by omega) hle
    (b.remainingSpaceInPkt-(quicIntegers (ackFields metaData .ackReceiveTimestamps largest
      others++[(latestRecvdPacket metaData).1,u64 (latestRecvdPacket metaData).2])).length) (by omega)
  obtain ⟨p,hp,-⟩ := h.last
  have henc := h.encodable (by omega) (by omega) config.receiveTimestampsExponent
    metaData.ackState.recvdPacketInfos.length
  exact ⟨henc,writeAckFrameWithReceivedTimestamps_all config h.acks (Option.isSome_of_eq_some hp)
    (by omega) (by omega) hfill henc⟩

/-- With enough space the frame carries the newest timestamps if and only if no stored packet
has to be left out. -/
theorem carries_newest_iff {metaData : WriteAckFrameMetaData} {largest : Interval}
    {others : List Interval} (h : ReadyToWrite metaData largest others) {m : ℕ} (hm : 1 ≤ m)
    (config : AckReceiveTimestampsConfig) {b : PacketBuilder}
    (hspace : 8*(2*others.length+3*metaData.ackState.recvdPacketInfos.length+8) ≤ b.remainingSpaceInPkt) :
    (∃ result b',(writeAckFrameWithReceivedTimestamps metaData config m).run b = .ok (some result,b') ∧
      CarriesNewest metaData config.receiveTimestampsExponent m largest.stop result) ↔
      metaData.ackState.recvdPacketInfos.length ≤ m := by
  constructor
  · rintro ⟨result,b',hrun,hcount,-⟩
    by_contra hover
    obtain ⟨_,_,_,_,_,_,hfill,hsum,-⟩ := writeAckFrameWithReceivedTimestamps_ok hrun
    have hnone := fillPacketReceiveTimestamps_overfull h.stored.increasing (by omega) hfill
    rw [hsum,hnone] at hcount
    simp only [List.map_nil,List.sum_nil] at hcount
    omega
  · intro hle
    obtain ⟨-,result,hrun,hranges,hsum⟩ := written_all h hle config hspace
    refine ⟨result,_,hrun,?_⟩
    have htake (e : ℕ) : (timestampDeltas metaData.connTime e none metaData.ackState.recvdPacketInfos.reverse).take
        metaData.ackState.recvdPacketInfos.length = _ := List.take_of_length_le (by simp)
    obtain ⟨hnumbers,hdeltas,hcounts⟩ := cutRanges_spec
      (h.stored.tiles config.receiveTimestampsExponent) (blocksBelow_selectedPktNums h.stored.acked)
    have hnewest : metaData.ackState.recvdPacketInfos.reverse.take metaData.ackState.recvdPacketInfos.length = _ :=
      List.take_of_length_le (by simp)
    simp only [CarriesNewest,hranges,min_eq_left hle,hnewest,newestRanges,htake]
    refine ⟨?_,hnumbers.trans (map_pktNum_timestampDeltas _ _ _ _),hdeltas,hcounts⟩
    have hlength := congrArg List.length hdeltas
    rw [List.length_flatMap,List.length_map,length_timestampDeltas,List.length_reverse] at hlength
    rw [hsum,newestRanges,htake]
    exact hlength

def twoReceived : WriteAckFrameMetaData where
  ackState := AckState.receive 10 {} [⟨0,1000000,0⟩,⟨1,3000000,0⟩]
  ackDelay := 0
  ackDelayExponent := 3
  connTime := 0

lemma readyToWrite_twoReceived : ReadyToWrite twoReceived ⟨0,1,by decide⟩ [] where
  acks := rfl
  largest_le := by decide
  ackDelay_nonneg := le_rfl
  ackDelay_le := by decide
  last := ⟨_,rfl,by decide,by decide⟩
  stored :=
    {increasing := by decide
     ordered := by decide
     acked := by decide
     times := by decide
     start := by decide}

theorem carries_newest_two :
    ReadyToWrite twoReceived ⟨0,1,by decide⟩ [] ∧
      ((∃ result b',(writeAckFrameWithReceivedTimestamps twoReceived {} 2).run {remainingBytes := 1200} =
          .ok (some result,b') ∧ CarriesNewest twoReceived 3 2 1 result) ↔ 2≤2) :=
  ⟨readyToWrite_twoReceived,carries_newest_iff readyToWrite_twoReceived (m := 2) (by decide) {} (by decide)⟩

/-- Asked for one timestamp with two stored, the writer sends none. -/
theorem one_of_two_sends_none :
    ∃ result b',(writeAckFrameWithReceivedTimestamps twoReceived {} 1).run {remainingBytes := 1200} =
        .ok (some result,b') ∧ twoReceived.ackState.recvdPacketInfos.length=2 ∧
      result.timestampsWritten = 0 ∧ ¬CarriesNewest twoReceived 3 1 1 result := by
  refine ⟨_,_,rfl,rfl,rfl,fun h => ?_⟩
  exact absurd h.1 (by decide)

end QuicWestwood
