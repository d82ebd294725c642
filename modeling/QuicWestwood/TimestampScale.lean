import QuicWestwood.AckScheduler
import QuicWestwood.TimestampAttribution
import QuicWestwood.TimestampSelection

/-! The writer of an ACK_RECEIVE_TIMESTAMPS frame counts in the unit of its own configuration, and so does the
reader. The configuration that the peer asked for only limits the number of timestamps. -/
namespace QuicWestwood
open ByteCodec AckState RecvdPacketsTimestampsRange List

def microDurations (connTime : ℤ) (infos : List ReceivedPacket) : List ℕ :=
  (timestampDeltas connTime 0 none infos.reverse).map TimestampDelta.delta

/-- Whatever has arrived and is still to be acknowledged, an ACK_RECEIVE_TIMESTAMPS frame of
`writer` gives `reader` the time differences rounded down to multiples of `2 ^ e` µs. -/
def ScaledBy (writer reader : Endpoint) (e : ℕ) : Prop :=
  ∀ (arrivals : List Arrival) (acks : IntervalSet 1) (header : HeaderForm) (ackingTime : ℤ) (space : UInt32)
    (n : ℕ) (b : PacketBuilder) (rest : Bytes),
    let s := stateWithAcks writer.transportSettings.maxReceiveTimestampsPerAckStored arrivals acks
    ClockedArrivals arrivals → IsTimePoint ackingTime →
    (∀ n ∈ acks,n ∈ (receive writer.transportSettings.maxReceiveTimestampsPerAckStored {} arrivals).acks) →
    (writeNextAcks writer s header ackingTime).run {remainingBytes := space} = .ok (some n,b) →
    decodeQuicInteger b.body = some (FrameType.ackReceiveTimestamps.code,rest) →
    ∃ frame j,(parseFrame header reader.codecParameters).run b.body = .ok (some frame,[]) ∧
      frame.recvdPacketsTimestampRanges.flatMap deltas =
        ((microDurations writer.connectionTime s.recvdPacketInfos).take j).map fun d => d/2^e*2^e

variable {metaData : WriteAckFrameMetaData} {b b' : PacketBuilder}

lemma writeAckFrame_code {frameType : FrameType} {result : WriteAckFrameResult}
    (h : (writeAckFrame metaData frameType).run b = .ok (some result,b')) :
    ∃ bytes,b' = b.append (quicInteger frameType.code++bytes) := by
  simp only [writeAckFrame,StateT.run_bind,StateT.run_get,pure_bind,bind_eq_ok] at h
  obtain ⟨⟨frame,b₁⟩,hframe,h⟩ := h
  cases frame with
  | none => cases h
  | some frame =>
    obtain ⟨-,rfl⟩ := Prod.mk.inj (Except.ok.inj h)
    obtain ⟨_,_,_,_,-,-,-,rfl,-⟩ := writeAckFrameToPacketBuilder_ok hframe
    exact ⟨_,congrArg b.append (quicIntegers_cons _ _)⟩

def ackDelayAt (ackingTime receivedTime : ℤ) : ℤ :=
  if receivedTime<ackingTime then (ackingTime-receivedTime).tdiv 1000 else 0

lemma writeNextAcks_eq_ok {conn : Endpoint} {s : AckState} {header : HeaderForm} {ackingTime : ℤ} {n : ℕ} :
    (writeNextAcks conn s header ackingTime).run b = .ok (some n,b') ↔
      ∃ largest receivedTime result,s.acks.intervals.getLast? = some largest ∧
        s.largestRecvdPacketTime = some receivedTime ∧ n=largest.stop ∧
        (writeSupportedAckFrame conn ⟨s,ackDelayAt ackingTime receivedTime,
          ackDelayExponentToUse conn header,conn.connectionTime⟩).run b = .ok (some result,b') := by
  unfold writeNextAcks
  cases hlargest : s.acks.intervals.getLast? with
  | none => exact iff_of_false nofun (by simp)
  | some largest =>
    cases htime : s.largestRecvdPacketTime with
    | none => exact iff_of_false nofun (by simp)
    | some receivedTime =>
      simp only [StateT.run_bind,bind_eq_ok,Option.some.injEq]
      constructor
      · rintro ⟨⟨result,b₁⟩,hwrite,h⟩
        obtain ⟨hn,rfl⟩ := Prod.mk.inj (Except.ok.inj h)
        obtain ⟨result,rfl,rfl⟩ := Option.map_eq_some_iff.mp hn
        exact ⟨largest,receivedTime,result,rfl,rfl,rfl,hwrite⟩
      · rintro ⟨_,_,result,rfl,rfl,rfl,hwrite⟩
        exact ⟨_,hwrite,rfl⟩

lemma writeSupportedAckFrame_timestamps {conn : Endpoint} {result : WriteAckFrameResult} {rest : Bytes}
    (hb : b.body=[]) (hwrite : (writeSupportedAckFrame conn metaData).run b = .ok (some result,b'))
    (hcode : decodeQuicInteger b'.body = some (FrameType.ackReceiveTimestamps.code,rest)) :
    ∃ config peer,conn.transportSettings.readEcnOnIngress=false ∧
      conn.transportSettings.maybeAckReceiveTimestampsConfigSentToPeer = some config ∧
      conn.maybePeerAckReceiveTimestampsConfig = some peer ∧ 0<peer.maxReceiveTimestampsPerAck ∧
      (writeAckFrameWithReceivedTimestamps metaData config peer.maxReceiveTimestampsPerAck).run b =
        .ok (some result,b') := by
  have hother : ∀ t : FrameType,t≠.ackReceiveTimestamps →
      (writeAckFrame metaData t).run b≠.ok (some result,b') := by
    intro t ht h
    obtain ⟨bytes,rfl⟩ := writeAckFrame_code h
    rw [PacketBuilder.append_body,hb,nil_append,(quicInteger_spec (code_le t)).2.1] at hcode
    have := (Prod.mk.inj (Option.some.inj hcode)).1
    cases t <;> simp_all [FrameType.code]
  unfold writeSupportedAckFrame at hwrite
  split at hwrite
  · exact absurd hwrite (hother .ackEcn (by decide))
  · rename_i hecn
    split at hwrite
    · rename_i config peer hconfig hpeer
      split at hwrite
      · rename_i hcount
        exact ⟨config,peer,by simpa using hecn,hconfig,hpeer,hcount,hwrite⟩
      · exact absurd hwrite (hother .ack (by decide))
    · exact absurd hwrite (hother .ack (by decide))

lemma flatMap_deltas_cutRanges {is : List Interval} {ts : List TimestampDelta} (htiles : Tiles is ts)
    {c : ℕ} (hbelow : BlocksBelow c is) (base j : ℕ) :
    (cutRanges base is (ts.take j)).flatMap deltas = (ts.take j).map TimestampDelta.delta := by
  induction is generalizing ts base c j with
  | nil =>
    obtain rfl : ts=[] := by simpa [Tiles] using htiles
    simp [cutRanges]
  | cons i is ih =>
    obtain ⟨run,rest,rfl,hne,hrun,hrest,-⟩ := htiles.cons hbelow.2
    rcases Nat.eq_zero_or_pos j with rfl | hj0
    · simp [cutRanges_nil]
    rcases le_or_gt j run.length with hin | hout
    · rw [take_append_of_le_length hin,cutRanges_part hrun hj0 hin]
      simp
    · obtain ⟨k,rfl⟩ := Nat.exists_eq_add_of_le hout.le
      rw [take_length_add_append,cutRanges_run (hrun.take k) hne,flatMap_cons,ih hrest hbelow.2,map_append]

lemma timestampDeltas_scaled {connTime : ℤ} (e : ℕ) (newer : Option ReceivedPacket)
    (ps : List ReceivedPacket) (hstart : IsTimePoint connTime)
    (hordered : (newer.toList++ps).Pairwise fun p q => q.receiveTimePoint ≤ p.receiveTimePoint)
    (htimes : ∀ p ∈ newer.toList++ps,IsTimePoint p.receiveTimePoint) :
    (timestampDeltas connTime e newer ps).map TimestampDelta.delta =
      ((timestampDeltas connTime 0 newer ps).map TimestampDelta.delta).map (· / 2^e) := by
  induction ps generalizing newer with
  | nil => rfl
  | cons p ps ih =>
    have hbounds := deltaDuration_bounds newer hstart (htimes p (by simp)) (by
      intro q hq
      have hmem : q ∈ newer.toList := by simpa using hq
      exact ⟨htimes q (by simp [hmem]),(pairwise_append.mp hordered).2.2 q hmem p (by simp)⟩)
    have hscaled := (u64_shiftRight e hbounds.1 hbounds.2).1
    have hmicro := (u64_shiftRight 0 hbounds.1 hbounds.2).1
    rw [pow_zero,Int.ediv_one] at hmicro
    have hhead : u64 (deltaDuration connTime newer p >>> e) =
        u64 (deltaDuration connTime newer p >>> (0 : ℕ))/2^e := by
      zify
      rw [hscaled,hmicro]
    have hrec := ih (some p) (pairwise_append.mp hordered).2.1 fun q hq =>
      htimes q (mem_append_right _ hq)
    simp only [timestampDeltas,map_cons,hhead,hrec]

lemma decodedAckDelay_ok (metaData : WriteAckFrameMetaData) (header : HeaderForm)
    {params : CodecParameters} (frameType : FrameType) (hnonneg : 0 ≤ metaData.ackDelay)
    (hle : metaData.ackDelay ≤ 2^58) (hparams : params.peerAckDelayExponent=3) :
    ∃ delay,decodedAckDelay header params frameType (encodedAckDelay metaData) = .ok delay := by
  have hval := u64_of_nonneg hnonneg (by omega)
  have hsmall : encodedAckDelay metaData*2^(3 : UInt8).toNat < 2^63 := by
    have hdiv : encodedAckDelay metaData ≤ u64 metaData.ackDelay := Nat.div_le_self _ _
    have hthree : (3 : UInt8).toNat = 3 := rfl
    rw [hthree]
    omega
  have hconvert : convertEncodedDurationToMicroseconds frameType 3 (encodedAckDelay metaData) = .ok _ :=
    convertEncodedDurationToMicroseconds_ok (by decide) hsmall
  have hdecode : decodedAckDelay header params frameType (encodedAckDelay metaData) =
      convertEncodedDurationToMicroseconds frameType 3 (encodedAckDelay metaData) >>= fun adjusted =>
        .ok (if 1000*1000*1000 < adjusted then 0 else adjusted) := by
    cases header with
    | long => rfl
    | short =>
      rw [decodedAckDelay,hparams]
      rfl
  rw [hdecode,hconvert]
  exact ⟨_,rfl⟩

lemma ackDelayAt_bounds {ackingTime receivedTime : ℤ} (hnow : IsTimePoint ackingTime)
    (hreceived : IsTimePoint receivedTime) :
    0 ≤ ackDelayAt ackingTime receivedTime ∧ ackDelayAt ackingTime receivedTime ≤ 2^58 := by
  unfold IsTimePoint at *
  unfold ackDelayAt
  split
  · rw [Int.tdiv_eq_ediv_of_nonneg (by omega)]
    omega
  · omega

lemma flatMap_deltas_scale (e : ℕ) (ranges : List RecvdPacketsTimestampsRange) :
    (ranges.map (·.scale e)).flatMap deltas = (ranges.flatMap deltas).map (·*2^e) := by
  simp [flatMap_map,map_flatMap,scale]

lemma deltas_newestRanges {connTime : ℤ} {largestAcked : ℕ} {infos : List ReceivedPacket}
    (h : StoredInOrder connTime largestAcked infos) (e j : ℕ) :
    (newestRanges connTime e largestAcked infos j).flatMap deltas =
      ((microDurations connTime infos).take j).map (· / 2^e) := by
  have hscaled := timestampDeltas_scaled e none infos.reverse h.start
    (by simpa [pairwise_reverse] using h.ordered) (by simpa using h.times)
  have hbelow := blocksBelow_selectedPktNums (m := infos.length) h.acked
  rw [newestRanges,flatMap_deltas_cutRanges (h.tiles e) hbelow,map_take,hscaled,microDurations,← map_take]

section Unit
variable {writer reader : Endpoint} {config peer : AckReceiveTimestampsConfig}

theorem scaledBy_of_same_unit
    (hconfig : writer.transportSettings.maybeAckReceiveTimestampsConfigSentToPeer = some config)
    (hpeer : writer.maybePeerAckReceiveTimestampsConfig = some peer)
    (hcount : peer.maxReceiveTimestampsPerAck≤kEightByteLimit)
    (hstart : IsTimePoint writer.connectionTime) (he : config.receiveTimestampsExponent<64)
    (hexponent : reader.codecParameters.peerAckDelayExponent=3)
    (hunit : (receiveTimestampsExponentToUse reader.codecParameters).toNat =
      config.receiveTimestampsExponent) :
    ScaledBy writer reader config.receiveTimestampsExponent := by
  intro arrivals acks header ackingTime space n b rest s harrivals hnow hacks hwrite hcode
  obtain ⟨_,receivedTime,result,-,htime,-,hframe⟩ := writeNextAcks_eq_ok.mp hwrite
  obtain ⟨config',peer',-,hconfig',hpeer',-,hwritten⟩ :=
    writeSupportedAckFrame_timestamps rfl hframe hcode
  obtain rfl := Option.some.inj (hconfig'.symm.trans hconfig)
  obtain rfl := Option.some.inj (hpeer'.symm.trans hpeer)
  obtain ⟨a,ha,rfl⟩ := (remembers_receive _ arrivals).largestTime receivedTime htime
  obtain ⟨hnonneg,hle⟩ := ackDelayAt_bounds hnow (harrivals.times a ha)
  obtain ⟨delay,hdelay⟩ := decodedAckDelay_ok ⟨s,ackDelayAt ackingTime a.receiveTimePoint,
    ackDelayExponentToUse writer header,writer.connectionTime⟩ header .ackReceiveTimestamps hnonneg hle
    hexponent
  rcases le_or_gt s.recvdPacketInfos.length peer'.maxReceiveTimestampsPerAck with hfew | hmany
  · obtain ⟨largest,blocks,newest,older,j,last,-,hblocks,-,-,-,hstored,henc,rfl⟩ :=
      written_newest (remembers_receive _ arrivals) harrivals hstart hacks hfew hcount hwritten
    have hread := reads_timestampFrame henc hblocks hdelay (by rw [hunit]; exact he)
      (by rw [hunit]; exact scalable_newestRanges hstored) []
    rw [append_nil,hunit] at hread
    refine ⟨_,j,hread,?_⟩
    rw [flatMap_deltas_scale,deltas_newestRanges hstored,map_map]
    rfl
  · -- nothing is written if more timestamps are stored than the peer asks for
    obtain ⟨largest,others,i,space',hreverse,-,hfill,-,henc,rfl⟩ :=
      writeAckFrameWithReceivedTimestamps_ok hwritten
    have hnone := fillPacketReceiveTimestamps_overfull (remembers_receive _ arrivals).increasing hmany hfill
    rw [hnone] at henc ⊢
    have hblocks := (blocksBelow_of_reverse acks.sorted hreverse).take i
    have hread := reads_timestampFrame henc hblocks hdelay (by rw [hunit]; exact he)
      (by simp [Scalable]) []
    rw [append_nil] at hread
    exact ⟨_,0,hread,rfl⟩

def oneUnitLater (e : ℕ) : List Arrival := [⟨0,1000*2^e,0⟩]

lemma clockedArrivals_oneUnitLater {e : ℕ} (he : e≤20) : ClockedArrivals (oneUnitLater e) where
  ordered := pairwise_singleton _ _
  nums := by simp [oneUnitLater]
  times := by
    have hpow : (2 : ℤ)^e ≤ 2^20 := pow_le_pow_right₀ (by norm_num) he
    have hpos : (0 : ℤ) < 2^e := by positivity
    intro a ha
    obtain rfl := mem_singleton.mp ha
    simp only [IsTimePoint]
    omega

lemma microDurations_oneUnitLater {e : ℕ} (he : e≤20) :
    microDurations 0 [⟨0,1000*2^e⟩] = [2^e] := by
  have hpos : (0 : ℤ) < 2^e := by positivity
  have hpow : (2 : ℤ)^e ≤ 2^20 := pow_le_pow_right₀ (by norm_num) he
  have hsince : sinceConnection 0 (1000*2^e) = 2^e := by
    rw [sinceConnection_eq,max_eq_left (by omega),sub_zero,Int.mul_tdiv_cancel_left _ (by norm_num)]
  have hu64 : u64 ((2 : ℤ)^e >>> (0 : ℕ)) = 2^e := by
    have := (u64_shiftRight 0 hpos.le (by omega)).1
    rw [pow_zero,Int.ediv_one] at this
    exact_mod_cast this
  simpa [microDurations,timestampDeltas,deltaDuration,hsince] using hu64

lemma recvdPacketInfos_oneUnitLater (maxStored e : ℕ) :
    (receive maxStored {} (oneUnitLater e)).recvdPacketInfos = [⟨0,1000*2^e⟩] := by
  simp [receive,oneUnitLater,Run.run,expectedNextPacket,storeTime,Arrival.info]

lemma decode_timestampFrameFields (metaData : WriteAckFrameMetaData) (largest : Interval)
    (blocks : List Interval) (ranges : List RecvdPacketsTimestampsRange) :
    ∃ rest,decodeQuicInteger (quicIntegers (timestampFrameFields metaData largest blocks ranges)) =
      some (FrameType.ackReceiveTimestamps.code,rest) := by
  rw [quicIntegers_timestampFrameFields]
  exact ⟨_,(quicInteger_spec (code_le _)).2.1 _⟩

variable (hconfig : writer.transportSettings.maybeAckReceiveTimestampsConfigSentToPeer = some config)
  (hpeer : writer.maybePeerAckReceiveTimestampsConfig = some peer)
  (hcount : 0<peer.maxReceiveTimestampsPerAck) (hecn : writer.transportSettings.readEcnOnIngress=false)
  (hstart : writer.connectionTime=0) (he : config.receiveTimestampsExponent≤20)
  (hexponent : reader.codecParameters.peerAckDelayExponent=3)
  (hunit : (receiveTimestampsExponentToUse reader.codecParameters).toNat ≤ 20)
include hconfig hpeer hcount hecn hstart he hexponent hunit

lemma read_oneUnitLater {s : AckState}
    (hs : s = stateWithAcks writer.transportSettings.maxReceiveTimestampsPerAckStored
      (oneUnitLater config.receiveTimestampsExponent)
      (receive writer.transportSettings.maxReceiveTimestampsPerAckStored {}
        (oneUnitLater config.receiveTimestampsExponent)).acks) :
    ∃ n b frame,
      (writeNextAcks writer s .short (1000*2^config.receiveTimestampsExponent)).run
        {remainingBytes := 1200} = .ok (some n,b) ∧
      (∃ rest,decodeQuicInteger b.body = some (FrameType.ackReceiveTimestamps.code,rest)) ∧
      (parseFrame .short reader.codecParameters).run b.body = .ok (some frame,[]) ∧
      frame.recvdPacketsTimestampRanges.flatMap deltas =
        [2^(receiveTimestampsExponentToUse reader.codecParameters).toNat] := by
  set k := config.receiveTimestampsExponent
  have hpoint := (clockedArrivals_oneUnitLater he).times _ (mem_singleton_self _)
  have hinfos : s.recvdPacketInfos = [⟨0,1000*2^k⟩] := by
    rw [hs]
    exact recvdPacketInfos_oneUnitLater _ k
  have hone : s.recvdPacketInfos.length=1 := by rw [hinfos,length_singleton]
  have hstored : StoredInOrder writer.connectionTime 0 s.recvdPacketInfos := by
    rw [hinfos,hstart]
    exact ⟨pairwise_singleton _ _,pairwise_singleton _ _,by simp,by simpa using hpoint,
      by decide⟩
  let metaData : WriteAckFrameMetaData := ⟨s,ackDelayAt (1000*2^k) (1000*2^k),
    ackDelayExponentToUse writer .short,writer.connectionTime⟩
  have hzero : metaData.ackDelay=0 := if_neg (lt_irrefl _)
  have hready : ReadyToWrite metaData ⟨0,0,le_rfl⟩ [] :=
    {acks := by rw [show metaData.ackState = s from rfl,hs]; rfl
     largest_le := Nat.zero_le _
     ackDelay_nonneg := hzero.ge
     ackDelay_le := hzero.le.trans (Int.natCast_nonneg _)
     last := ⟨⟨0,1000*2^k⟩,by rw [show metaData.ackState = s from rfl,hs]; rfl,Nat.zero_le _,hpoint⟩
     stored := hstored}
  obtain ⟨henc,result,hwrite,-⟩ := written_all hready (hone.trans_le hcount) config
    (b := {remainingBytes := 1200})
    (by rw [show metaData.ackState = s from rfl,hone]; decide)
  have hsupported : writeSupportedAckFrame writer metaData =
      writeAckFrameWithReceivedTimestamps metaData config peer.maxReceiveTimestampsPerAck := by
    simp [writeSupportedAckFrame,hecn,hconfig,hpeer,hcount]
  rw [← hsupported] at hwrite
  have hnext := writeNextAcks_eq_ok.mpr ⟨⟨0,0,le_rfl⟩,1000*2^k,result,by rw [hs]; rfl,by rw [hs]; rfl,
    rfl,hwrite⟩
  obtain ⟨delay,hdelay⟩ := decodedAckDelay_ok metaData .short .ackReceiveTimestamps hzero.ge
    (hzero.le.trans (by norm_num)) hexponent
  have hdeltas : (newestRanges writer.connectionTime k 0 s.recvdPacketInfos
      s.recvdPacketInfos.length).flatMap deltas = [1] := by
    rw [deltas_newestRanges hstored,hone,hinfos,hstart,microDurations_oneUnitLater he]
    simp
  have hscale : Scalable (receiveTimestampsExponentToUse reader.codecParameters).toNat
      (newestRanges writer.connectionTime k 0 s.recvdPacketInfos s.recvdPacketInfos.length) := by
    intro range hrange
    refine ⟨((cutRanges_deltas _ _ _).2 range hrange).1,fun δ hδ => ?_⟩
    have hmem := mem_flatMap.mpr ⟨range,hrange,hδ⟩
    rw [hdeltas,mem_singleton] at hmem
    rw [hmem,Nat.one_mul]
    exact Nat.pow_lt_pow_right (by norm_num) (by omega)
  have hread := reads_timestampFrame henc (show BlocksBelow 0 [] from trivial) hdelay (by omega) hscale []
  rw [append_nil] at hread
  refine ⟨_,_,_,hnext,decode_timestampFrameFields _ _ _ _,hread,?_⟩
  rw [flatMap_deltas_scale]
  change (flatMap _ (newestRanges writer.connectionTime k 0 s.recvdPacketInfos
    s.recvdPacketInfos.length)).map _ = _
  rw [hdeltas]
  simp

theorem same_unit_of_scaledBy {e : ℕ} (h : ScaledBy writer reader e) :
    config.receiveTimestampsExponent = (receiveTimestampsExponentToUse reader.codecParameters).toNat := by
  obtain ⟨n,b,frame,hwrite,⟨rest,hcode⟩,hread,hdeltas⟩ :=
    read_oneUnitLater hconfig hpeer hcount hecn hstart he hexponent hunit rfl
  have harrivals := clockedArrivals_oneUnitLater he
  obtain ⟨frame',j,hread',hdeltas'⟩ := h _ _ .short _ 1200 n b rest harrivals
    (harrivals.times _ (mem_singleton_self _)) (fun _ hn => hn) hwrite hcode
  obtain rfl := Option.some.inj (Prod.mk.inj (Except.ok.inj (hread.symm.trans hread'))).1
  have hmicro : ∀ acks,microDurations writer.connectionTime (stateWithAcks
      writer.transportSettings.maxReceiveTimestampsPerAckStored
      (oneUnitLater config.receiveTimestampsExponent) acks).recvdPacketInfos =
      [2^config.receiveTimestampsExponent] := by
    intro acks
    rw [hstart]
    change microDurations 0 (receive _ {} _).recvdPacketInfos = _
    rw [recvdPacketInfos_oneUnitLater,microDurations_oneUnitLater he]
  rw [hdeltas,hmicro] at hdeltas'
  cases j with
  | zero => simp at hdeltas'
  | succ j =>
    simp only [take_succ_cons,take_nil,map_cons,map_nil,cons.injEq,and_true] at hdeltas'
    rcases le_or_gt e config.receiveTimestampsExponent with hle | hgt
    · rw [Nat.div_mul_cancel (Nat.pow_dvd_pow 2 hle)] at hdeltas'
      exact (Nat.pow_right_injective le_rfl hdeltas').symm
    · rw [Nat.div_eq_of_lt (Nat.pow_lt_pow_right (by norm_num) hgt),Nat.zero_mul] at hdeltas'
      exact absurd hdeltas' (by positivity)

end Unit

/-- An endpoint with these settings answers a peer that asks for `peer` with timestamps. -/
def SendsTimestamps (settings : TransportSettings) (peer : AckReceiveTimestampsConfig) : Prop :=
  settings.readEcnOnIngress = false ∧
    0 < min (peer.maxReceiveTimestampsPerAck % 2^8) (settings.maxReceiveTimestampsPerAckStored % 2^8)

/-- The unit of a client that asks for `config`: its codec only knows it after a Retry. -/
def clientExponent (retried : Bool) (config : AckReceiveTimestampsConfig) : ℕ :=
  if retried then config.receiveTimestampsExponent else kDefaultReceiveTimestampsExponent

/-- Some unit fits if `agree` holds, and if the connection starts at time 0 only then. -/
def ScaledIff (writer reader : Endpoint) (agree : Prop) : Prop :=
  (IsTimePoint writer.connectionTime → agree → ∃ e,ScaledBy writer reader e) ∧
    (writer.connectionTime=0 → (∃ e,ScaledBy writer reader e) → agree)

lemma scaledIff {writer reader : Endpoint} {config asked : AckReceiveTimestampsConfig}
    (hconfig : writer.transportSettings.maybeAckReceiveTimestampsConfigSentToPeer = some config)
    (hpeer : writer.maybePeerAckReceiveTimestampsConfig =
      some (writer.peerConfig asked.maxReceiveTimestampsPerAck asked.receiveTimestampsExponent))
    (he : config.receiveTimestampsExponent≤20)
    (hexponent : reader.codecParameters.peerAckDelayExponent=3)
    (hunit : (receiveTimestampsExponentToUse reader.codecParameters).toNat ≤ 20) :
    ScaledIff writer reader (SendsTimestamps writer.transportSettings asked →
      config.receiveTimestampsExponent = (receiveTimestampsExponentToUse reader.codecParameters).toNat) := by
  refine ⟨fun hstart hagree => ?_,fun hstart ⟨e,hscaled⟩ hsends => ?_⟩
  · by_cases hsends : SendsTimestamps writer.transportSettings asked
    · refine ⟨_,scaledBy_of_same_unit hconfig hpeer ?_ hstart (by omega) hexponent (hagree hsends).symm⟩
      change min _ _ ≤ kEightByteLimit
      unfold kEightByteLimit
      omega
    · refine ⟨0,?_⟩
      intro arrivals acks header ackingTime space n b rest s harrivals hnow hacks hwrite hcode
      obtain ⟨_,_,_,-,-,-,hframe⟩ := writeNextAcks_eq_ok.mp hwrite
      obtain ⟨_,peer,hecn,-,hpeer',hcount,-⟩ := writeSupportedAckFrame_timestamps rfl hframe hcode
      obtain rfl := Option.some.inj (hpeer.symm.trans hpeer')
      exact absurd ⟨hecn,hcount⟩ hsends
  · exact same_unit_of_scaledBy hconfig hpeer hsends.2 hsends.1 hstart he hexponent hunit hscaled

section Handshake
variable {clientSettings serverSettings : TransportSettings} {retried : Bool} {client server : Endpoint}
  {A B : AckReceiveTimestampsConfig}

lemma clientExponent_le (retried : Bool) (hAe : A.receiveTimestampsExponent≤20) :
    clientExponent retried A ≤ 20 := by
  cases retried with
  | false => exact Nat.le_of_ble_eq_true rfl
  | true => exact hAe

lemma exponentToUse_server
    (h : server.codecParameters = {maybeAckReceiveTimestampsConfig := some B})
    (hBe : B.receiveTimestampsExponent≤20) :
    (receiveTimestampsExponentToUse server.codecParameters).toNat = B.receiveTimestampsExponent :=
  exponentToUse_eq (by omega) rfl (by rw [h])

lemma exponentToUse_client
    (h : client.codecParameters = {maybeAckReceiveTimestampsConfig := if retried then some A else none})
    (hAe : A.receiveTimestampsExponent≤20) :
    (receiveTimestampsExponentToUse client.codecParameters).toNat = clientExponent retried A := by
  cases retried with
  | true => exact exponentToUse_server h hAe
  | false =>
    rw [h]
    rfl

lemma connect_scaledBy_iff
    (hA : clientSettings.maybeAckReceiveTimestampsConfigSentToPeer = some A)
    (hB : serverSettings.maybeAckReceiveTimestampsConfigSentToPeer = some B)
    (hAe : A.receiveTimestampsExponent≤20) (hBe : B.receiveTimestampsExponent≤20)
    {times : CreationTimes}
    (h : connect clientSettings serverSettings retried times = .ok (client,server)) :
    ScaledIff client server
        (SendsTimestamps clientSettings B → A.receiveTimestampsExponent=B.receiveTimestampsExponent) ∧
      ScaledIff server client
        (SendsTimestamps serverSettings A → B.receiveTimestampsExponent = clientExponent retried A) := by
  obtain ⟨⟨hcs,-,hcp,hcc⟩,hss,-,hsp,hsc⟩ := connect_ok hA hB h
  have hserverUnit := exponentToUse_server hsc hBe
  have hclientUnit := exponentToUse_client hcc hAe
  rw [← hcs] at hA ⊢
  rw [← hss] at hB ⊢
  rw [← hserverUnit,← hclientUnit]
  refine ⟨scaledIff hA hcp hAe (by rw [hsc]) ?_,?_⟩
  · rw [hserverUnit]
    exact hBe
  · rw [hserverUnit]
    refine scaledIff hB hsp hBe (by rw [hcc]) ?_
    rw [hclientUnit]
    exact clientExponent_le retried hAe

/-- The frames of both endpoints are decoded in the unit they were written in exactly if the
configured units agree wherever timestamps are sent. -/
theorem timestamp_units_agree_iff
    (hA : clientSettings.maybeAckReceiveTimestampsConfigSentToPeer = some A)
    (hB : serverSettings.maybeAckReceiveTimestampsConfigSentToPeer = some B)
    (hAe : A.receiveTimestampsExponent≤20) (hBe : B.receiveTimestampsExponent≤20)
    (hconnect : connect clientSettings serverSettings retried {} = .ok (client,server)) :
    (∀ (times : CreationTimes) (client server : Endpoint),IsTimePoint times.client →
      IsTimePoint times.clientAfterRetry → IsTimePoint times.server →
      connect clientSettings serverSettings retried times = .ok (client,server) →
      (∃ e,ScaledBy client server e) ∧ ∃ e,ScaledBy server client e) ↔
    (SendsTimestamps clientSettings B → A.receiveTimestampsExponent=B.receiveTimestampsExponent) ∧
      (SendsTimestamps serverSettings A → B.receiveTimestampsExponent = clientExponent retried A) := by
  constructor
  · intro hall
    obtain ⟨hclient,hserver⟩ := hall {} client server (by decide) (by decide) (by decide) hconnect
    obtain ⟨⟨-,htime,-⟩,-,htime',-⟩ := connect_ok hA hB hconnect
    obtain ⟨⟨-,hunits⟩,-,hunits'⟩ := connect_scaledBy_iff hA hB hAe hBe hconnect
    exact ⟨hunits (htime.trans (by cases retried <;> rfl)) hclient,hunits' htime' hserver⟩
  · rintro ⟨hagree,hagree'⟩ times client server hc hr hs h
    obtain ⟨⟨-,htime,-⟩,-,htime',-⟩ := connect_ok hA hB h
    obtain ⟨⟨hscaled,-⟩,hscaled',-⟩ := connect_scaledBy_iff hA hB hAe hBe h
    refine ⟨hscaled ?_ hagree,hscaled' (htime'.symm ▸ hs) hagree'⟩
    rw [htime]
    cases retried
    · exact hc
    · exact hr

end Handshake

def eightMicros : TransportSettings :=
  {maybeAckReceiveTimestampsConfigSentToPeer := some ⟨10,3⟩}

theorem timestamp_units_agree_eight :
    SendsTimestamps eightMicros ⟨10,3⟩ ∧
      ∀ (times : CreationTimes) (client server : Endpoint),IsTimePoint times.client →
        IsTimePoint times.clientAfterRetry → IsTimePoint times.server →
        connect eightMicros eightMicros false times = .ok (client,server) →
        (∃ e,ScaledBy client server e) ∧ ∃ e,ScaledBy server client e :=
  ⟨⟨rfl,by decide⟩,
    (@timestamp_units_agree_iff eightMicros eightMicros false _ _ ⟨10,3⟩ ⟨10,3⟩ rfl rfl (by decide)
      (by decide) rfl).mpr ⟨fun _ => rfl,fun _ => rfl⟩⟩

def thirtyTwoMicros : TransportSettings :=
  {maybeAckReceiveTimestampsConfigSentToPeer := some ⟨10,5⟩}

/-- A time of 8 µs, written in units of 8 µs, is read as one unit of 32 µs. -/
theorem eight_micros_read_as_thirty_two :
    ∃ client server n b frame,connect eightMicros thirtyTwoMicros false {} = .ok (client,server) ∧
      (writeNextAcks client (stateWithAcks 10 (oneUnitLater 3) (receive 10 {} (oneUnitLater 3)).acks) .short
        8000).run {remainingBytes := 1200} = .ok (some n,b) ∧
      (parseFrame .short server.codecParameters).run b.body = .ok (some frame,[]) ∧
      microDurations client.connectionTime (receive 10 {} (oneUnitLater 3)).recvdPacketInfos = [8] ∧
      frame.recvdPacketsTimestampRanges.flatMap deltas = [32] ∧ ¬∃ e,ScaledBy client server e := by
  obtain ⟨client,server,hconnect⟩ : ∃ client server,
      connect eightMicros thirtyTwoMicros false {} = .ok (client,server) := ⟨_,_,rfl⟩
  obtain ⟨⟨hcs,htime,hcp,-⟩,-,-,-,hsc⟩ := connect_ok (A := ⟨10,3⟩) (B := ⟨10,5⟩) rfl rfl hconnect
  have hconfig : client.transportSettings.maybeAckReceiveTimestampsConfigSentToPeer = some ⟨10,3⟩ := by
    rw [hcs]
    rfl
  have hcount : 0 < (client.peerConfig 10 5).maxReceiveTimestampsPerAck := by
    change 0 < min _ (client.transportSettings.maxReceiveTimestampsPerAckStored % 2^8)
    rw [hcs]
    decide
  have hecn : client.transportSettings.readEcnOnIngress=false := by
    rw [hcs]
    rfl
  have hunit := exponentToUse_server hsc (by decide)
  obtain ⟨n,b,frame,hwrite,-,hread,hdeltas⟩ := read_oneUnitLater hconfig hcp hcount hecn htime (by decide)
    (by rw [hsc]) (by rw [hunit]; decide) rfl
  rw [hunit] at hdeltas
  rw [hcs] at hwrite
  refine ⟨client,server,n,b,frame,hconnect,hwrite,hread,?_,hdeltas,?_⟩
  · rw [htime,recvdPacketInfos_oneUnitLater]
    exact microDurations_oneUnitLater (by decide)
  · rintro ⟨e,hscaled⟩
    have hsame := same_unit_of_scaledBy hconfig hcp hcount hecn htime (by decide) (by rw [hsc])
      (by rw [hunit]; decide) hscaled
    rw [hunit] at hsame
    exact absurd hsame (by decide)

end QuicWestwood
