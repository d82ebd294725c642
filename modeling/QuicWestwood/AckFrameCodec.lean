import QuicWestwood.AckFrameDecode
import QuicWestwood.Sweep

/-! What `writeAckFrame` writes is read back as the same frame with as many blocks as fit, as long as the delay
can be encoded and the packet has room for the ECN counts. With less room than that the reserve for the counts
wraps around. -/
namespace QuicWestwood
open ByteCodec

def CodecParameters.ackDelayExponent (params : CodecParameters) : HeaderForm → UInt8
  | .long => UInt8.ofNat kDefaultAckDelayExponent
  | .short => params.peerAckDelayExponent

/-- The delay in whole units of `2 ^ ackDelayExponent` microseconds. -/
def WriteAckFrameMetaData.roundedAckDelay (metaData : WriteAckFrameMetaData) : ℕ :=
  metaData.ackDelay.toNat/2^metaData.ackDelayExponent*2^metaData.ackDelayExponent

def WriteAckFrameMetaData.toldAckDelay (metaData : WriteAckFrameMetaData) : ℕ :=
  if metaData.roundedAckDelay ≤ 1000*1000*1000 then metaData.roundedAckDelay else 0

def WriteAckFrameMetaData.intendedFrame (metaData : WriteAckFrameMetaData) (frameType : FrameType)
    (largest : Interval) (blocks : List Interval) : ReadAckFrame :=
  let frame : ReadAckFrame :=
    {largestAcked := largest.stop
     ackDelay := metaData.toldAckDelay
     frameType
     ackBlocks := (largest::blocks).map Interval.toAckBlock}
  if frameType = .ackEcn then
    {frame with
      ecnECT0Count := metaData.ackState.ecnECT0CountReceived
      ecnECT1Count := metaData.ackState.ecnECT1CountReceived
      ecnCECount := metaData.ackState.ecnCECountReceived}
  else frame

/-- An acks set, a delay and counts as the types of the source and the range of packet numbers
allow them. -/
structure WriteAckFrameMetaData.InRange (metaData : WriteAckFrameMetaData) : Prop where
  acks : metaData.ackState.acks.intervals≠[]
  pktNums : ∀ i ∈ metaData.ackState.acks.intervals,i.stop < 2^62
  ackDelay : 0 ≤ metaData.ackDelay ∧ metaData.ackDelay < 2^63
  exponent : metaData.ackDelayExponent<64
  ecnCounts : ∀ count ∈ ecnCounts metaData.ackState,count < 2^32

section Codec
variable {metaData : WriteAckFrameMetaData} {frameType : FrameType} {largest : Interval}
  {others blocks : List Interval} {header : HeaderForm} {params : CodecParameters}

lemma encodedAckDelay_eq (h : metaData.InRange) :
    encodedAckDelay metaData = metaData.ackDelay.toNat/2^metaData.ackDelayExponent := by
  obtain ⟨hnonneg,hlt⟩ := h.ackDelay
  have hu := u64_of_nonneg hnonneg (by omega)
  rw [encodedAckDelay]
  congr 1
  omega

lemma decodedAckDelay_encoded (h : metaData.InRange)
    (hexponent : (params.ackDelayExponent header).toNat = metaData.ackDelayExponent) :
    decodedAckDelay header params frameType (encodedAckDelay metaData) = .ok metaData.toldAckDelay := by
  have hlt := h.ackDelay.2
  have hround : metaData.roundedAckDelay < 2^63 := by
    have hle := Nat.div_mul_le_self metaData.ackDelay.toNat (2^metaData.ackDelayExponent)
    unfold WriteAckFrameMetaData.roundedAckDelay
    omega
  have hconvert : convertEncodedDurationToMicroseconds frameType (params.ackDelayExponent header)
      (encodedAckDelay metaData) = .ok metaData.roundedAckDelay := by
    rw [convertEncodedDurationToMicroseconds_ok (hexponent ▸ h.exponent),hexponent,encodedAckDelay_eq h]
    · rfl
    · rw [hexponent,encodedAckDelay_eq h]
      exact hround
  have hdecode : decodedAckDelay header params frameType (encodedAckDelay metaData) =
      convertEncodedDurationToMicroseconds frameType (params.ackDelayExponent header)
        (encodedAckDelay metaData) >>= fun adjusted =>
          .ok (if 1000*1000*1000 < adjusted then 0 else adjusted) := by
    cases header <;> rfl
  rw [hdecode,hconvert,ok_bind,WriteAckFrameMetaData.toldAckDelay]
  congr 1
  split_ifs <;> first | rfl | omega

lemma encodable_ecnFields (h : metaData.InRange) (frameType : FrameType) :
    Encodable (ecnFields frameType metaData.ackState) := by
  unfold ecnFields
  split_ifs
  · intro count hcount
    have hlt := h.ecnCounts count hcount
    unfold kEightByteLimit
    omega
  · exact encodable_nil

lemma encodable_ackFrameFields (h : metaData.InRange)
    (hdelay : encodedAckDelay metaData ≤ kEightByteLimit)
    (hacks : metaData.ackState.acks.intervals.reverse = largest::others)
    (hblocks : BlocksBelow largest.start blocks) :
    Encodable (ackFrameFields metaData frameType largest blocks) := by
  have hvalid := largest.valid
  have hstop : largest.stop≤kEightByteLimit := by
    have hlt := h.pktNums largest (by rw [← List.mem_reverse,hacks]; exact List.mem_cons_self)
    unfold kEightByteLimit
    omega
  have hcount := hblocks.length_le
  simp only [ackFrameFields,ackFields,encodable_append,encodable_cons,encodable_nil,and_true]
  exact ⟨⟨⟨code_le frameType,hstop,hdelay,by omega,by omega⟩,
    encodable_blockFields hblocks (hvalid.trans hstop)⟩,encodable_ecnFields h frameType⟩

theorem reads_ackFrame (h : metaData.InRange) (htype : frameType≠.ackReceiveTimestamps)
    (hblocks : BlocksBelow largest.start blocks)
    (henc : Encodable (ackFrameFields metaData frameType largest blocks))
    (hexponent : (params.ackDelayExponent header).toNat = metaData.ackDelayExponent) :
    Reads (parseFrame header params) (quicIntegers (ackFrameFields metaData frameType largest blocks))
      (some (metaData.intendedFrame frameType largest blocks)) := by
  simp only [ackFrameFields,ackFields,encodable_append,encodable_cons,encodable_nil,and_true] at henc
  obtain ⟨⟨⟨-,hstop,hdelay,hcount,hlen⟩,hfields⟩,hecn⟩ := henc
  have hbody : Encodable (ackBody metaData largest blocks) := by
    simp only [ackBody,encodable_append,encodable_cons,encodable_nil,and_true]
    exact ⟨⟨hstop,hdelay,hcount,hlen⟩,hfields⟩
  have hdecoded : decodedAckDelay header params .ack (encodedAckDelay metaData) = .ok metaData.toldAckDelay :=
    decodedAckDelay_encoded h hexponent
  have hack := reads_decodeAckFrame hbody hblocks hdecoded
  cases frameType with
  | ackReceiveTimestamps => exact absurd rfl htype
  | ack =>
    have hbytes : quicIntegers (ackFrameFields metaData .ack largest blocks) =
        quicInteger FrameType.ack.code++quicIntegers (ackBody metaData largest blocks) := by
      simp [ackFrameFields,ackFields,ackBody,ecnFields]
    rw [hbytes]
    exact reads_parseFrame .ack hack
  | ackEcn =>
    have hbytes : quicIntegers (ackFrameFields metaData .ackEcn largest blocks) =
        quicInteger FrameType.ackEcn.code++(quicIntegers (ackBody metaData largest blocks) ++
          (quicInteger metaData.ackState.ecnECT0CountReceived ++
            (quicInteger metaData.ackState.ecnECT1CountReceived ++
              (quicInteger metaData.ackState.ecnCECountReceived++[])))) := by
      simp [ackFrameFields,ackFields,ackBody,ecnFields,ecnCounts]
    have hframe : metaData.intendedFrame .ackEcn largest blocks =
        {largestAcked := largest.stop, ackDelay := metaData.toldAckDelay, frameType := .ackEcn,
         ackBlocks := (largest::blocks).map Interval.toAckBlock,
         ecnECT0Count := metaData.ackState.ecnECT0CountReceived % 2^32,
         ecnECT1Count := metaData.ackState.ecnECT1CountReceived % 2^32,
         ecnCECount := metaData.ackState.ecnCECountReceived % 2^32} := by
      rw [Nat.mod_eq_of_lt (h.ecnCounts _ (by simp [ecnCounts])),
        Nat.mod_eq_of_lt (h.ecnCounts _ (by simp [ecnCounts])),
        Nat.mod_eq_of_lt (h.ecnCounts _ (by simp [ecnCounts]))]
      rfl
    rw [ecnFields,if_pos rfl,ecnCounts,encodable_cons,encodable_cons,encodable_cons] at hecn
    rw [hbytes,hframe]
    exact reads_parseFrame .ackEcn (hack.bind ((reads_readQuicInteger hecn.1 _ _).bind
      ((reads_readQuicInteger hecn.2.1 _ _).bind ((reads_readQuicInteger hecn.2.2.1 _ _).bind
        (reads_pure _)))))

end Codec

def ackFrameBytes (metaData : WriteAckFrameMetaData) (frameType : FrameType) (largest : Interval)
    (blocks : List Interval) : Bytes :=
  quicIntegers (ackFrameFields metaData frameType largest blocks)

/-- A frame with the first `j` of the other blocks is written. It fits, one with more blocks
would not, and the peer reads it. -/
structure DeliversAck (metaData : WriteAckFrameMetaData) (frameType : FrameType) (b : PacketBuilder)
    (largest : Interval) (others : List Interval) (j : ℕ) (result : WriteAckFrameResult)
    (b' : PacketBuilder) : Prop where
  blocks : result.writeAckFrame.ackBlocks = largest::others.take j
  written : b' = b.append (ackFrameBytes metaData frameType largest (others.take j))
  bytesWritten : result.bytesWritten = (ackFrameBytes metaData frameType largest (others.take j)).length
  fits : (ackFrameBytes metaData frameType largest (others.take j)).length ≤ b.remainingSpaceInPkt
  longest : ∀ k,j < k → k≤others.length →
    b.remainingSpaceInPkt < (ackFrameBytes metaData frameType largest (others.take k)).length
  read : ∀ header params,(params.ackDelayExponent header).toNat = metaData.ackDelayExponent →
    Reads (parseFrame header params) (ackFrameBytes metaData frameType largest (others.take j))
      (some (metaData.intendedFrame frameType largest (others.take j)))

/-- The frame is delivered, or nothing is written because not even one block fits. -/
def CodecCorrect (metaData : WriteAckFrameMetaData) (frameType : FrameType) (b : PacketBuilder) : Prop :=
  ∃ largest others,metaData.ackState.acks.intervals.reverse = largest::others ∧
    Ends ((writeAckFrame metaData frameType).run b) (fun _ => False) fun r =>
      match r.1 with
      | none => r.2 = b ∧ b.remainingSpaceInPkt < (ackFrameBytes metaData frameType largest []).length
      | some result => ∃ j ≤ others.length,DeliversAck metaData frameType b largest others j result r.2

section Codec
variable {metaData : WriteAckFrameMetaData} {frameType : FrameType} {largest : Interval}
  {others blocks : List Interval} {b : PacketBuilder}

lemma writeAckFrame_run : (writeAckFrame metaData frameType).run b =
    (writeAckFrameToPacketBuilder metaData frameType).run b >>= fun r =>
      .ok (r.1.map fun frame =>
        {bytesWritten := subU64 b.remainingSpaceInPkt r.2.remainingSpaceInPkt
         writeAckFrame := frame
         ackBlocksWritten := frame.ackBlocks.length},r.2) := by
  simp only [writeAckFrame,StateT.run_bind,StateT.run_get,pure_bind]
  cases (writeAckFrameToPacketBuilder metaData frameType).run b with
  | error e => rfl
  | ok r =>
    obtain ⟨_ | frame,b'⟩ := r
    · rfl
    · rfl

lemma writeAckFrame_error {e : Failure}
    (hacks : metaData.ackState.acks.intervals.reverse = largest::others)
    (h : chooseAckBlocks metaData frameType b.remainingSpaceInPkt largest others = .error e) :
    (writeAckFrame metaData frameType).run b = .error e := by
  have hwrite : (writeAckFrameToPacketBuilder metaData frameType).run b = .error e := by
    simp [writeAckFrameToPacketBuilder,hacks,h]
    rfl
  rw [writeAckFrame_run,hwrite]
  rfl

lemma writeAckFrame_none (hacks : metaData.ackState.acks.intervals.reverse = largest::others)
    (h : chooseAckBlocks metaData frameType b.remainingSpaceInPkt largest others = .ok none) :
    (writeAckFrame metaData frameType).run b = .ok (none,b) := by
  have hwrite : (writeAckFrameToPacketBuilder metaData frameType).run b = .ok (none,b) := by
    simp [writeAckFrameToPacketBuilder,hacks,h]
    rfl
  rw [writeAckFrame_run,hwrite]
  rfl

lemma chooseAckBlocks_error (h : kEightByteLimit < encodedAckDelay metaData) (space : ℕ) :
    ∃ e,chooseAckBlocks metaData frameType space largest others = .error e := by
  cases hchoose : chooseAckBlocks metaData frameType space largest others with
  | error e => exact ⟨e,rfl⟩
  | ok r =>
    simp only [chooseAckBlocks,bind_eq_ok,sumSizes_eq_ok] at hchoose
    obtain ⟨_,-,_,-,_,⟨henc,-⟩,-⟩ := hchoose
    exact absurd (henc _ (by simp)) (not_le.mpr h)

lemma chooseAckBlocks_lengthError (h : metaData.InRange) {space : ℕ} (hspace : space < 2^32)
    (hlt : space < (quicIntegers (ecnFields frameType metaData.ackState)).length) :
    chooseAckBlocks metaData frameType space largest others = .error .lengthError := by
  obtain ⟨left,hecn,hreserve⟩ := reserve_of_lt hspace (encodable_ecnFields h frameType) hlt
  rw [chooseAckBlocks,hecn,ok_bind,hreserve]
  rfl

lemma ends_writeAckFrame (h : metaData.InRange) (htype : frameType≠.ackReceiveTimestamps)
    (hacks : metaData.ackState.acks.intervals.reverse = largest::others)
    (hdelay : encodedAckDelay metaData ≤ kEightByteLimit)
    (hecn : (quicIntegers (ecnFields frameType metaData.ackState)).length ≤ b.remainingSpaceInPkt) :
    Ends ((writeAckFrame metaData frameType).run b) (fun _ => False) fun r =>
      match r.1 with
      | none => r.2 = b ∧ b.remainingSpaceInPkt < (ackFrameBytes metaData frameType largest []).length
      | some result => ∃ j ≤ others.length,DeliversAck metaData frameType b largest others j result r.2 := by
  have hspace : b.remainingSpaceInPkt < 2^32 := UInt32.toNat_lt _
  have hblocks := blocksBelow_of_reverse metaData.ackState.acks.sorted hacks
  have henc : ∀ j,Encodable (ackFrameFields metaData frameType largest (others.take j)) := fun j =>
    encodable_ackFrameFields h hdelay hacks (hblocks.take j)
  have hmin : minTimestampFieldsSize metaData frameType = .ok 0 := if_neg htype
  rcases chooseAckBlocks_longest hspace hmin hblocks (henc 0) hecn with ⟨hnone,hlt⟩ | ⟨j,hj,hsome,hmax⟩
  · rw [writeAckFrame_none hacks hnone]
    exact ⟨rfl,hlt⟩
  · obtain ⟨-,minSize,hmin',hfits⟩ := chooseAckBlocks_ok hspace hsome
    obtain rfl := Except.ok.inj (hmin.symm.trans hmin')
    rw [Nat.add_zero] at hfits
    have hwrite := (writeAckFrameToPacketBuilder_eq_ok hacks hsome (hblocks.take j)).mpr ⟨henc j,rfl,rfl⟩
    rw [writeAckFrame_run,hwrite]
    refine ⟨j,hj,?_,rfl,?_,hfits,fun k hk hle => hmax k hk hle,fun header params hexponent =>
      reads_ackFrame h htype (hblocks.take j) (henc j) hexponent⟩
    · unfold writtenFrame
      split_ifs <;> rfl
    · rw [PacketBuilder.remainingSpaceInPkt_append hfits,subU64_of_le (Nat.sub_le _ _) (by omega)]
      exact Nat.sub_sub_self hfits

end Codec

def markedArrivals : WriteAckFrameMetaData where
  ackState :=
    {acks := ((IntervalSet.empty.insertPoint 1).insertPoint 2).insertPoint 5, ecnECT0CountReceived := 1}
  ackDelay := 100
  ackDelayExponent := 3
  connTime := 0

lemma inRange_markedArrivals : markedArrivals.InRange where
  acks := by decide
  pktNums := by decide
  ackDelay := by decide
  exponent := by decide
  ecnCounts := by decide

end QuicWestwood
