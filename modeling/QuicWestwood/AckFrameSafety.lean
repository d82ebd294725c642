import QuicWestwood.AckApplication

/-! Whatever the bytes are, a frame that `decodeAckFrame` returns has blocks in descending order with a gap
between any two, and the 64-bit arithmetic of the decoder never wraps around. -/
namespace QuicWestwood
open ByteCodec

def nextAckedPacketGapU64 (packetNum gap : UInt64) : Except QuicTransportException UInt64 :=
  if packetNum < gap+2 then .error (frameEncodingError "Bad gap" .ack)
  else .ok (packetNum-(gap+2))

def nextAckedPacketLenU64 (packetNum ackBlockLen : UInt64) : Except QuicTransportException UInt64 :=
  if packetNum<ackBlockLen then .error (frameEncodingError "Bad block len" .ack)
  else .ok (packetNum-ackBlockLen)

def decodeAckBlockU64 (currentPacketNum : UInt64) : Decoder (AckBlock × UInt64) := do
  let gap ← readQuicInteger "Bad gap" .ack
  let blockLen ← readQuicInteger "Bad block len" .ack
  let nextEndPacket ← nextAckedPacketGapU64 currentPacketNum (.ofNat gap)
  let startPacket ← nextAckedPacketLenU64 nextEndPacket (.ofNat blockLen)
  return (⟨startPacket.toNat,nextEndPacket.toNat⟩,startPacket)

def decodeAckFrameU64 (header : HeaderForm) (params : CodecParameters) (frameType : FrameType) :
    Decoder ReadAckFrame := do
  let largestAcked ← readQuicInteger "Bad largest acked" .ack
  let ackDelay ← readQuicInteger "Bad ack delay" .ack
  let additionalAckBlocks ← readQuicInteger "Bad ack block count" .ack
  let firstAckBlockLen ← readQuicInteger "Bad first block" .ack
  let currentPacketNum ← nextAckedPacketLenU64 (.ofNat largestAcked) (.ofNat firstAckBlockLen)
  let adjustedDelay ← decodedAckDelay header params frameType ackDelay
  let (blocks,_) ← readMany decodeAckBlockU64 additionalAckBlocks currentPacketNum
  return {largestAcked, ackDelay := adjustedDelay, frameType,
          ackBlocks := ⟨currentPacketNum.toNat,largestAcked⟩::blocks}

lemma decodeQuicInteger_le {bytes rest : Bytes} {v : ℕ} (h : decodeQuicInteger bytes = some (v,rest)) :
    v ≤ kEightByteLimit := by
  unfold decodeQuicInteger at h
  split at h
  · cases h
  · rename_i first tail
    have hfirst := UInt8.toNat_lt first
    have htype : first.toNat/2^6 < 4 := by omega
    simp only at h
    split_ifs at h with hzero hshort
    · obtain ⟨rfl,-⟩ := Prod.mk.inj (Option.some.inj h)
      unfold kEightByteLimit
      omega
    · obtain ⟨rfl,-⟩ := Prod.mk.inj (Option.some.inj h)
      have hlt := Nat.mod_lt (ofBigEndian ((first::tail).take (2^(first.toNat/2^6))))
        (Nat.two_pow_pos (8*2^(first.toNat/2^6)-2))
      have hpow : 2^(8*2^(first.toNat/2^6)-2) ≤ 2^62 := by
        refine Nat.pow_le_pow_right (by omega) ?_
        interval_cases first.toNat/2^6 <;> norm_num
      unfold kEightByteLimit
      omega

lemma ends_readQuicInteger (message : String) (frameType : FrameType) (bytes : Bytes) :
    Ends ((readQuicInteger message frameType).run bytes) (fun _ => True) fun r => r.1 ≤ kEightByteLimit := by
  simp only [readQuicInteger,StateT.run]
  split
  · rename_i r hr
    exact decodeQuicInteger_le hr
  · trivial

section NoWrap
variable {n gap len : ℕ}

lemma subtract_u64 {a b : UInt64} {k : ℕ} (ha : a.toNat=n) (hb : b.toNat=k) (e : QuicTransportException) :
    (if a<b then .error e else .ok (a-b)) =
      UInt64.ofNat <$> if n<k then Except.error e else Except.ok (n-k) := by
  subst ha hb
  by_cases hlt : a.toNat<b.toNat
  · rw [if_pos hlt,if_pos (UInt64.lt_iff_toNat_lt.mpr hlt)]
    rfl
  · have hle : b≤a := UInt64.le_iff_toNat_le.mpr (not_lt.mp hlt)
    rw [if_neg hlt,if_neg fun h => hlt (UInt64.lt_iff_toNat_lt.mp h),← UInt64.toNat_sub_of_le _ _ hle]
    exact congrArg Except.ok UInt64.ofNat_toNat.symm

lemma toNat_ofNat_le (hlen : len≤kEightByteLimit) : (UInt64.ofNat len).toNat = len := by
  unfold kEightByteLimit at hlen
  exact UInt64.toNat_ofNat_of_lt' (by simp [UInt64.size]; omega)

lemma nextAckedPacketGapU64_eq (hn : n≤kEightByteLimit) (hgap : gap≤kEightByteLimit) :
    nextAckedPacketGapU64 (.ofNat n) (.ofNat gap) = UInt64.ofNat <$> nextAckedPacketGap n gap := by
  refine subtract_u64 (toNat_ofNat_le hn) ?_ _
  rw [UInt64.toNat_add,toNat_ofNat_le hgap]
  unfold kEightByteLimit at hgap
  exact Nat.mod_eq_of_lt (by simp; omega)

lemma nextAckedPacketLenU64_eq (hn : n≤kEightByteLimit) (hlen : len≤kEightByteLimit) :
    nextAckedPacketLenU64 (.ofNat n) (.ofNat len) = UInt64.ofNat <$> nextAckedPacketLen n len :=
  subtract_u64 (toNat_ofNat_le hn) (toNat_ofNat_le hlen) _

lemma ends_nextAckedPacketGap (n gap : ℕ) :
    Ends (nextAckedPacketGap n gap) (fun _ => True) fun m => m+(gap+2) = n := by
  unfold nextAckedPacketGap
  split_ifs
  · trivial
  · exact Nat.sub_add_cancel (by omega)

lemma ends_nextAckedPacketLen (n len : ℕ) :
    Ends (nextAckedPacketLen n len) (fun _ => True) fun m => m+len = n := by
  unfold nextAckedPacketLen
  split_ifs
  · trivial
  · exact Nat.sub_add_cancel (by omega)

lemma ends_run_lift {α : Type} {x : Except QuicTransportException α} {Q : α → Prop}
    (h : Ends x (fun _ => True) Q) (bytes : Bytes) :
    Ends ((liftM x : Decoder α).run bytes) (fun _ => True) fun r => Q r.1 := by
  cases x with
  | error e => trivial
  | ok a => exact h

lemma ends_decodeAckBlock (n : ℕ) (bytes : Bytes) :
    Ends ((decodeAckBlock n).run bytes) (fun _ => True) fun r =>
      r.1.1.startPacket ≤ r.1.1.endPacket ∧ r.1.1.endPacket+2 ≤ n ∧ r.1.2=r.1.1.startPacket := by
  rw [decodeAckBlock,StateT.run_bind]
  refine (ends_readQuicInteger _ _ bytes).bind fun gap _ => ?_
  rw [StateT.run_bind]
  refine (ends_readQuicInteger _ _ _).bind fun len _ => ?_
  rw [StateT.run_bind]
  refine (ends_run_lift (ends_nextAckedPacketGap n gap.1) _).bind fun stop hstop => ?_
  rw [StateT.run_bind]
  refine (ends_run_lift (ends_nextAckedPacketLen stop.1 len.1) _).bind fun start hstart => ?_
  exact ⟨by change start.1 ≤ stop.1; omega,by change stop.1+2 ≤ n; omega,rfl⟩

lemma ends_decodeAckBlocks (k n : ℕ) (bytes : Bytes) :
    Ends ((readMany decodeAckBlock k n).run bytes) (fun _ => True) fun r =>
      (∀ b ∈ r.1.1,b.startPacket ≤ b.endPacket ∧ b.endPacket+2 ≤ n) ∧
        r.1.1.Pairwise fun b c => c.endPacket+2 ≤ b.startPacket := by
  induction k generalizing n bytes with
  | zero => exact ⟨nofun,.nil⟩
  | succ k ih =>
    rw [readMany,StateT.run_bind]
    refine (ends_decodeAckBlock n bytes).bind ?_
    rintro ⟨⟨block,next⟩,rest⟩ ⟨hvalid,hbelow,hnext⟩
    simp only at hvalid hbelow hnext ⊢
    subst hnext
    rw [StateT.run_map]
    refine Ends.map ((ih block.startPacket rest).imp ?_)
    rintro ⟨⟨blocks,last⟩,rest'⟩ ⟨hblocks,hpairs⟩
    simp only at hblocks hpairs ⊢
    refine ⟨fun b hb => ?_,List.pairwise_cons.mpr ⟨fun b hb => (hblocks b hb).2,hpairs⟩⟩
    rcases List.mem_cons.mp hb with rfl | hb
    · exact ⟨hvalid,hbelow⟩
    · have hb := hblocks b hb
      exact ⟨hb.1,by omega⟩

lemma ends_any {α : Type} (x : Except QuicTransportException α) : Ends x (fun _ => True) fun _ => True :=
  .of_forall (fun _ _ => trivial) fun _ _ => trivial

lemma ends_decodedAckDelay (header : HeaderForm) (params : CodecParameters) (frameType : FrameType)
    (ackDelay : ℕ) : Ends (decodedAckDelay header params frameType ackDelay) (fun _ => True)
      fun delay => delay ≤ 1000*1000*1000 := by
  refine (ends_any _).bind fun adjusted _ => ?_
  change (if 1000*1000*1000 < adjusted then 0 else adjusted) ≤ _
  split_ifs <;> omega

end NoWrap

lemma run_lift {α : Type} (x : Except QuicTransportException α) (bytes : Bytes) :
    (liftM x : Decoder α).run bytes = (fun a => (a,bytes)) <$> x := by
  cases x <;> rfl

/-- The number reached so far is carried as a 64-bit integer. -/
def toU64 {α : Type} (r : (α × ℕ) × Bytes) : (α × UInt64) × Bytes := ((r.1.1,.ofNat r.1.2),r.2)

lemma decodeAckBlockU64_eq {n : ℕ} (hn : n≤kEightByteLimit) (bytes : Bytes) :
    (decodeAckBlockU64 (.ofNat n)).run bytes = toU64 <$> (decodeAckBlock n).run bytes := by
  simp only [decodeAckBlockU64,decodeAckBlock,StateT.run_bind,run_lift,map_bind,bind_map_left]
  refine bind_congr_ok fun gap hgap => bind_congr_ok fun len hlen => ?_
  have hgap := (ends_readQuicInteger _ _ _).of_eq_ok hgap
  have hlen := (ends_readQuicInteger _ _ _).of_eq_ok hlen
  rw [nextAckedPacketGapU64_eq hn hgap,bind_map_left]
  refine bind_congr_ok fun stop hstop => ?_
  have hstop := (ends_nextAckedPacketGap n gap.1).of_eq_ok hstop
  have hle : stop≤kEightByteLimit := by omega
  rw [nextAckedPacketLenU64_eq hle hlen,bind_map_left]
  refine bind_congr_ok fun start hstart => ?_
  have hstart := (ends_nextAckedPacketLen stop len.1).of_eq_ok hstart
  have hle' : start≤kEightByteLimit := by omega
  rw [toNat_ofNat_le hle,toNat_ofNat_le hle']
  rfl

lemma decodeAckBlocksU64_eq (k : ℕ) {n : ℕ} (hn : n≤kEightByteLimit) (bytes : Bytes) :
    (readMany decodeAckBlockU64 k (.ofNat n)).run bytes =
      toU64 <$> (readMany decodeAckBlock k n).run bytes := by
  induction k generalizing n bytes with
  | zero => rfl
  | succ k ih =>
    simp only [readMany,StateT.run_bind,StateT.run_map,decodeAckBlockU64_eq hn,map_bind,bind_map_left]
    refine bind_congr_ok ?_
    rintro ⟨⟨block,next⟩,rest⟩ hblock
    obtain ⟨hvalid,hbelow,hnext⟩ := (ends_decodeAckBlock n bytes).of_eq_ok hblock
    simp only at hvalid hbelow hnext
    simp only [toU64]
    rw [ih (by omega)]
    cases (readMany decodeAckBlock k next).run rest <;> rfl

/-- No subtraction of the decoder wraps around: in 64-bit arithmetic it computes the same. -/
lemma decodeAckFrameU64_eq (header : HeaderForm) (params : CodecParameters) (frameType : FrameType)
    (bytes : Bytes) : (decodeAckFrameU64 header params frameType).run bytes =
      (decodeAckFrame header params frameType).run bytes := by
  simp only [decodeAckFrameU64,decodeAckFrame,StateT.run_bind,run_lift,bind_map_left]
  refine bind_congr_ok fun largest hlargest => bind_congr_ok fun delay _ =>
    bind_congr_ok fun count _ => bind_congr_ok fun len hlen => ?_
  have hlargest := (ends_readQuicInteger _ _ _).of_eq_ok hlargest
  have hlen := (ends_readQuicInteger _ _ _).of_eq_ok hlen
  rw [nextAckedPacketLenU64_eq hlargest hlen,bind_map_left]
  refine bind_congr_ok fun start hstart => bind_congr_ok fun adjusted _ => ?_
  have hstart := (ends_nextAckedPacketLen largest.1 len.1).of_eq_ok hstart
  have hle : start≤kEightByteLimit := by omega
  rw [decodeAckBlocksU64_eq _ hle,bind_map_left]
  refine bind_congr_ok fun blocks _ => ?_
  rw [toNat_ofNat_le hle]
  rfl

structure ReadAckFrame.WellFormed (frame : ReadAckFrame) : Prop where
  first : frame.ackBlocks.head?.map AckBlock.endPacket = some frame.largestAcked
  valid : ∀ b ∈ frame.ackBlocks,b.startPacket ≤ b.endPacket
  apart : frame.ackBlocks.Pairwise fun b c => c.endPacket+2 ≤ b.startPacket
  ackDelay : 0≤frame.ackDelay ∧ frame.ackDelay ≤ 1000*1000*1000

lemma ReadAckFrame.WellFormed.descending {frame : ReadAckFrame} (h : frame.WellFormed) : frame.Descending :=
  ⟨h.valid,h.apart.imp fun hbc => by omega⟩

section
variable (header : HeaderForm) (params : CodecParameters)

lemma ends_decodeAckFrame (frameType : FrameType)
    (bytes : Bytes) :
    Ends ((decodeAckFrame header params frameType).run bytes) (fun _ => True) fun r => r.1.WellFormed := by
  rw [decodeAckFrame,StateT.run_bind]
  refine (ends_readQuicInteger _ _ bytes).bind fun largest _ => ?_
  rw [StateT.run_bind]
  refine (ends_readQuicInteger _ _ _).bind fun delay _ => ?_
  rw [StateT.run_bind]
  refine (ends_readQuicInteger _ _ _).bind fun count _ => ?_
  rw [StateT.run_bind]
  refine (ends_readQuicInteger _ _ _).bind fun len _ => ?_
  rw [StateT.run_bind]
  refine (ends_run_lift (ends_nextAckedPacketLen largest.1 len.1) _).bind fun start hstart => ?_
  rw [StateT.run_bind]
  refine (ends_run_lift (ends_decodedAckDelay header params frameType delay.1) _).bind
    fun adjusted hadjusted => ?_
  rw [StateT.run_bind]
  refine (ends_decodeAckBlocks count.1 start.1 _).bind ?_
  rintro ⟨⟨blocks,last⟩,rest⟩ ⟨hblocks,hpairs⟩
  simp only at hblocks hpairs
  refine ⟨rfl,fun b hb => ?_,List.pairwise_cons.mpr ⟨fun b hb => (hblocks b hb).2,hpairs⟩,?_⟩
  · rcases List.mem_cons.mp hb with rfl | hb
    · change start.1 ≤ largest.1
      omega
    · exact (hblocks b hb).1
  · change 0 ≤ (adjusted.1 : ℤ) ∧ (adjusted.1 : ℤ) ≤ _
    omega

lemma ends_decodeAckFrameOfType (frameType : FrameType)
    (bytes : Bytes) : Ends ((decodeAckFrameOfType header params frameType).run bytes) (fun _ => True)
      fun r => r.1.WellFormed := by
  cases frameType with
  | ack => exact ends_decodeAckFrame header params .ack bytes
  | ackEcn =>
    simp only [decodeAckFrameOfType,decodeAckFrameWithECN,StateT.run_bind]
    refine (ends_decodeAckFrame header params .ack bytes).bind fun frame hframe => ?_
    refine (ends_any _).bind fun _ _ => (ends_any _).bind fun _ _ => (ends_any _).bind fun _ _ => ?_
    exact ⟨hframe.first,hframe.valid,hframe.apart,hframe.ackDelay⟩
  | ackReceiveTimestamps =>
    simp only [decodeAckFrameOfType,decodeAckFrameWithReceivedTimestamps,StateT.run_bind]
    refine (ends_decodeAckFrame header params .ackReceiveTimestamps bytes).bind fun frame hframe => ?_
    refine (ends_any _).bind fun _ _ => (ends_any _).bind fun _ _ => (ends_any _).bind fun _ _ =>
      (ends_any _).bind fun _ _ => ?_
    exact ⟨hframe.first,hframe.valid,hframe.apart,hframe.ackDelay⟩

lemma ends_parseFrame (bytes : Bytes) :
    Ends ((parseFrame header params).run bytes) (fun _ => True) fun r =>
      ∀ frame,r.1 = some frame → frame.WellFormed := by
  simp only [parseFrame,StateT.run]
  split
  · trivial
  · rename_i code rest _
    split
    · exact fun _ h => by cases h
    · rename_i frameType _
      have hends := ends_decodeAckFrameOfType header params frameType rest
      split
      · rename_i frame rest' hframe
        rintro _ ⟨⟩
        exact hends.of_eq_ok hframe
      · trivial

end

/-- For all bytes, what the decoder returns is well formed, its subtractions are exact, and
the blocks are as `processAckFrame` needs them. -/
theorem decodeAckFrame_hostile_bytes (header : HeaderForm) (params : CodecParameters)
    (frameType : FrameType) (bytes : Bytes) :
    (decodeAckFrameU64 header params frameType).run bytes =
        (decodeAckFrame header params frameType).run bytes ∧
      (∀ frame rest,(decodeAckFrame header params frameType).run bytes = .ok (frame,rest) →
        frame.WellFormed) ∧
      ∀ frame rest,(parseFrame header params).run bytes = .ok (some frame,rest) → frame.Descending :=
  ⟨decodeAckFrameU64_eq header params frameType bytes,
    fun _ _ h => (ends_decodeAckFrame header params frameType bytes).of_eq_ok h,
    fun frame _ h => ((ends_parseFrame header params bytes).of_eq_ok h frame rfl).descending⟩

end QuicWestwood
