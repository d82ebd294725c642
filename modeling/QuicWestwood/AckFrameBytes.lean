import QuicWestwood.AckFrameWrite

/-! A frame is a list of integers; what the writer appends to the packet is their encoding. The blocks are the
largest first part of the interval set that fits. -/
namespace QuicWestwood
open ByteCodec RecvdPacketsTimestampsRange List


def Encodable (values : List ℕ) : Prop := ∀ v ∈ values,v ≤ kEightByteLimit

@[simp] lemma encodable_nil : Encodable [] := by simp [Encodable]

@[simp] lemma encodable_cons {v : ℕ} {values : List ℕ} :
    Encodable (v::values) ↔ v≤kEightByteLimit ∧ Encodable values := by
  simp [Encodable]

@[simp] lemma encodable_append {values values' : List ℕ} :
    Encodable (values++values') ↔ Encodable values ∧ Encodable values' := by
  simp [Encodable,or_imp,forall_and]

theorem writeIntegers_eq_ok {values : List ℕ} {b : PacketBuilder} {r : Unit × PacketBuilder} :
    (writeIntegers values).run b = .ok r ↔ Encodable values ∧ r = ((),b.append (quicIntegers values)) := by
  induction values generalizing b with
  | nil =>
    have hnil : (writeIntegers []).run b = .ok ((),b) := rfl
    simp [hnil,eq_comm]
  | cons v values ih =>
    rcases le_or_gt v kEightByteLimit with hv | hv
    · have hone : writeInteger v b = .ok ((),b.append (quicInteger v)) := by
        rw [writeInteger,(quicInteger_spec hv).1]
      have hcons : (writeIntegers (v::values)).run b =
          (writeIntegers values).run (b.append (quicInteger v)) := by
        simp only [writeIntegers,StateT.run,bind,StateT.bind,hone,Except.bind]
      rw [hcons,ih,PacketBuilder.append_append]
      simp [hv]
    · have hone : writeInteger v b = .error (valueTooLarge v .internalError) := by
        rw [writeInteger,encodeQuicInteger_eq_error hv]
      simp only [writeIntegers,StateT.run,bind,StateT.bind,hone,Except.bind]
      simp [hv]

lemma sumSizes_eq_ok {values : List ℕ} {size : ℕ} :
    sumSizes values = .ok size ↔ Encodable values ∧ size = (quicIntegers values).length := by
  induction values generalizing size with
  | nil => simp [sumSizes,eq_comm]
  | cons v values ih =>
    have hsize : ∀ s,integerSize v = .ok s ↔ getQuicIntegerSize v = .ok s := by
      intro s
      unfold integerSize
      cases getQuicIntegerSize v <;> simp
    simp only [sumSizes,bind_eq_ok,hsize,getQuicIntegerSize_eq_ok,ih,Except.ok.injEq]
    constructor
    · rintro ⟨s,⟨hv,rfl⟩,s',⟨hvs,rfl⟩,rfl⟩
      simp [hv,hvs]
    · rintro ⟨hvs,rfl⟩
      rw [encodable_cons] at hvs
      exact ⟨_,⟨hvs.1,rfl⟩,_,⟨hvs.2,rfl⟩,by simp⟩

/-- Blocks in descending order below `currentSeqNum`, at least one number apart. -/
def BlocksBelow : ℕ → List Interval → Prop
  | _, [] => True
  | currentSeqNum, block::blocks =>
    block.stop+2 ≤ currentSeqNum ∧ BlocksBelow block.start blocks

def blockFields : ℕ → List Interval → List ℕ
  | _, [] => []
  | currentSeqNum, block::blocks =>
    (currentSeqNum-block.stop-2)::(block.stop-block.start)::blockFields block.start blocks

variable {currentSeqNum : ℕ} {blocks : List Interval}

lemma writeAckBlocks_eq (h : BlocksBelow currentSeqNum blocks) :
    writeAckBlocks currentSeqNum blocks = writeIntegers (blockFields currentSeqNum blocks) := by
  induction blocks generalizing currentSeqNum with
  | nil => rfl
  | cons block blocks ih =>
    rw [writeAckBlocks,if_neg (by have := h.1; omega),ih h.2]
    simp [writeIntegers,blockFields]

lemma length_blockFields (currentSeqNum : ℕ) (blocks : List Interval) :
    (blockFields currentSeqNum blocks).length = 2*blocks.length := by
  induction blocks generalizing currentSeqNum with
  | nil => rfl
  | cons block blocks ih =>
    simp only [blockFields,length_cons,ih]
    omega

lemma encodable_blockFields (h : BlocksBelow currentSeqNum blocks) (hcur : currentSeqNum≤kEightByteLimit) :
    Encodable (blockFields currentSeqNum blocks) := by
  induction blocks generalizing currentSeqNum with
  | nil => exact encodable_nil
  | cons block blocks ih =>
    obtain ⟨hb,hrest⟩ := h
    have := block.valid
    simp only [blockFields,encodable_cons]
    exact ⟨by omega,by omega,ih hrest (by omega)⟩

lemma blocksBelow_of_reverse {l : List Interval} {largest : Interval} {others : List Interval}
    (hl : l.Pairwise (Interval.Before 1)) (h : l.reverse = largest::others) :
    BlocksBelow largest.start others := by
  have hdesc : (largest::others).Pairwise fun a b => b.stop+1 < a.start := by
    rw [← h,pairwise_reverse]
    exact hl
  clear h hl
  induction others generalizing largest with
  | nil => trivial
  | cons block blocks ih =>
    obtain ⟨hfirst,hrest⟩ := pairwise_cons.mp hdesc
    have := hfirst block (by simp)
    exact ⟨by omega,ih hrest⟩

lemma BlocksBelow.take (h : BlocksBelow currentSeqNum blocks) (j : ℕ) :
    BlocksBelow currentSeqNum (blocks.take j) := by
  induction blocks generalizing currentSeqNum j with
  | nil => simpa using h
  | cons block blocks ih =>
    cases j with
    | zero => trivial
    | succ j => exact ⟨h.1,ih h.2 j⟩

/-- The first blocks with their count fit into `limit` bytes besides those of `n`. -/
def BlocksFit (currentSeqNum n limit : ℕ) (blocks : List Interval) : Prop :=
  (quicIntegers (blockFields currentSeqNum blocks)).length+(quicInteger (n+blocks.length)).length ≤
    limit+(quicInteger n).length

theorem fillFrameWithAckBlocks_ok {currentSeqNum n limit : ℕ} {blocks chosen : List Interval}
    (h : fillFrameWithAckBlocks currentSeqNum n limit blocks = .ok chosen) :
    (∃ j,chosen = blocks.take j) ∧ BlocksFit currentSeqNum n limit chosen := by
  induction blocks generalizing currentSeqNum n limit chosen with
  | nil =>
    obtain rfl := Except.ok.inj h
    exact ⟨⟨0,rfl⟩,by simp [BlocksFit,blockFields]⟩
  | cons block blocks ih =>
    rw [fillFrameWithAckBlocks] at h
    split at h
    · cases h
    simp only [bind_eq_ok,getQuicIntegerSizeThrows_eq_ok] at h
    obtain ⟨_,⟨-,rfl⟩,_,⟨-,rfl⟩,_,⟨hn,rfl⟩,_,⟨-,rfl⟩,h⟩ := h
    split at h
    · obtain rfl := Except.ok.inj h
      exact ⟨⟨0,rfl⟩,by simp [BlocksFit,blockFields]⟩
    · rename_i hfits
      obtain ⟨rest,hrest,hok⟩ := bind_eq_ok.mp h
      obtain rfl := Except.ok.inj hok
      obtain ⟨⟨j,rfl⟩,hsize⟩ := ih hrest
      have hmono := length_quicInteger_mono (Nat.le_succ n) hn
      refine ⟨⟨j+1,rfl⟩,?_⟩
      simp only [BlocksFit,blockFields,quicIntegers_cons,length_append,length_cons] at hsize ⊢
      rw [Nat.add_assoc,Nat.add_comm 1 (take j blocks).length,← Nat.add_assoc] at hsize
      rw [← Nat.add_assoc n]
      omega

lemma BlocksBelow.length_le (h : BlocksBelow currentSeqNum blocks) : blocks.length ≤ currentSeqNum := by
  induction blocks generalizing currentSeqNum with
  | nil => exact Nat.zero_le _
  | cons block blocks ih =>
    have hrest := ih h.2
    have hblock := h.1
    have hvalid := block.valid
    rw [length_cons]
    omega

def additionalSize (currentSeqNum n : ℕ) (block : Interval) : ℕ :=
  (quicInteger (currentSeqNum-block.stop-2)).length+(quicInteger (block.stop-block.start)).length +
    ((quicInteger (n+1)).length-(quicInteger n).length)

section Longest
variable {currentSeqNum n limit : ℕ} {block : Interval} {blocks : List Interval}

lemma fillFrameWithAckBlocks_cons (hblock : block.stop+2 ≤ currentSeqNum)
    (hcur : currentSeqNum≤kEightByteLimit) (hn : n+1 ≤ kEightByteLimit) :
    fillFrameWithAckBlocks currentSeqNum n limit (block::blocks) =
      if limit < additionalSize currentSeqNum n block then .ok []
      else fillFrameWithAckBlocks block.start (n+1) (limit-additionalSize currentSeqNum n block) blocks >>=
        fun rest => .ok (block::rest) := by
  have hvalid := block.valid
  have hsize : ∀ v ≤ kEightByteLimit,getQuicIntegerSizeThrows v = .ok (quicInteger v).length :=
    fun v hv => getQuicIntegerSizeThrows_eq_ok.mpr ⟨hv,rfl⟩
  rw [fillFrameWithAckBlocks,if_neg (by omega),hsize _ (by omega),hsize _ (by omega),
    hsize _ (by omega),hsize _ (by omega)]
  rfl

lemma blocksFit_cons (hn : n+1 ≤ kEightByteLimit) (hlimit : additionalSize currentSeqNum n block ≤ limit) :
    BlocksFit currentSeqNum n limit (block::blocks) ↔
      BlocksFit block.start (n+1) (limit-additionalSize currentSeqNum n block) blocks := by
  have hmono := length_quicInteger_mono (Nat.le_succ n) hn
  simp only [Nat.succ_eq_add_one] at hmono
  simp only [BlocksFit,additionalSize,blockFields,quicIntegers_cons,length_append,length_cons] at *
  rw [show n+(blocks.length+1) = n+1+blocks.length by omega]
  omega

lemma not_blocksFit_cons (hn : n+(blocks.length+1) ≤ kEightByteLimit)
    (hlimit : limit < additionalSize currentSeqNum n block) :
    ¬BlocksFit currentSeqNum n limit (block::blocks) := by
  have hmono := length_quicInteger_mono (Nat.le_succ n) (by omega)
  have hmono' := length_quicInteger_mono (v := n+1) (w := n+(blocks.length+1)) (by omega) hn
  simp only [Nat.succ_eq_add_one] at hmono
  simp only [BlocksFit,additionalSize,blockFields,quicIntegers_cons,length_append,length_cons] at *
  omega

/-- The blocks chosen are the longest first part that fits. -/
theorem fillFrameWithAckBlocks_longest (hb : BlocksBelow currentSeqNum blocks)
    (hcur : currentSeqNum≤kEightByteLimit) (hn : n+blocks.length ≤ kEightByteLimit) :
    ∃ j ≤ blocks.length,fillFrameWithAckBlocks currentSeqNum n limit blocks = .ok (blocks.take j) ∧
      ∀ k,j < k → k≤blocks.length → ¬BlocksFit currentSeqNum n limit (blocks.take k) := by
  induction blocks generalizing currentSeqNum n limit with
  | nil => exact ⟨0,le_rfl,rfl,fun k hk hle => absurd hk (Nat.not_lt.mpr hle)⟩
  | cons block blocks ih =>
    obtain ⟨hblock,hrest⟩ := hb
    have hvalid := block.valid
    rw [length_cons] at hn ⊢
    rw [fillFrameWithAckBlocks_cons hblock hcur (by omega)]
    split_ifs with hfits
    · refine ⟨0,Nat.zero_le _,rfl,fun k hk hle => ?_⟩
      obtain ⟨k,rfl⟩ := Nat.exists_eq_add_one_of_ne_zero hk.ne'
      have htake := length_take_le k blocks
      exact not_blocksFit_cons (by omega) hfits
    · obtain ⟨j,hj,heq,hmax⟩ :=
        @ih block.start (n+1) (limit-additionalSize currentSeqNum n block) hrest (by omega) (by omega)
      refine ⟨j+1,Nat.succ_le_succ hj,by rw [heq]; rfl,fun k hk hle => ?_⟩
      obtain ⟨k,rfl⟩ := Nat.exists_eq_add_one_of_ne_zero (Nat.ne_of_gt (Nat.zero_lt_of_lt hk))
      rw [take_succ_cons,blocksFit_cons (by omega) (not_lt.mp hfits)]
      exact hmax k (by omega) (by omega)

end Longest

/-- The integers of an ACK frame up to its last block. -/
def ackFields (metaData : WriteAckFrameMetaData) (frameType : FrameType) (largest : Interval)
    (blocks : List Interval) : List ℕ :=
  [frameType.code,largest.stop,encodedAckDelay metaData,blocks.length,
    largest.stop-largest.start]++blockFields largest.start blocks

lemma writeIntegers_append (values values' : List ℕ) :
    writeIntegers (values++values') = (do writeIntegers values; writeIntegers values') := by
  induction values with
  | nil => simp [writeIntegers]
  | cons v values ih => simp [writeIntegers,ih]

def ecnFields (frameType : FrameType) (s : AckState) : List ℕ :=
  if frameType = .ackEcn then ecnCounts s else []

/-- The integers of an ACK or ACK_ECN frame, and of an ACK_RECEIVE_TIMESTAMPS frame up to its
last block. -/
def ackFrameFields (metaData : WriteAckFrameMetaData) (frameType : FrameType) (largest : Interval)
    (blocks : List Interval) : List ℕ :=
  ackFields metaData frameType largest blocks++ecnFields frameType metaData.ackState

section Reserve
variable {s : AckState} {frameType : FrameType} {space : ℕ}
variable (space) in
lemma reserveEcn_eq_ok (henc : Encodable (ecnFields frameType s)) :
    reserveEcn s frameType space = .ok (subU64 space (quicIntegers (ecnFields frameType s)).length) ∨
      ecnFields frameType s = [] ∧ reserveEcn s frameType space = .ok space := by
  unfold reserveEcn ecnFields at *
  split_ifs at * with hecn
  · rw [sumSizes_eq_ok.mpr ⟨henc,rfl⟩]
    exact .inl rfl
  · exact .inr ⟨rfl,rfl⟩

lemma reserve_of_le (hspace : space < 2^32) (henc : Encodable (ecnFields frameType s))
    (hle : (quicIntegers (ecnFields frameType s)).length ≤ space) :
    reserveEcn s frameType space = .ok (space-(quicIntegers (ecnFields frameType s)).length) ∧
      reserveAckBlocks (space-(quicIntegers (ecnFields frameType s)).length) = .ok () := by
  refine ⟨?_,by rw [reserveAckBlocks,if_neg (by omega)]⟩
  rcases reserveEcn_eq_ok space henc with h | ⟨hnil,h⟩
  · rw [h,subU64_of_le hle (by omega)]
  · rw [h,hnil]
    rfl

lemma length_ecnFields_le (frameType : FrameType) (s : AckState) :
    (quicIntegers (ecnFields frameType s)).length ≤ 24 := by
  refine (length_quicIntegers_le _).trans ?_
  unfold ecnFields
  split_ifs <;> simp [ecnCounts]

lemma reserve_of_lt (hspace : space < 2^32) (henc : Encodable (ecnFields frameType s))
    (hlt : space < (quicIntegers (ecnFields frameType s)).length) :
    ∃ left,reserveEcn s frameType space = .ok left ∧ reserveAckBlocks left = .error .lengthError := by
  have hle := length_ecnFields_le frameType s
  rcases reserveEcn_eq_ok space henc with h | ⟨hnil,-⟩
  · refine ⟨_,h,?_⟩
    rw [subU64_of_lt hlt (by omega),reserveAckBlocks,if_pos (by omega)]
  · rw [hnil] at hlt
    cases hlt

lemma reserve_eq_ok {left : ℕ} {u : Unit} (hspace : space < 2^32)
    (hecn : reserveEcn s frameType space = .ok left) (hreserve : reserveAckBlocks left = .ok u) :
    left+(quicIntegers (ecnFields frameType s)).length = space := by
  have henc : Encodable (ecnFields frameType s) := by
    unfold reserveEcn ecnFields at *
    split_ifs at * with h
    · obtain ⟨_,hsizes,-⟩ := bind_eq_ok.mp hecn
      exact (sumSizes_eq_ok.mp hsizes).1
    · exact encodable_nil
  rcases le_or_gt (quicIntegers (ecnFields frameType s)).length space with hle | hlt
  · obtain rfl := Except.ok.inj ((reserve_of_le hspace henc hle).1.symm.trans hecn)
    exact Nat.sub_add_cancel hle
  · obtain ⟨left',hecn',herror⟩ := reserve_of_lt hspace henc hlt
    obtain rfl := Except.ok.inj (hecn'.symm.trans hecn)
    rw [herror] at hreserve
    cases hreserve

end Reserve

section Frame
variable {metaData : WriteAckFrameMetaData} {frameType : FrameType} {largest : Interval}
  {others blocks : List Interval}

def writtenFrame (metaData : WriteAckFrameMetaData) (frameType : FrameType) (largest : Interval)
    (blocks : List Interval) : WriteAckFrame :=
  let frame : WriteAckFrame := {ackBlocks := largest::blocks, ackDelay := metaData.ackDelay, frameType}
  if frameType = .ackEcn then
    {frame with
      ecnECT0Count := metaData.ackState.ecnECT0CountReceived
      ecnECT1Count := metaData.ackState.ecnECT1CountReceived
      ecnCECount := metaData.ackState.ecnCECountReceived}
  else frame

theorem writeAckFrameToPacketBuilder_eq_ok
    (hacks : metaData.ackState.acks.intervals.reverse = largest::others)
    {b b' : PacketBuilder} {frame : WriteAckFrame}
    (hchosen : chooseAckBlocks metaData frameType b.remainingSpaceInPkt largest others =
      .ok (some blocks)) (hblocks : BlocksBelow largest.start blocks) :
    (writeAckFrameToPacketBuilder metaData frameType).run b = .ok (some frame,b') ↔
      Encodable (ackFrameFields metaData frameType largest blocks) ∧
      frame = writtenFrame metaData frameType largest blocks ∧
      b' = b.append (quicIntegers (ackFrameFields metaData frameType largest blocks)) := by
  have hwrite : (writeAckFrameToPacketBuilder metaData frameType).run b =
      (fun r => (some (writtenFrame metaData frameType largest blocks),r.2)) <$>
        (writeIntegers (ackFrameFields metaData frameType largest blocks)).run b := by
    rw [ackFrameFields,writeIntegers_append,ackFields,writeIntegers_append,← writeAckBlocks_eq hblocks]
    by_cases hecn : frameType = .ackEcn
    · simp [writeAckFrameToPacketBuilder,hacks,hecn ▸ hchosen,writtenFrame,ecnFields,hecn]
    · simp [writeAckFrameToPacketBuilder,hacks,hchosen,writtenFrame,ecnFields,if_neg hecn,writeIntegers]
  rw [hwrite]
  simp only [map_eq_ok,writeIntegers_eq_ok,Prod.mk.injEq,Option.some.injEq]
  constructor
  · rintro ⟨_,⟨henc,rfl⟩,rfl,rfl⟩
    exact ⟨henc,rfl,rfl⟩
  · rintro ⟨henc,rfl,rfl⟩
    exact ⟨_,⟨henc,rfl⟩,rfl,rfl⟩

lemma length_ackFrameFields (metaData : WriteAckFrameMetaData) (frameType : FrameType)
    (largest : Interval) (blocks : List Interval) :
    (quicIntegers (ackFrameFields metaData frameType largest blocks)).length+(quicInteger 0).length =
      (quicIntegers [frameType.code,largest.stop,encodedAckDelay metaData,0,
        largest.stop-largest.start]).length+(quicIntegers (ecnFields frameType metaData.ackState)).length +
        ((quicIntegers (blockFields largest.start blocks)).length+(quicInteger blocks.length).length) := by
  simp only [ackFrameFields,ackFields,quicIntegers_append,quicIntegers_cons,quicIntegers_nil,
    length_append,length_nil]
  omega

/-- The blocks chosen are a first part of the interval set, and the frame fits. -/
theorem chooseAckBlocks_ok {space : ℕ} (hspace : space < 2^32)
    (h : chooseAckBlocks metaData frameType space largest others = .ok (some blocks)) :
    (∃ j,blocks = others.take j) ∧ ∃ minSize,minTimestampFieldsSize metaData frameType = .ok minSize ∧
      (quicIntegers (ackFrameFields metaData frameType largest blocks)).length+minSize ≤ space := by
  simp only [chooseAckBlocks,bind_eq_ok,sumSizes_eq_ok] at h
  obtain ⟨left,hecn,_,hreserve,_,⟨-,rfl⟩,minSize,hmin,h⟩ := h
  have hleft := reserve_eq_ok hspace hecn hreserve
  split at h
  · cases h
  · rename_i hfits
    obtain ⟨chosen,hfill,hok⟩ := bind_eq_ok.mp h
    obtain rfl := Option.some.inj (Except.ok.inj hok)
    obtain ⟨hpre,hsize⟩ := fillFrameWithAckBlocks_ok hfill
    refine ⟨hpre,minSize,hmin,?_⟩
    have hlength := length_ackFrameFields metaData frameType largest chosen
    rw [BlocksFit,Nat.zero_add] at hsize
    omega

/-- Not even the first block fits, or the longest first part that fits is chosen. -/
theorem chooseAckBlocks_longest {space minSize : ℕ} (hspace : space < 2^32)
    (hmin : minTimestampFieldsSize metaData frameType = .ok minSize)
    (hblocks : BlocksBelow largest.start others)
    (henc : Encodable (ackFrameFields metaData frameType largest []))
    (hecn : (quicIntegers (ecnFields frameType metaData.ackState)).length ≤ space) :
    chooseAckBlocks metaData frameType space largest others = .ok none ∧
      space < (quicIntegers (ackFrameFields metaData frameType largest [])).length+minSize ∨
    ∃ j ≤ others.length,
      chooseAckBlocks metaData frameType space largest others = .ok (some (others.take j)) ∧
      ∀ k,j < k → k≤others.length →
        space < (quicIntegers (ackFrameFields metaData frameType largest (others.take k))).length+minSize := by
  rw [ackFrameFields,ackFields,blockFields,append_nil,length_nil,encodable_append] at henc
  have hstop : largest.stop≤kEightByteLimit := henc.1 _ (by simp)
  have hlength := length_ackFrameFields metaData frameType largest
  obtain ⟨hreserve,hvector⟩ := reserve_of_le hspace henc.2 hecn
  set header := [frameType.code,largest.stop,encodedAckDelay metaData,0,largest.stop-largest.start]
  set left := space-(quicIntegers (ecnFields frameType metaData.ackState)).length
  have hchoose : chooseAckBlocks metaData frameType space largest others =
      if left < (quicIntegers header).length+minSize then .ok none
      else fillFrameWithAckBlocks largest.start 0 (left-((quicIntegers header).length+minSize)) others >>=
        fun blocks => .ok (some blocks) := by
    simp only [chooseAckBlocks,hreserve,hvector,hmin,ok_bind]
    rw [sumSizes_eq_ok.mpr ⟨henc.1,rfl⟩]
    rfl
  rw [hchoose]
  split_ifs with hfits
  · refine .inl ⟨rfl,?_⟩
    have hnil := hlength []
    simp only [blockFields,quicIntegers_nil,length_nil] at hnil
    omega
  · obtain ⟨j,hj,heq,hmax⟩ := fillFrameWithAckBlocks_longest (n := 0) hblocks
      (largest.valid.trans hstop)
      (by rw [Nat.zero_add]; exact hblocks.length_le.trans (largest.valid.trans hstop))
    refine .inr ⟨j,hj,by rw [heq]; rfl,fun k hk hle => ?_⟩
    have hnot := hmax k hk hle
    have hk := hlength (others.take k)
    rw [BlocksFit,Nat.zero_add] at hnot
    omega

theorem chooseAckBlocks_all {space minSize : ℕ} (hspace : space < 2^32)
    (hmin : minTimestampFieldsSize metaData frameType = .ok minSize)
    (hblocks : BlocksBelow largest.start others)
    (henc : Encodable (ackFrameFields metaData frameType largest others))
    (hfits : (quicIntegers (ackFrameFields metaData frameType largest others)).length+minSize ≤ space) :
    chooseAckBlocks metaData frameType space largest others = .ok (some others) := by
  have hlength := length_ackFrameFields metaData frameType largest
  have henc' : Encodable (ackFrameFields metaData frameType largest []) := by
    simp only [ackFrameFields,ackFields,blockFields,encodable_append,encodable_cons,encodable_nil,
      and_true,length_nil] at henc ⊢
    exact ⟨⟨henc.1.1.1,henc.1.1.2.1,henc.1.1.2.2.1,Nat.zero_le _,henc.1.1.2.2.2.2⟩,henc.2⟩
  have hone : (quicInteger 0).length ≤ (quicInteger others.length).length :=
    length_quicInteger_mono (Nat.zero_le _) (henc _ (by simp [ackFrameFields,ackFields]))
  have hall := hlength others
  have hnil := hlength []
  simp only [blockFields,quicIntegers_nil,length_nil] at hnil
  rcases chooseAckBlocks_longest hspace hmin hblocks henc' (by omega) with ⟨-,hlt⟩ | ⟨j,hj,heq,hmax⟩
  · omega
  · obtain rfl : j=others.length := by
      by_contra hne
      have hlt := hmax others.length (by omega) le_rfl
      rw [take_length] at hlt
      omega
    rwa [take_length] at heq

theorem writeAckFrameToPacketBuilder_ok {b b' : PacketBuilder}
    {frame : WriteAckFrame}
    (h : (writeAckFrameToPacketBuilder metaData frameType).run b = .ok (some frame,b')) :
    ∃ largest others j minSize,metaData.ackState.acks.intervals.reverse = largest::others ∧
      minTimestampFieldsSize metaData frameType = .ok minSize ∧
      Encodable (ackFrameFields metaData frameType largest (others.take j)) ∧
      b' = b.append (quicIntegers (ackFrameFields metaData frameType largest (others.take j))) ∧
      (quicIntegers (ackFrameFields metaData frameType largest (others.take j))).length+minSize ≤
        b.remainingSpaceInPkt := by
  cases hacks : metaData.ackState.acks.intervals.reverse with
  | nil =>
    simp only [writeAckFrameToPacketBuilder,hacks] at h
    cases h
  | cons largest others =>
    cases hchosen : chooseAckBlocks metaData frameType b.remainingSpaceInPkt largest others with
    | error e =>
      simp [writeAckFrameToPacketBuilder,hacks,hchosen] at h
      cases h
    | ok chosen =>
      cases chosen with
      | none =>
        simp [writeAckFrameToPacketBuilder,hacks,hchosen] at h
        cases h
      | some blocks =>
        obtain ⟨⟨j,rfl⟩,minSize,hmin,hsize⟩ := chooseAckBlocks_ok (UInt32.toNat_lt _) hchosen
        have hblocks := (blocksBelow_of_reverse metaData.ackState.acks.sorted hacks).take j
        obtain ⟨henc,-,hb'⟩ :=
          (writeAckFrameToPacketBuilder_eq_ok hacks hchosen hblocks).mp h
        exact ⟨largest,others,j,minSize,rfl,hmin,henc,hb',hsize⟩

end Frame

lemma ackFrameFields_timestamps (metaData : WriteAckFrameMetaData) (largest : Interval)
    (blocks : List Interval) : ackFrameFields metaData .ackReceiveTimestamps largest blocks =
      ackFields metaData .ackReceiveTimestamps largest blocks := append_nil _

lemma minTimestampFieldsSize_eq_ok {metaData : WriteAckFrameMetaData} {size : ℕ} :
    minTimestampFieldsSize metaData .ackReceiveTimestamps = .ok size ↔
      metaData.ackState.lastRecvdPacketInfo.isSome ∧ size = (quicIntegers [0,(latestRecvdPacket metaData).1,
        u64 (latestRecvdPacket metaData).2]).length := by
  unfold minTimestampFieldsSize latestRecvdPacket
  cases metaData.ackState.lastRecvdPacketInfo with
  | none => simp
  | some last => simp [length_quicInteger,Nat.add_assoc,eq_comm]

def timestampFrameFields (metaData : WriteAckFrameMetaData) (largest : Interval)
    (blocks : List Interval) (ranges : List RecvdPacketsTimestampsRange) : List ℕ :=
  ackFields metaData .ackReceiveTimestamps largest blocks ++
    [(latestRecvdPacket metaData).1,u64 (latestRecvdPacket metaData).2] ++
    ranges.length::ranges.flatMap fields

section TimestampFrame
variable {metaData : WriteAckFrameMetaData} {config : AckReceiveTimestampsConfig} {m : ℕ}
  {largest : Interval} {others : List Interval} {b : PacketBuilder}

lemma writeTimestampRanges_eq_ok
    (hacks : metaData.ackState.acks.intervals.reverse = largest::others) {e : ℕ}
    (hspace : 0<b.remainingSpaceInPkt) {ranges : List RecvdPacketsTimestampsRange}
    {b' : PacketBuilder} :
    (writeTimestampRanges metaData e m).run b = .ok (ranges,b') ↔
      fillPacketReceiveTimestamps metaData largest.stop b.remainingSpaceInPkt e m = .ok ranges ∧
      Encodable (ranges.length::ranges.flatMap fields) ∧
      b' = b.append (quicIntegers (ranges.length::ranges.flatMap fields)) := by
  have hlargest : metaData.ackState.acks.intervals.getLast? = some largest := by
    rw [getLast?_eq_head?_reverse,hacks]
    rfl
  have hwrite : (writeTimestampRanges metaData e m).run b =
      fillPacketReceiveTimestamps metaData largest.stop b.remainingSpaceInPkt e m >>= fun ranges =>
        (fun u => (ranges,u.2)) <$>
          (writeIntegers (ranges.length::ranges.flatMap fields)).run b := by
    simp [writeTimestampRanges,hspace,hlargest]
  rw [hwrite]
  simp only [bind_eq_ok,map_eq_ok,writeIntegers_eq_ok,Prod.mk.injEq]
  constructor
  · rintro ⟨_,hfill,_,⟨henc,rfl⟩,rfl,rfl⟩
    exact ⟨hfill,henc,rfl⟩
  · rintro ⟨hfill,henc,rfl⟩
    exact ⟨ranges,hfill,_,⟨henc,rfl⟩,rfl,rfl⟩

lemma writeAckFrameWithReceivedTimestamps_run {frame : WriteAckFrame} {b' : PacketBuilder}
    (hack : (writeAckFrameToPacketBuilder metaData .ackReceiveTimestamps).run b = .ok (some frame,b')) :
    (writeAckFrameWithReceivedTimestamps metaData config m).run b =
      (writeIntegers [(latestRecvdPacket metaData).1,u64 (latestRecvdPacket metaData).2]).run b' >>=
        fun u => (writeTimestampRanges metaData config.receiveTimestampsExponent m).run u.2 >>= fun v =>
          .ok (some
            {bytesWritten := (b.remainingBytes-v.2.remainingBytes).toNat
             writeAckFrame := {frame with
               maybeLatestRecvdPacketNum := some (latestRecvdPacket metaData).1
               maybeLatestRecvdPacketTime := some (latestRecvdPacket metaData).2
               recvdPacketsTimestampRanges := v.1}
             ackBlocksWritten := frame.ackBlocks.length
             timestampRangesWritten := v.1.length
             timestampsWritten := (v.1.map fun r => r.deltas.length).sum},v.2) := by
  simp [writeAckFrameWithReceivedTimestamps,hack]
  rfl

theorem writeAckFrameWithReceivedTimestamps_ok {result : WriteAckFrameResult} {b' : PacketBuilder}
    (h : (writeAckFrameWithReceivedTimestamps metaData config m).run b = .ok (some result,b')) :
    ∃ largest others j space,metaData.ackState.acks.intervals.reverse = largest::others ∧
      metaData.ackState.lastRecvdPacketInfo.isSome ∧
      fillPacketReceiveTimestamps metaData largest.stop space config.receiveTimestampsExponent m =
        .ok result.writeAckFrame.recvdPacketsTimestampRanges ∧ result.timestampsWritten =
        (result.writeAckFrame.recvdPacketsTimestampRanges.map fun r => r.deltas.length).sum ∧
      Encodable (timestampFrameFields metaData largest (others.take j)
        result.writeAckFrame.recvdPacketsTimestampRanges) ∧
      b' = b.append (quicIntegers (timestampFrameFields metaData largest (others.take j)
        result.writeAckFrame.recvdPacketsTimestampRanges)) := by
  cases hw : (writeAckFrameToPacketBuilder metaData .ackReceiveTimestamps).run b with
  | error e =>
    simp [writeAckFrameWithReceivedTimestamps,hw] at h
    cases h
  | ok r =>
    obtain ⟨frame,b₁⟩ := r
    cases frame with
    | none =>
      simp [writeAckFrameWithReceivedTimestamps,hw] at h
      cases h
    | some frame =>
      obtain ⟨largest,others,j,_,hacks,hmin,henc,hb₁,hsize⟩ := writeAckFrameToPacketBuilder_ok hw
      rw [ackFrameFields_timestamps] at henc hb₁ hsize
      subst hb₁
      obtain ⟨hlast,rfl⟩ := minTimestampFieldsSize_eq_ok.mp hmin
      rw [writeAckFrameWithReceivedTimestamps_run hw] at h
      simp only [bind_eq_ok,writeIntegers_eq_ok] at h
      obtain ⟨_,⟨henc₁,rfl⟩,⟨ranges,b₂⟩,hv,hres⟩ := h
      have hone := (quicInteger_spec (Nat.zero_le _)).2.2.1
      simp only [quicIntegers_cons,quicIntegers_nil,length_append,length_nil] at hsize
      rw [PacketBuilder.append_append,← quicIntegers_append] at hv
      set before := ackFields metaData .ackReceiveTimestamps largest (others.take j) ++
        [(latestRecvdPacket metaData).1,u64 (latestRecvdPacket metaData).2] with hbefore
      have hfits : (quicIntegers before).length < b.remainingSpaceInPkt := by
        simp only [hbefore,quicIntegers_append,quicIntegers_cons,quicIntegers_nil,length_append,length_nil]
        omega
      have hpos : 0 < (b.append (quicIntegers before)).remainingSpaceInPkt := by
        rw [PacketBuilder.remainingSpaceInPkt_append hfits.le]
        omega
      obtain ⟨hfill,henc₂,rfl⟩ := (writeTimestampRanges_eq_ok hacks hpos).mp hv
      obtain ⟨hresult,rfl⟩ := Prod.mk.inj (Except.ok.inj hres)
      obtain rfl := Option.some.inj hresult
      refine ⟨largest,others,j,_,hacks,hlast,hfill,rfl,?_,?_⟩
      · simp only [timestampFrameFields,encodable_append]
        exact ⟨⟨henc,henc₁⟩,henc₂⟩
      · rw [PacketBuilder.append_append,← quicIntegers_append]
        rfl

variable (config) in
/-- With room for all blocks the frame is written, and the timestamps get the rest. -/
theorem writeAckFrameWithReceivedTimestamps_all
    (hacks : metaData.ackState.acks.intervals.reverse = largest::others)
    (hlast : metaData.ackState.lastRecvdPacketInfo.isSome) {space : ℕ}
    {ranges : List RecvdPacketsTimestampsRange} (hpos : 0 < space)
    (hspace : b.remainingSpaceInPkt = (quicIntegers (ackFields metaData .ackReceiveTimestamps largest
      others++[(latestRecvdPacket metaData).1,u64 (latestRecvdPacket metaData).2])).length+space)
    (hfill : fillPacketReceiveTimestamps metaData largest.stop space config.receiveTimestampsExponent m =
      .ok ranges) (henc : Encodable (timestampFrameFields metaData largest others ranges)) :
    ∃ result,(writeAckFrameWithReceivedTimestamps metaData config m).run b = .ok (some result,
        b.append (quicIntegers (timestampFrameFields metaData largest others ranges))) ∧
      result.writeAckFrame.recvdPacketsTimestampRanges = ranges ∧
      result.timestampsWritten = (ranges.map fun r => r.deltas.length).sum := by
  have hblocks := blocksBelow_of_reverse metaData.ackState.acks.sorted hacks
  have hmin := minTimestampFieldsSize_eq_ok.mpr ⟨hlast,rfl⟩
  simp only [timestampFrameFields,encodable_append] at henc
  obtain ⟨⟨henc₁,henc₂⟩,henc₃⟩ := henc
  have hzero : (quicInteger 0).length = 1 := rfl
  have hchosen : chooseAckBlocks metaData .ackReceiveTimestamps b.remainingSpaceInPkt largest others =
      .ok (some others) := by
    rw [← ackFrameFields_timestamps] at henc₁
    refine chooseAckBlocks_all (UInt32.toNat_lt _) hmin hblocks henc₁ ?_
    rw [ackFrameFields_timestamps]
    simp only [quicIntegers_append,quicIntegers_cons,quicIntegers_nil,length_append,length_nil] at hspace ⊢
    omega
  have hw := (writeAckFrameToPacketBuilder_eq_ok hacks hchosen hblocks).mpr
    ⟨(ackFrameFields_timestamps ..).symm ▸ henc₁,rfl,rfl⟩
  rw [ackFrameFields_timestamps] at hw
  have hrest : (b.append (quicIntegers (ackFields metaData .ackReceiveTimestamps largest others ++
      [(latestRecvdPacket metaData).1,u64 (latestRecvdPacket metaData).2]))).remainingSpaceInPkt = space := by
    rw [PacketBuilder.remainingSpaceInPkt_append (by omega)]
    omega
  have hranges := (writeTimestampRanges_eq_ok (e := config.receiveTimestampsExponent) (m := m) hacks
    (hrest.symm ▸ hpos)).mpr ⟨by rw [hrest]; exact hfill,henc₃,rfl⟩
  have hlatest := writeIntegers_eq_ok.mpr (And.intro henc₂ (Eq.refl ((),(b.append (quicIntegers
    (ackFields metaData .ackReceiveTimestamps largest others))).append _)))
  rw [writeAckFrameWithReceivedTimestamps_run hw,hlatest,ok_bind,PacketBuilder.append_append,
    ← quicIntegers_append,hranges,ok_bind,PacketBuilder.append_append,← quicIntegers_append]
  exact ⟨_,rfl,rfl,rfl⟩

end TimestampFrame

end QuicWestwood
