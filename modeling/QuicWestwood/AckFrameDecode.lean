import QuicWestwood.AckFrameBytes

/-! `decodeAckFrame` and its two variants, and the part of `parseFrame` that leads to them. -/
namespace QuicWestwood
open ByteCodec RecvdPacketsTimestampsRange

def kDefaultAckDelayExponent : ℕ := 3
def kDefaultReceiveTimestampsExponent : ℕ := 3

inductive HeaderForm
  | long
  | short
  deriving DecidableEq

structure CodecParameters where
  peerAckDelayExponent : UInt8 := 3
  maybeAckReceiveTimestampsConfig : Option AckReceiveTimestampsConfig := none
  deriving DecidableEq

structure AckBlock where
  startPacket : ℕ
  endPacket : ℕ
  deriving DecidableEq

structure ReadAckFrame where
  largestAcked : ℕ
  ackDelay : ℤ := 0
  implicit : Bool := false
  ackBlocks : List AckBlock
  frameType : FrameType := .ack
  maybeLatestRecvdPacketTime : Option ℤ := none
  maybeLatestRecvdPacketNum : Option ℕ := none
  recvdPacketsTimestampRanges : List RecvdPacketsTimestampsRange := []
  ecnECT0Count : ℕ := 0
  ecnECT1Count : ℕ := 0
  ecnCECount : ℕ := 0
  deriving DecidableEq

def frameEncodingError (message : String) (frameType : FrameType) : QuicTransportException :=
  {message, code := .frameEncodingError, frameType := some frameType}

abbrev Decoder (α : Type) := Reader QuicTransportException α

/-- `decodeQuicInteger`, with the exception its caller throws when there is no integer. -/
def readQuicInteger (message : String) (frameType : FrameType) : Decoder ℕ := fun bytes =>
  match decodeQuicInteger bytes with
  | some r => .ok r
  | none => .error (frameEncodingError message frameType)

def nextAckedPacketGap (packetNum gap : ℕ) : Except QuicTransportException ℕ :=
  if packetNum < gap+2 then .error (frameEncodingError "Bad gap" .ack)
  else .ok (packetNum-(gap+2))

def nextAckedPacketLen (packetNum ackBlockLen : ℕ) : Except QuicTransportException ℕ :=
  if packetNum<ackBlockLen then .error (frameEncodingError "Bad block len" .ack)
  else .ok (packetNum-ackBlockLen)

/-- The shift that would push bits out of 64 is refused, as is a result out of `int64_t`. -/
def convertEncodedDurationToMicroseconds (frameType : FrameType) (exponentToUse : UInt8) (delay : ℕ) :
    Except QuicTransportException ℕ :=
  let e := exponentToUse.toNat
  if e=0 ∨ 64≤e then .ok delay
  else if delay/2^(64-e)≠0 then .error (frameEncodingError "Decoded delay overflows" frameType)
  else if 2^63-1 < delay*2^e then .error (frameEncodingError "Bad delay" frameType)
  else .ok (delay*2^e)

def decodedAckDelay (header : HeaderForm) (params : CodecParameters) (frameType : FrameType)
    (ackDelay : ℕ) : Except QuicTransportException ℕ := do
  let exponent := match header with
    | .long => UInt8.ofNat kDefaultAckDelayExponent
    | .short => params.peerAckDelayExponent
  let adjusted ← convertEncodedDurationToMicroseconds frameType exponent ackDelay
  return if 1000*1000*1000 < adjusted then 0 else adjusted

def decodeAckBlock (currentPacketNum : ℕ) : Decoder (AckBlock × ℕ) := do
  let gap ← readQuicInteger "Bad gap" .ack
  let blockLen ← readQuicInteger "Bad block len" .ack
  let nextEndPacket ← nextAckedPacketGap currentPacketNum gap
  let startPacket ← nextAckedPacketLen nextEndPacket blockLen
  return (⟨startPacket,nextEndPacket⟩,startPacket)

def decodeAckFrame (header : HeaderForm) (params : CodecParameters) (frameType : FrameType) :
    Decoder ReadAckFrame := do
  let largestAcked ← readQuicInteger "Bad largest acked" .ack
  let ackDelay ← readQuicInteger "Bad ack delay" .ack
  let additionalAckBlocks ← readQuicInteger "Bad ack block count" .ack
  let firstAckBlockLen ← readQuicInteger "Bad first block" .ack
  let currentPacketNum ← nextAckedPacketLen largestAcked firstAckBlockLen
  let adjustedDelay ← decodedAckDelay header params frameType ackDelay
  let (blocks,_) ← readMany decodeAckBlock additionalAckBlocks currentPacketNum
  return {largestAcked, ackDelay := adjustedDelay, frameType,
          ackBlocks := ⟨currentPacketNum,largestAcked⟩::blocks}

def receiveTimestampsExponentToUse (params : CodecParameters) : UInt8 :=
  match params.maybeAckReceiveTimestampsConfig with
  | some config => UInt8.ofNat config.receiveTimestampsExponent
  | none => UInt8.ofNat kDefaultReceiveTimestampsExponent

def decodeTimestampDelta (params : CodecParameters) (frameType : FrameType) (_ : Unit) :
    Decoder (ℕ × Unit) := do
  let delta ← readQuicInteger "Bad receive timestamps delta" .ackReceiveTimestamps
  let adjustedDelta ← convertEncodedDurationToMicroseconds frameType
    (receiveTimestampsExponentToUse params) delta
  return (adjustedDelta,())

def decodeTimestampRange (params : CodecParameters) (frameType : FrameType) (_ : Unit) :
    Decoder (RecvdPacketsTimestampsRange × Unit) := do
  let gap ← readQuicInteger "Bad receive timestamps gap" .ackReceiveTimestamps
  let count ← readQuicInteger "Bad receive timestamps block length" .ackReceiveTimestamps
  let (deltas,_) ← readMany (decodeTimestampDelta params frameType) count ()
  return (⟨gap,count,deltas⟩,())

def decodeAckFrameWithReceivedTimestamps (header : HeaderForm) (params : CodecParameters)
    (frameType : FrameType) : Decoder ReadAckFrame := do
  let frame ← decodeAckFrame header params frameType
  let latestNum ← readQuicInteger "Bad latest received packet number" .ackReceiveTimestamps
  let latestTime ← readQuicInteger "Bad receive packet timestamp delta" .ackReceiveTimestamps
  let rangeCount ← readQuicInteger "Bad receive timestamps range count" .ackReceiveTimestamps
  let (ranges,_) ← readMany (decodeTimestampRange params frameType) rangeCount ()
  return {frame with
    maybeLatestRecvdPacketNum := some latestNum
    maybeLatestRecvdPacketTime := some (latestTime : ℤ)
    recvdPacketsTimestampRanges := ranges}

def decodeAckFrameWithECN (header : HeaderForm) (params : CodecParameters) : Decoder ReadAckFrame := do
  let frame ← decodeAckFrame header params .ack
  let ect0 ← readQuicInteger "Bad ECN value" .ackEcn
  let ect1 ← readQuicInteger "Bad ECN value" .ackEcn
  let ce ← readQuicInteger "Bad ECN value" .ackEcn
  return {frame with
    frameType := .ackEcn
    ecnECT0Count := ect0 % 2^32
    ecnECT1Count := ect1 % 2^32
    ecnCECount := ce % 2^32}

def FrameType.ofCode (code : ℕ) : Option FrameType :=
  [.ack,.ackEcn,.ackReceiveTimestamps].find? fun t => t.code = code

def decodeAckFrameOfType (header : HeaderForm) (params : CodecParameters) :
    FrameType → Decoder ReadAckFrame
  | .ack => decodeAckFrame header params .ack
  | .ackEcn => decodeAckFrameWithECN header params
  | .ackReceiveTimestamps => decodeAckFrameWithReceivedTimestamps header params .ackReceiveTimestamps

/-- `parseFrame` on the three ACK types; `none` stands for a frame of another type, whose
decoding is not modelled. -/
def parseFrame (header : HeaderForm) (params : CodecParameters) : Decoder (Option ReadAckFrame) :=
  fun bytes =>
    match decodeQuicInteger bytes with
    | none => .error {message := "Invalid frame-type field", code := .frameEncodingError}
    | some (code,rest) =>
      match FrameType.ofCode code with
      | none => .ok (none,rest)
      | some frameType =>
        match (decodeAckFrameOfType header params frameType).run rest with
        | .ok (frame,rest') => .ok (some frame,rest')
        | .error e => .error (frameEncodingError
            s!"Frame format invalid, type={code}, error={e.message}" frameType)

lemma reads_readQuicInteger {v : ℕ} (h : v≤kEightByteLimit) (message : String)
    (frameType : FrameType) : Reads (readQuicInteger message frameType) (quicInteger v) v := by
  intro rest
  simp only [readQuicInteger,StateT.run,(quicInteger_spec h).2.1 rest]

lemma nextAckedPacketGap_ok {n gap : ℕ} (h : gap+2 ≤ n) :
    nextAckedPacketGap n gap = .ok (n-(gap+2)) := by
  rw [nextAckedPacketGap,if_neg (by omega)]

lemma nextAckedPacketLen_ok {n len : ℕ} (h : len≤n) :
    nextAckedPacketLen n len = .ok (n-len) := by
  rw [nextAckedPacketLen,if_neg (by omega)]

def Interval.toAckBlock (i : Interval) : AckBlock := ⟨i.start,i.stop⟩

lemma reads_decodeAckBlock {currentSeqNum : ℕ} {block : Interval} (hb : block.stop+2 ≤ currentSeqNum)
    (hcur : currentSeqNum≤kEightByteLimit) :
    Reads (decodeAckBlock currentSeqNum)
      (quicIntegers [currentSeqNum-block.stop-2,block.stop-block.start])
      (block.toAckBlock,block.start) := by
  have hvalid := block.valid
  have hgap : nextAckedPacketGap currentSeqNum (currentSeqNum-block.stop-2) = .ok block.stop := by
    rw [nextAckedPacketGap_ok (by omega)]
    congr 1
    omega
  have hlen : nextAckedPacketLen block.stop (block.stop-block.start) = .ok block.start := by
    rw [nextAckedPacketLen_ok (by omega)]
    congr 1
    omega
  exact (reads_readQuicInteger (by omega) _ _).bind ((reads_readQuicInteger (by omega) _ _).bind
    ((reads_lift hgap).bind ((reads_lift hlen).bind (reads_pure _))))

lemma reads_ackBlocks {currentSeqNum : ℕ} {blocks : List Interval}
    (hb : BlocksBelow currentSeqNum blocks) (hcur : currentSeqNum≤kEightByteLimit) :
    ∃ last,Reads (readMany decodeAckBlock blocks.length currentSeqNum)
      (quicIntegers (blockFields currentSeqNum blocks)) (blocks.map Interval.toAckBlock,last) := by
  induction blocks generalizing currentSeqNum with
  | nil => exact ⟨currentSeqNum,reads_readMany_zero _ _⟩
  | cons block blocks ih =>
    have hvalid := block.valid
    obtain ⟨last,hrest⟩ := ih hb.2 (by have := hb.1; omega)
    refine ⟨last,?_⟩
    have hall := (reads_decodeAckBlock hb.1 hcur).readMany_succ hrest
    rw [← quicIntegers_append] at hall
    exact hall

def ackBody (metaData : WriteAckFrameMetaData) (largest : Interval) (blocks : List Interval) : List ℕ :=
  [largest.stop,encodedAckDelay metaData,blocks.length,largest.stop-largest.start] ++
    blockFields largest.start blocks

section Frame
variable {metaData : WriteAckFrameMetaData} {frameType : FrameType} {largest : Interval}
  {blocks : List Interval} {header : HeaderForm} {params : CodecParameters}

lemma nextAckedPacketLen_largest (i : Interval) :
    nextAckedPacketLen i.stop (i.stop-i.start) = .ok i.start := by
  have := i.valid
  rw [nextAckedPacketLen_ok (by omega)]
  congr 1
  omega

theorem reads_decodeAckFrame (henc : Encodable (ackBody metaData largest blocks))
    (hb : BlocksBelow largest.start blocks) {delay : ℕ}
    (hdelay : decodedAckDelay header params frameType (encodedAckDelay metaData) = .ok delay) :
    Reads (decodeAckFrame header params frameType) (quicIntegers (ackBody metaData largest blocks))
      {largestAcked := largest.stop, ackDelay := delay, frameType,
       ackBlocks := (largest::blocks).map Interval.toAckBlock} := by
  simp only [ackBody,encodable_append,encodable_cons] at henc
  obtain ⟨⟨h₁,h₂,h₃,h₄,-⟩,-⟩ := henc
  obtain ⟨last,hblocks⟩ := reads_ackBlocks hb (largest.valid.trans h₁)
  have hread : Reads (decodeAckFrame header params frameType)
      (quicInteger largest.stop++(quicInteger (encodedAckDelay metaData)++(quicInteger blocks.length ++
        (quicInteger (largest.stop-largest.start)++([]++([] ++
          (quicIntegers (blockFields largest.start blocks)++[])))))))
      {largestAcked := largest.stop, ackDelay := delay, frameType,
       ackBlocks := (largest::blocks).map Interval.toAckBlock} :=
    (reads_readQuicInteger h₁ _ _).bind ((reads_readQuicInteger h₂ _ _).bind
      ((reads_readQuicInteger h₃ _ _).bind ((reads_readQuicInteger h₄ _ _).bind
        ((reads_lift (nextAckedPacketLen_largest largest)).bind ((reads_lift hdelay).bind
          (hblocks.bind (reads_pure _)))))))
  simpa [ackBody] using hread

theorem fails_decodeAckFrame (henc : Encodable (ackBody metaData largest blocks)) {e : QuicTransportException}
    (hdelay : decodedAckDelay header params frameType (encodedAckDelay metaData) = .error e) :
    Fails (decodeAckFrame header params frameType) (quicIntegers (ackBody metaData largest blocks)) := by
  simp only [ackBody,encodable_append,encodable_cons] at henc
  obtain ⟨⟨h₁,h₂,h₃,h₄,-⟩,-⟩ := henc
  have hfail : Fails (decodeAckFrame header params frameType)
      (quicInteger largest.stop++(quicInteger (encodedAckDelay metaData)++(quicInteger blocks.length ++
        (quicInteger (largest.stop-largest.start)++([]++([] ++
          quicIntegers (blockFields largest.start blocks))))))) :=
    (reads_readQuicInteger h₁ _ _).bind_fails ((reads_readQuicInteger h₂ _ _).bind_fails
      ((reads_readQuicInteger h₃ _ _).bind_fails ((reads_readQuicInteger h₄ _ _).bind_fails
        ((reads_lift (nextAckedPacketLen_largest largest)).bind_fails ((fails_lift hdelay).bind _ _)))))
  simpa [ackBody] using hfail

lemma code_le (t : FrameType) : t.code≤kEightByteLimit := by
  cases t <;> decide

variable (frameType) in
lemma reads_parseFrame {bytes : Bytes} {frame : ReadAckFrame}
    (h : Reads (decodeAckFrameOfType header params frameType) bytes frame) :
    Reads (parseFrame header params) (quicInteger frameType.code++bytes) (some frame) := by
  intro rest
  have htype : FrameType.ofCode frameType.code = some frameType := by cases frameType <;> rfl
  simp only [parseFrame,StateT.run,List.append_assoc,
    (quicInteger_spec (code_le frameType)).2.1 (bytes++rest),htype]
  rw [show decodeAckFrameOfType header params frameType (bytes++rest) = .ok (frame,rest) from h rest]

variable (frameType) in
lemma fails_parseFrame {bytes : Bytes} (h : Fails (decodeAckFrameOfType header params frameType) bytes) :
    Fails (parseFrame header params) (quicInteger frameType.code++bytes) := by
  intro rest
  obtain ⟨e,he⟩ := h rest
  have htype : FrameType.ofCode frameType.code = some frameType := by cases frameType <;> rfl
  simp only [parseFrame,StateT.run,List.append_assoc,
    (quicInteger_spec (code_le frameType)).2.1 (bytes++rest),htype]
  rw [show decodeAckFrameOfType header params frameType (bytes++rest) = .error e from he]
  exact ⟨_,rfl⟩

def Scalable (e : ℕ) (ranges : List RecvdPacketsTimestampsRange) : Prop :=
  ∀ r ∈ ranges,r.timestampDeltaCount = r.deltas.length ∧ ∀ δ ∈ r.deltas,δ*2^e < 2^62

def RecvdPacketsTimestampsRange.scale (e : ℕ) (r : RecvdPacketsTimestampsRange) :
    RecvdPacketsTimestampsRange :=
  {r with deltas := r.deltas.map (·*2^e)}

lemma convertEncodedDurationToMicroseconds_ok {exponent : UInt8} {δ : ℕ} (he : exponent.toNat<64)
    (hδ : δ*2^exponent.toNat < 2^63) :
    convertEncodedDurationToMicroseconds frameType exponent δ = .ok (δ*2^exponent.toNat) := by
  unfold convertEncodedDurationToMicroseconds
  rcases Nat.eq_zero_or_pos exponent.toNat with h0 | hpos
  · simp [h0]
  · have hsplit : 2^(64-exponent.toNat)*2^exponent.toNat = 2^64 := by
      rw [← pow_add]
      congr 1
      omega
    have hlt : δ < 2^(64-exponent.toNat) := by
      by_contra hge
      have := Nat.mul_le_mul_right (2^exponent.toNat) (not_lt.mp hge)
      omega
    rw [if_neg (by omega),if_neg (by simpa using Nat.div_eq_of_lt hlt),if_neg (by omega)]

lemma reads_decodeTimestampRange {r : RecvdPacketsTimestampsRange} (henc : Encodable r.fields)
    (hcount : r.timestampDeltaCount=r.deltas.length)
    (he : (receiveTimestampsExponentToUse params).toNat < 64)
    (hδ : ∀ δ ∈ r.deltas,δ*2^(receiveTimestampsExponentToUse params).toNat < 2^62) :
    Reads (decodeTimestampRange params frameType ()) (quicIntegers r.fields)
      (r.scale (receiveTimestampsExponentToUse params).toNat,()) := by
  simp only [fields,encodable_cons] at henc
  obtain ⟨hgap,hcountEnc,hdeltasEnc⟩ := henc
  have hdeltas : Reads (readMany (decodeTimestampDelta params frameType) r.deltas.length ())
      (quicIntegers r.deltas)
      (r.deltas.map (·*2^(receiveTimestampsExponentToUse params).toNat),()) := by
    refine reads_readMany_map fun δ hmem => ?_
    have hone : Reads (decodeTimestampDelta params frameType ()) (quicInteger δ++([]++[]))
        (δ*2^(receiveTimestampsExponentToUse params).toNat,()) :=
      (reads_readQuicInteger (hdeltasEnc δ hmem) _ _).bind
        ((reads_lift (convertEncodedDurationToMicroseconds_ok he ((hδ δ hmem).trans (by norm_num)))).bind
          (reads_pure _))
    simpa using hone
  rw [← hcount] at hdeltas
  have hread : Reads (decodeTimestampRange params frameType ())
      (quicInteger r.gap++(quicInteger r.timestampDeltaCount++(quicIntegers r.deltas++[])))
      (r.scale (receiveTimestampsExponentToUse params).toNat,()) :=
    (reads_readQuicInteger hgap _ _).bind ((reads_readQuicInteger hcountEnc _ _).bind
      (hdeltas.bind (reads_pure _)))
  simpa [fields] using hread

lemma quicIntegers_timestampFrameFields (metaData : WriteAckFrameMetaData) (largest : Interval)
    (blocks : List Interval) (ranges : List RecvdPacketsTimestampsRange) :
    quicIntegers (timestampFrameFields metaData largest blocks ranges) =
      quicInteger FrameType.ackReceiveTimestamps.code++(quicIntegers (ackBody metaData largest blocks) ++
        (quicInteger (latestRecvdPacket metaData).1++(quicInteger (u64 (latestRecvdPacket metaData).2) ++
          (quicInteger ranges.length ++ (quicIntegers (ranges.flatMap fields)++[]))))) := by
  simp [timestampFrameFields,ackFields,ackBody]

/-- A written ACK_RECEIVE_TIMESTAMPS frame is read back with its ranges scaled. -/
theorem reads_timestampFrame {ranges : List RecvdPacketsTimestampsRange}
    (henc : Encodable (timestampFrameFields metaData largest blocks ranges))
    (hb : BlocksBelow largest.start blocks) {delay : ℕ}
    (hdelay : decodedAckDelay header params .ackReceiveTimestamps (encodedAckDelay metaData) = .ok delay)
    (he : (receiveTimestampsExponentToUse params).toNat < 64)
    (hscale : Scalable (receiveTimestampsExponentToUse params).toNat ranges) :
    Reads (parseFrame header params) (quicIntegers (timestampFrameFields metaData largest blocks ranges))
      (some {largestAcked := largest.stop, ackDelay := delay, frameType := .ackReceiveTimestamps,
             ackBlocks := (largest::blocks).map Interval.toAckBlock,
             maybeLatestRecvdPacketNum := some (latestRecvdPacket metaData).1,
             maybeLatestRecvdPacketTime := some (u64 (latestRecvdPacket metaData).2),
             recvdPacketsTimestampRanges :=
               ranges.map (·.scale (receiveTimestampsExponentToUse params).toNat)}) := by
  simp only [timestampFrameFields,ackFields,encodable_append,encodable_cons,encodable_nil,and_true] at henc
  obtain ⟨⟨⟨⟨-,h₁,h₂,h₃,h₄⟩,hblocks⟩,hnum,htime⟩,hlen,hranges⟩ := henc
  have hbody : Encodable (ackBody metaData largest blocks) := by
    simp only [ackBody,encodable_append,encodable_cons,encodable_nil,and_true]
    exact ⟨⟨h₁,h₂,h₃,h₄⟩,hblocks⟩
  have hread : Reads (readMany (decodeTimestampRange params .ackReceiveTimestamps) ranges.length ())
      (quicIntegers (ranges.flatMap fields))
      (ranges.map (·.scale (receiveTimestampsExponentToUse params).toNat),()) := by
    have hflat : quicIntegers (ranges.flatMap fields) = ranges.flatMap fun r => quicIntegers r.fields := by
      simp [quicIntegers,List.flatMap_assoc]
    rw [hflat]
    refine reads_readMany_map fun r hr => ?_
    obtain ⟨hcount,hδ⟩ := hscale r hr
    refine reads_decodeTimestampRange (fun v hv => hranges v ?_) hcount he hδ
    exact List.mem_flatMap.mpr ⟨r,hr,hv⟩
  rw [quicIntegers_timestampFrameFields]
  exact reads_parseFrame .ackReceiveTimestamps
    ((reads_decodeAckFrame hbody hb hdelay).bind ((reads_readQuicInteger hnum _ _).bind
      ((reads_readQuicInteger htime _ _).bind ((reads_readQuicInteger hlen _ _).bind
        (hread.bind (reads_pure _))))))

theorem fails_timestampFrame {ranges : List RecvdPacketsTimestampsRange}
    (henc : Encodable (timestampFrameFields metaData largest blocks ranges)) {e : QuicTransportException}
    (hdelay : decodedAckDelay header params .ackReceiveTimestamps (encodedAckDelay metaData) = .error e) :
    Fails (parseFrame header params)
      (quicIntegers (timestampFrameFields metaData largest blocks ranges)) := by
  simp only [timestampFrameFields,ackFields,encodable_append,encodable_cons,encodable_nil,and_true] at henc
  obtain ⟨⟨⟨⟨-,h₁,h₂,h₃,h₄⟩,hblocks⟩,-⟩,-⟩ := henc
  have hbody : Encodable (ackBody metaData largest blocks) := by
    simp only [ackBody,encodable_append,encodable_cons,encodable_nil,and_true]
    exact ⟨⟨h₁,h₂,h₃,h₄⟩,hblocks⟩
  rw [quicIntegers_timestampFrameFields]
  exact fails_parseFrame .ackReceiveTimestamps
    ((fails_decodeAckFrame hbody hdelay).bind _ _)

end Frame

end QuicWestwood
