import QuicWestwood.Http2Ingress

/-! A header block is collected from the frames that carry it and is decoded when it is complete; no other frame
touches it. What is reported of a frame depends on the limit of concurrent streams only in the frame that starts
the block. -/
namespace QuicWestwood.HTTP2
open ByteCodec HTTP HPACK

namespace HTTP2Codec
variable {c d e : HTTP2Codec}

/-- The header block, the decoder and the frame are the same. -/
structure SameBlock (c d : HTTP2Codec) : Prop where
  header : d.curHeader=c.curHeader
  block : d.curHeaderBlock=c.curHeaderBlock
  decoder : d.headerCodec=c.headerCodec
  expected : d.expectedContinuationStream=c.expectedContinuationStream
  frameType : d.headerBlockFrameType=c.headerBlockFrameType

lemma SameBlock.refl (c : HTTP2Codec) : SameBlock c c := ⟨rfl,rfl,rfl,rfl,rfl⟩

lemma SameBlock.trans (h : SameBlock c d) (h' : SameBlock d e) : SameBlock c e :=
  ⟨h'.header.trans h.header,h'.block.trans h.block,h'.decoder.trans h.decoder,h'.expected.trans h.expected,
    h'.frameType.trans h.frameType⟩

lemma sameBlock_handleEndStream (c : HTTP2Codec) : SameBlock c c.handleEndStream.codec := by
  unfold handleEndStream
  split_ifs <;> exact ⟨rfl,rfl,rfl,rfl,rfl⟩

lemma sameBlock_deliverDeferredParseError (error : DeferredParseError) :
    SameBlock c (c.deliverDeferredParseError error).codec := by
  unfold deliverDeferredParseError
  split_ifs
  · split <;> exact ⟨rfl,rfl,rfl,rfl,rfl⟩
  · exact .refl c

lemma sameBlock_messageBegin (stream : ℕ) (promised : Option ℕ) (ex : Option ExAttributes) (msg : Option HTTPMessage) :
    SameBlock c (c.messageBegin stream promised ex msg).1 := by
  unfold messageBegin
  split_ifs <;> exact ⟨rfl,rfl,rfl,rfl,rfl⟩

lemma sameBlock_deliverHeaders (trailers : Bool) (stream : ℕ) (msg : HTTPMessage) :
    SameBlock c (c.deliverHeaders trailers stream msg).codec := by
  unfold deliverHeaders
  dsimp only
  generalize (if c.curHeader.endStream=true then msg else _ : HTTPMessage) = msg
  split_ifs
  · exact sameBlock_handleEndStream c
  · exact ⟨rfl,rfl,rfl,rfl,rfl⟩
  · refine SameBlock.trans ?_ (sameBlock_handleEndStream _)
    exact ⟨rfl,rfl,rfl,rfl,rfl⟩

lemma sameBlock_reportHeaders (num stream : ℕ) (promised : Option ℕ) (ex : Option ExAttributes)
    (block : Option (Except DeferredParseError HTTPMessage)) :
    SameBlock c (c.reportHeaders num stream promised ex block).codec := by
  have hbegin := sameBlock_messageBegin (c := c) stream promised ex (block.bind Except.toOption)
  unfold reportHeaders
  split_ifs
  · exact .refl c
  · obtain _ | error | msg := block
    · exact hbegin.trans (sameBlock_handleEndStream _)
    · exact hbegin.trans (sameBlock_deliverDeferredParseError error)
    · exact hbegin.trans (sameBlock_deliverHeaders _ _ msg)

lemma appendBlock_spec (headerBuf : Bytes) (promised : Option ℕ) (ex : Option ExAttributes) :
    (c.appendBlock headerBuf promised ex).curHeader = c.curHeader ∧
      (c.appendBlock headerBuf promised ex).curHeaderBlock = c.curHeaderBlock++headerBuf ∧
      (c.appendBlock headerBuf promised ex).headerCodec = c.headerCodec ∧
      (c.appendBlock headerBuf promised ex).expectedContinuationStream = c.expectedContinuationStream ∧
      (c.appendBlock headerBuf promised ex).headerBlockFrameType =
        if c.curHeader.type = .continuation then c.headerBlockFrameType else c.curHeader.type := by
  unfold appendBlock
  dsimp only
  split_ifs <;> exact ⟨rfl,rfl,rfl,rfl,rfl⟩

lemma sameBlock_noteUpgrade (c : HTTP2Codec) : SameBlock c c.noteUpgrade := by
  unfold noteUpgrade
  dsimp only
  split_ifs <;> exact ⟨rfl,rfl,rfl,rfl,rfl⟩

/-- A block that is decoded is used up, and the decoder has read the whole of it. -/
structure Decoded (c d : HTTP2Codec) : Prop where
  header : d.curHeader=c.curHeader
  block : d.curHeaderBlock=[]
  decoder : d.headerCodec = (c.headerCodec.decodeStreaming c.curHeaderBlock).1
  expected : d.expectedContinuationStream=c.expectedContinuationStream
  frameType : d.headerBlockFrameType=c.headerBlockFrameType

lemma Decoded.trans (h : Decoded c d) (h' : SameBlock d e) : Decoded c e :=
  ⟨h'.header.trans h.header,h'.block.trans h.block,h'.decoder.trans h.decoder,h'.expected.trans h.expected,
    h'.frameType.trans h.frameType⟩

variable (parseURL : Bytes → Bool)

lemma decoded_decodeBlock (priority : Option HTTP2Priority) (ex : Option ExAttributes) :
    Decoded c (c.decodeBlock parseURL priority ex).1 := by
  have hblock (info : HeaderDecodeInfo) :
      Decoded c (c.withBlock (c.headerCodec.decodeStreaming c.curHeaderBlock).1 info) := ⟨rfl,rfl,rfl,rfl,rfl⟩
  unfold decodeBlock
  dsimp only
  split
  · exact (hblock _).trans (sameBlock_noteUpgrade _)
  · exact hblock _
  · exact hblock _

lemma decoded_parseHeadersDecodeFrames (priority : Option HTTP2Priority) (ex : Option ExAttributes) :
    Decoded c (c.parseHeadersDecodeFrames parseURL priority ex).1 := by
  have h := decoded_decodeBlock (c := c) parseURL priority ex
  unfold parseHeadersDecodeFrames
  generalize c.decodeBlock parseURL priority ex = r at h
  obtain ⟨d,(err | _) | _⟩ := r
  · exact ⟨h.header,h.block,h.decoder,h.expected,h.frameType⟩
  · exact h
  · dsimp only
    cases d.blockError priority <;> exact h

/-- A frame of a header block: it ends the connection, or it is reported after the block is extended
and, if complete, decoded. -/
inductive BlockFrame (num : ℕ) (priority : Option HTTP2Priority) (promised : Option ℕ) (ex : Option ExAttributes)
    (c : HTTP2Codec) (p : Parsed) : Prop
  | failed (hstop : p.stop≠none) (hcalls : p.calls=[])
  | collected (hend : c.curHeader.endHeaders=false)
      (hp : p = c.reportHeaders num c.blockStream promised ex none)
  | decoded (hend : c.curHeader.endHeaders=true) (d : HTTP2Codec) (block : Except DeferredParseError HTTPMessage)
      (hdecode : c.parseHeadersDecodeFrames parseURL priority ex = (d,.ok block))
      (hblock : ∀ error,block = .error error → error.connectionError=false)
      (hp : p = d.reportHeaders num c.blockStream promised ex (some block))

lemma blockFrame_parseHeadersImpl (num : ℕ) (headerBuf : Bytes) (priority : Option HTTP2Priority) (promised : Option ℕ)
    (ex : Option ExAttributes) : BlockFrame parseURL num priority promised ex (c.appendBlock headerBuf promised ex)
      (c.parseHeadersImpl parseURL num headerBuf priority promised ex) := by
  unfold parseHeadersImpl
  dsimp only
  generalize c.appendBlock headerBuf promised ex = d
  split_ifs with hcheck hend
  · exact .failed (by simp) rfl
  · cases hdecode : d.parseHeadersDecodeFrames parseURL priority ex with
    | mk e r =>
      obtain stop | error | msg := r
      · exact .failed (by simp) rfl
      · dsimp only
        cases herror : error.connectionError with
        | true =>
          rw [if_pos rfl]
          exact .failed (by simp [fail]) rfl
        | false =>
          rw [if_neg (by simp)]
          exact .decoded hend e (.error error) hdecode (by rintro _ ⟨⟩; exact herror) rfl
      · exact .decoded hend e (.ok msg) hdecode (by rintro _ ⟨⟩) rfl
  · exact .collected (by simpa using hend) rfl

lemma block_returnIfError {α : Type} {r : Except ErrorCode α} {next : α → Parsed} {b : Bytes}
    (hc : c.curHeaderBlock=b) (h : ∀ a,(next a).codec.curHeaderBlock = b) :
    (c.returnIfError r next).codec.curHeaderBlock = b := by
  cases r with
  | error code => exact hc
  | ok a => exact h a

lemma block_handleSettings (settingsList settings : List Setting) :
    (handleSettings c settingsList settings).codec.curHeaderBlock = c.curHeaderBlock := by
  induction settings generalizing c settingsList with
  | nil => rfl
  | cons setting rest ih =>
    unfold handleSettings
    split
    · rfl
    · split_ifs
      · exact ih _
      · exact ih _

lemma block_dispatch (num : ℕ) (payload : Bytes) (haffects : c.curHeader.type.affectsCompression=false)
    (hex : c.curHeader.type≠.exHeaders) :
    (c.dispatch parseURL num payload).codec.curHeaderBlock = c.curHeaderBlock := by
  unfold dispatch
  split
  · exact block_returnIfError rfl fun _ => (sameBlock_handleEndStream c).block
  · next htype => simp [FrameType.affectsCompression,htype] at haffects
  · refine block_returnIfError rfl fun pri => ?_
    dsimp only
    split_ifs <;> rfl
  · exact block_returnIfError rfl fun _ => rfl
  · refine block_returnIfError rfl fun settings => ?_
    split_ifs
    · unfold handleSettingsAck
      split <;> rfl
    · exact block_handleSettings _ _
  · next htype => simp [FrameType.affectsCompression,htype] at haffects
  · next htype => exact absurd htype hex
  · exact block_returnIfError rfl fun _ => rfl
  · refine block_returnIfError rfl fun _ => ?_
    dsimp only
    split_ifs <;> rfl
  · refine block_returnIfError rfl fun delta => ?_
    dsimp only
    split_ifs <;> rfl
  · next htype => simp [FrameType.affectsCompression,htype] at haffects
  · exact block_returnIfError rfl fun _ => rfl
  · refine block_returnIfError rfl fun _ => ?_
    dsimp only
    split_ifs <;> rfl
  · rfl
  · rfl

lemma sameBlock_parseDataRest (padding : ℕ) (bytes : Bytes) : SameBlock c (c.parseDataRest padding bytes).1.codec := by
  unfold parseDataRest
  dsimp only
  split
  · exact ⟨rfl,rfl,rfl,rfl,rfl⟩
  · split_ifs
    all_goals first
      | exact ⟨rfl,rfl,rfl,rfl,rfl⟩
      | (refine SameBlock.trans ?_ (sameBlock_handleEndStream _)
         exact ⟨rfl,rfl,rfl,rfl,rfl⟩)

lemma sameBlock_parsePiece (bytes : Bytes) : SameBlock c (c.parsePiece bytes).1.codec := by
  have hdata : SameBlock c (c.parseDataFrameData bytes).1.codec := by
    unfold parseDataFrameData
    split_ifs
    · exact .refl c
    · exact .refl c
    · split
      · exact .refl c
      · split_ifs
        · refine SameBlock.trans ?_ (sameBlock_parseDataRest _ _)
          exact ⟨rfl,rfl,rfl,rfl,rfl⟩
        · exact sameBlock_parseDataRest _ _
    · exact sameBlock_parseDataRest _ _
  unfold parsePiece
  dsimp only
  split_ifs
  · exact hdata.trans ⟨rfl,rfl,rfl,rfl,rfl⟩
  · exact hdata

end HTTP2Codec

end QuicWestwood.HTTP2
