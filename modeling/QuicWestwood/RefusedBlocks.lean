import QuicWestwood.HeaderBlocks
import QuicWestwood.Http2Effects

/-! A peer that opens more streams than allowed is told so by a stream error in the first frame of the header
block. The rest of the block is still decoded. Frame by frame, what is delivered of such a block and what the
decoder has read. -/
namespace QuicWestwood.HTTP2
open ByteCodec HTTP HPACK

def refusal (stream : ℕ) : Callback :=
  .onError stream ⟨.ingressAndEgress,ascii "Exceeded max_concurrent_streams",some .refusedStream,0,none⟩ true

def Callback.deliversBlock (stream : ℕ) : Callback → Bool
  | .onMessageBegin s _ | .onExMessageBegin s _ _ _ | .onHeadersComplete s _ => s = stream
  | _ => false

def Withholds (stream : ℕ) (calls : List Callback) : Prop := ∀ call ∈ calls,call.deliversBlock stream = false

instance (stream : ℕ) (calls : List Callback) : Decidable (Withholds stream calls) :=
  inferInstanceAs (Decidable (∀ call ∈ calls,_))

/-- The header block of a refused stream, with the decoder as it was before the block. -/
structure RefusedBlock where
  stream : ℕ
  decoder : HPACKDecoder
  fragments : Bytes

namespace HTTP2Codec

def startsBlock (c : HTTP2Codec) : Bool :=
  c.curHeader.type = .headers ||
    (c.curHeader.type = .exHeaders && (c.ingressSettings.getSetting .enableExHeaders).getD 0≠0)

def blockFragment (h : FrameHeader) (payload : Bytes) : Bytes :=
  if h.type = .headers then ((HTTP2.parseHeaders h payload).toOption.map (·.2)).getD []
  else ((HTTP2.parseExHeaders h payload).toOption.map (·.2.2)).getD []

/-- What a whole frame and its callbacks say about the refused block. -/
def follow (c : HTTP2Codec) (payload : Bytes) (calls : List Callback) (refused : Option RefusedBlock) :
    Option RefusedBlock :=
  if c.startsBlock then
    if refusal c.curHeader.stream ∈ calls then
      some ⟨c.curHeader.stream,c.headerCodec,blockFragment c.curHeader payload⟩
    else none
  else if c.curHeader.type = .continuation then
    refused.map fun b => {b with fragments := b.fragments++payload}
  else none

/-- The CONTINUATION frame that is expected, within the limit of the size of a block. -/
def acceptsContinuation (c : HTTP2Codec) : Bool :=
  c.expectedContinuationStream≠0 && c.curHeader.type = .continuation &&
    c.curHeader.stream = c.expectedContinuationStream &&
    c.curHeaderBlock.length+c.curHeader.length ≤ c.maxHeaderListSize

/-- The block that a CONTINUATION frame completes is not delivered: it ends the connection, it consists of trailers, or
its stream is beyond a GOAWAY. -/
def withheld (parseURL : Bytes → Bool) (c : HTTP2Codec) (payload : Bytes) : Bool :=
  match (c.expectContinuation.appendBlock payload none none).parseHeadersDecodeFrames parseURL none none with
  | (_,.error _) => true
  | (d,.ok block) =>
    (match block with
      | .error error => error.connectionError
      | .ok _ => false) ||
    d.parsingTrailers || !d.isStreamIngressEgressAllowed d.curHeader.stream

end HTTP2Codec

namespace HTTP2Codec
variable {parseURL : Bytes → Bool} {num : ℕ} {c d : HTTP2Codec} {p : Parsed} {stream : ℕ}

section
variable {P : Callback → Prop}

lemma forall_deliver {s : ℕ} {call : Callback} (h : P call) : ∀ call' ∈ c.deliver s call,P call' := by
  unfold deliver
  split_ifs <;> simp [h]

lemma forall_if {q : Prop} [Decidable q] {calls : List Callback} (h : ∀ call ∈ calls,P call) :
    ∀ call ∈ (if q then calls else []),P call := by
  split_ifs
  · exact h
  · simp

lemma forall_ite {q : Prop} [Decidable q] {p p' : Parsed} (h : ∀ call ∈ p.calls,P call)
    (h' : ∀ call ∈ p'.calls,P call) : ∀ call ∈ (if q then p else p').calls,P call := by
  split_ifs
  · exact h
  · exact h'

lemma forall_append {calls calls' : List Callback} (h : ∀ call ∈ calls,P call) (h' : ∀ call ∈ calls',P call) :
    ∀ call ∈ calls++calls',P call :=
  fun call hcall => (List.mem_append.mp hcall).elim (h call) (h' call)

lemma forall_handleEndStream (h : ∀ s upgrade,P (.onMessageComplete s upgrade)) :
    ∀ call ∈ c.handleEndStream.calls,P call := by
  unfold handleEndStream
  by_cases hends : (!endsStream c.curHeader.type) = true
  · rw [if_pos hends]
    simp
  · rw [if_neg hends]
    exact forall_append (forall_if (forall_deliver (h _ _))) (forall_if (forall_deliver (h _ _)))

lemma forall_deliver_of_allowed {s : ℕ} {call : Callback} (h : c.isStreamIngressEgressAllowed s = true → P call) :
    ∀ call' ∈ c.deliver s call,P call' := by
  unfold deliver
  split_ifs with hallowed
  · simp [h hallowed]
  · simp

lemma forall_deliverHeaders {trailers : Bool} {s : ℕ} {msg : HTTPMessage}
    (htrailers : ∀ headers,P (.onTrailersComplete s headers))
    (hheaders : trailers=false → c.isStreamIngressEgressAllowed s = true → ∀ msg,P (.onHeadersComplete s msg))
    (hcomplete : ∀ s upgrade,P (.onMessageComplete s upgrade)) :
    ∀ call ∈ (c.deliverHeaders trailers s msg).calls,P call := by
  unfold deliverHeaders
  dsimp only
  generalize (if c.curHeader.endStream=true then msg else _ : HTTPMessage) = msg
  split_ifs with htrue
  · exact forall_append (forall_deliver (htrailers _)) (forall_handleEndStream hcomplete)
  · simp [failWith,fail]
  · refine forall_append (forall_deliver_of_allowed fun hallowed => ?_) (forall_handleEndStream hcomplete)
    exact hheaders (by simpa using htrue) hallowed _

lemma forall_parsePiece (hbody : ∀ s body padding,P (.onBody s body padding))
    (hcomplete : ∀ s upgrade,P (.onMessageComplete s upgrade)) (bytes : Bytes) :
    ∀ call ∈ (c.parsePiece bytes).1.calls,P call := by
  have hrest (e : HTTP2Codec) (padding : ℕ) (bytes : Bytes) : ∀ call ∈ (e.parseDataRest padding bytes).1.calls,P call := by
    unfold parseDataRest
    dsimp only
    split
    · simp [fail]
    · refine forall_ite ?_ ?_
      · exact forall_if (forall_deliver (hbody _ _ _))
      · exact forall_append (forall_if (forall_deliver (hbody _ _ _))) (forall_handleEndStream hcomplete)
  change ∀ call ∈ (c.parseDataFrameData bytes).1.calls,P call
  unfold parseDataFrameData
  split_ifs
  · simp
  · simp
  · split
    · simp [fail]
    · split_ifs
      · exact hrest _ _ _
      · exact hrest _ _ _
  · exact hrest _ _ _

def IsBlockError (call : Callback) : Prop :=
  ∃ s exception newTxn,call = .onError s exception newTxn ∧
    (exception.codecStatusCode = some .refusedStream → newTxn=false)

lemma isBlockError_deliverDeferredParseError {error : DeferredParseError} (h : error.errorCode≠.refusedStream) :
    ∀ call ∈ (c.deliverDeferredParseError error).calls,IsBlockError call := by
  have hstream (s : ℕ) : ∀ call ∈ c.streamError error.errorMessage error.errorCode c.parsingHeaders s
      error.partialMessage, IsBlockError call :=
    forall_deliver ⟨_,_,_,rfl,fun hcode => absurd (Option.some.inj hcode) h⟩
  unfold deliverDeferredParseError
  split_ifs
  · split
    · exact hstream _
    · exact forall_append (hstream _) (forall_deliver ⟨_,_,_,rfl,fun _ => rfl⟩)
  · exact forall_deliver ⟨_,_,_,rfl,fun hcode => absurd hcode (by simp)⟩

end

lemma errorCode_of_decode {priority : Option HTTP2Priority} {ex : Option ExAttributes} {error : DeferredParseError}
    (h : c.parseHeadersDecodeFrames parseURL priority ex = (d,.ok (.error error))) :
    error.errorCode≠.refusedStream := by
  unfold parseHeadersDecodeFrames at h
  cases hdecode : c.decodeBlock parseURL priority ex with
  | mk e r =>
    rw [hdecode] at h
    obtain (err | _) | _ := r
    · obtain ⟨-,herror⟩ := Prod.mk.inj h
      cases herror
      simp
    · cases h
    · dsimp only at h
      cases hblock : e.blockError priority with
      | none =>
        rw [hblock] at h
        cases h
      | some error' =>
        rw [hblock] at h
        cases h
        unfold blockError at hblock
        dsimp only at hblock
        split_ifs at hblock <;> cases hblock <;> simp

lemma refusal_notMem_of_isBlockError {calls : List Callback} (h : ∀ call ∈ calls,IsBlockError call) :
    refusal stream ∉ calls := by
  intro hmem
  obtain ⟨s,exception,newTxn,hcall,htxn⟩ := h _ hmem
  cases hcall
  exact absurd (htxn rfl) (by simp)

lemma exceeds_of_refusal {promised : Option ℕ} {ex : Option ExAttributes} {s : ℕ}
    {block : Option (Except DeferredParseError HTTPMessage)}
    (hblock : ∀ error,block = some (.error error) → error.errorCode≠.refusedStream)
    (hmem : refusal stream ∈ (c.reportHeaders num s promised ex block).calls) : c.exceedsConcurrentStreams num = true := by
  by_contra hexceeds
  unfold reportHeaders at hmem
  rw [if_neg hexceeds] at hmem
  have hbegin : refusal stream ∉ (c.messageBegin s promised ex (block.bind Except.toOption)).2.1 := by
    unfold messageBegin
    split_ifs <;> try exact fun h => forall_deliver (P := (·≠refusal stream)) (by simp [refusal]) _ h rfl
    simp
  obtain _ | error | msg := block
  · refine (List.mem_append.mp hmem).elim hbegin fun h => ?_
    exact forall_handleEndStream (P := (·≠refusal stream)) (by simp [refusal]) _ h rfl
  · refine (List.mem_append.mp hmem).elim hbegin ?_
    exact refusal_notMem_of_isBlockError (isBlockError_deliverDeferredParseError (hblock error rfl))
  · refine (List.mem_append.mp hmem).elim hbegin fun h => ?_
    exact forall_deliverHeaders (P := (·≠refusal stream)) (by simp [refusal]) (by simp [refusal]) (by simp [refusal]) _ h rfl

structure AfterBlock (a d : HTTP2Codec) : Prop where
  expected : d.expectedContinuationStream=a.expectedContinuationStream
  frameType : d.headerBlockFrameType=a.headerBlockFrameType
  complete : a.curHeader.endHeaders=true →
    d.curHeaderBlock = [] ∧ d.headerCodec = (a.headerCodec.decodeStreaming a.curHeaderBlock).1
  incomplete : a.curHeader.endHeaders=false → d.curHeaderBlock=a.curHeaderBlock ∧ d.headerCodec=a.headerCodec

section
variable {a : HTTP2Codec} {priority : Option HTTP2Priority} {promised : Option ℕ} {ex : Option ExAttributes}

lemma BlockFrame.after (h : BlockFrame parseURL num priority promised ex a p) (hstop : p.stop=none) :
    AfterBlock a p.codec := by
  cases h with
  | failed hne hcalls => exact absurd hstop hne
  | collected hend hp =>
    subst hp
    have hsame := sameBlock_reportHeaders (c := a) num a.blockStream promised ex none
    exact ⟨hsame.expected,hsame.frameType,fun htrue => absurd htrue (by simp [hend]),
      fun _ => ⟨hsame.block,hsame.decoder⟩⟩
  | decoded hend d block hdecode hblock hp =>
    subst hp
    have hdecoded := decoded_parseHeadersDecodeFrames (c := a) parseURL priority ex
    rw [hdecode] at hdecoded
    have hsame := hdecoded.trans (sameBlock_reportHeaders (c := d) num a.blockStream promised ex (some block))
    exact ⟨hsame.expected,hsame.frameType,fun _ => ⟨hsame.block,hsame.decoder⟩,
      fun hfalse => absurd hend (by simp [hfalse])⟩

lemma BlockFrame.of_refusal (h : BlockFrame parseURL num priority promised ex a p) (hmem : refusal stream ∈ p.calls) :
    (a.curHeader.type = .headers ∨ a.curHeader.type = .exHeaders) ∧ ∃ d,p = ⟨d,d.refuseStream,none⟩ := by
  have htype {d : HTTP2Codec} (h : d.exceedsConcurrentStreams num = true) :
      d.curHeader.type = .headers ∨ d.curHeader.type = .exHeaders := by
    simp only [exceedsConcurrentStreams,Bool.and_eq_true,Bool.or_eq_true,decide_eq_true_eq] at h
    exact h.1.2
  have hrefused {d : HTTP2Codec} {s : ℕ} {block : Option (Except DeferredParseError HTTPMessage)}
      (hblock : ∀ error,block = some (.error error) → error.errorCode≠.refusedStream)
      (hmem : refusal stream ∈ (d.reportHeaders num s promised ex block).calls) :
      (d.curHeader.type = .headers ∨ d.curHeader.type = .exHeaders) ∧
        d.reportHeaders num s promised ex block = ⟨d,d.refuseStream,none⟩ := by
    have hexceeds := exceeds_of_refusal hblock hmem
    refine ⟨htype hexceeds,?_⟩
    unfold reportHeaders
    rw [if_pos hexceeds]
  cases h with
  | failed hstop hcalls => simp [hcalls] at hmem
  | collected hend hp =>
    subst hp
    obtain ⟨ht,hp⟩ := hrefused (by simp) hmem
    exact ⟨ht,a,hp⟩
  | decoded hend d block hdecode hblock hp =>
    subst hp
    have hcode : ∀ error,some block = some (.error error) → error.errorCode≠.refusedStream := by
      intro error herror
      obtain rfl := Option.some.inj herror
      exact errorCode_of_decode hdecode
    obtain ⟨ht,hp⟩ := hrefused hcode hmem
    have hdecoded := decoded_parseHeadersDecodeFrames (c := a) parseURL priority ex
    rw [hdecode] at hdecoded
    exact ⟨hdecoded.header ▸ ht,d,hp⟩

end

lemma withholds_refuseStream : Withholds stream c.refuseStream := forall_deliver rfl

/-- A frame that starts a header block: it ends the connection without a report, or its fragment is added to the block. -/
def Starts (parseURL : Bytes → Bool) (num : ℕ) (c : HTTP2Codec) (fragment : Bytes) (p : Parsed) : Prop :=
  (p.stop≠none ∧ p.calls=[]) ∨ (c.curHeader.stream≠0 ∧ ∃ d priority promised ex,SameBlock c d ∧
      BlockFrame parseURL num priority promised ex (d.appendBlock fragment promised ex) p)

lemma starts_of_same (hstream : c.curHeader.stream≠0) (hsame : SameBlock c d) (fragment : Bytes)
    (priority : Option HTTP2Priority) (promised : Option ℕ) (ex : Option ExAttributes) :
    Starts parseURL num c fragment (d.parseHeadersImpl parseURL num fragment priority promised ex) :=
  .inr ⟨hstream,d,priority,promised,ex,hsame,blockFrame_parseHeadersImpl parseURL num fragment priority promised ex⟩

lemma starts_checkNewStream (hstream : c.curHeader.stream≠0) (s : ℕ) (trailersAllowed : Bool) (fragment : Bytes)
    (priority : Option HTTP2Priority) (promised : Option ℕ) (ex : Option ExAttributes) :
    Starts parseURL num c fragment (c.checkNewStream s trailersAllowed fun d =>
      d.parseHeadersImpl parseURL num fragment priority promised ex) := by
  unfold checkNewStream
  split_ifs
  · exact .inl ⟨by simp [failWith,fail],rfl⟩
  · exact .inl ⟨by simp [failWith,fail],rfl⟩
  · exact starts_of_same (d := c.recordStream s trailersAllowed) hstream ⟨rfl,rfl,rfl,rfl,rfl⟩ fragment priority
      promised ex

variable {payload : Bytes}

lemma starts_parseHeaders (htype : c.curHeader.type = .headers) :
    Starts parseURL num c (blockFragment c.curHeader payload) (c.parseHeaders parseURL num payload) := by
  unfold parseHeaders
  cases hok : HTTP2.parseHeaders c.curHeader payload with
  | error code => exact .inl ⟨by simp [returnIfError,fail],rfl⟩
  | ok r =>
    obtain ⟨priority,headerBuf⟩ := r
    have hfragment : blockFragment c.curHeader payload = headerBuf := by
      simp [blockFragment,htype,hok,Except.toOption]
    have hstream : c.curHeader.stream≠0 := fun hzero => by
      simp [HTTP2.parseHeaders,hzero] at hok
      cases hok
    rw [hfragment]
    split_ifs
    · exact starts_checkNewStream hstream _ _ headerBuf priority none none
    · exact starts_of_same hstream (.refl c) headerBuf priority none none

lemma starts_parseExHeaders (htype : c.curHeader.type = .exHeaders) :
    Starts parseURL num c (blockFragment c.curHeader payload) (c.parseExHeaders parseURL num payload) := by
  unfold parseExHeaders
  cases hok : HTTP2.parseExHeaders c.curHeader payload with
  | error code => exact .inl ⟨by simp [returnIfError,fail],rfl⟩
  | ok r =>
    obtain ⟨exAttributes,priority,headerBuf⟩ := r
    have hfragment : blockFragment c.curHeader payload = headerBuf := by
      simp [blockFragment,htype,hok,Except.toOption]
    have hstream : c.curHeader.stream≠0 := fun hzero => by
      simp [HTTP2.parseExHeaders,hzero] at hok
      cases hok
    rw [hfragment]
    split_ifs
    · exact starts_checkNewStream hstream _ _ headerBuf priority none (some exAttributes)
    · exact starts_of_same hstream (.refl c) headerBuf priority none (some exAttributes)

lemma starts_parsePushPromise (c : HTTP2Codec) (parseURL : Bytes → Bool) (num : ℕ) (payload : Bytes) :
    ∃ fragment,Starts parseURL num c fragment (c.parsePushPromise parseURL num payload) := by
  unfold parsePushPromise
  split_ifs
  · exact ⟨[],.inl ⟨by simp [failWith,fail],rfl⟩⟩
  · exact ⟨[],.inl ⟨by simp [failWith,fail],rfl⟩⟩
  · cases hok : HTTP2.parsePushPromise c.curHeader payload with
    | error code => exact ⟨[],.inl ⟨by simp [returnIfError,fail],rfl⟩⟩
    | ok r =>
      refine ⟨r.2,starts_checkNewStream (fun hzero => ?_) _ _ r.2 none (some r.1) none⟩
      simp [HTTP2.parsePushPromise,hzero] at hok
      cases hok

lemma messageBegin_continuation (htype : c.curHeader.type = .continuation) (s : ℕ) (msg : Option HTTPMessage) :
    c.messageBegin s none none msg =
      (c,if c.curHeader.endHeaders ∧ c.headerBlockFrameType = .headers ∧ ¬c.parsingTrailers then
        c.deliver c.curHeader.stream (.onMessageBegin c.curHeader.stream msg) else [],s) := by
  unfold messageBegin
  by_cases hif : c.curHeader.endHeaders=true ∧ c.headerBlockFrameType = .headers ∧ ¬c.parsingTrailers=true
  · rw [if_pos hif,if_pos hif]
  · rw [if_neg hif,if_neg hif,if_neg (by simp [htype]),if_neg (by simp [htype])]

lemma withholds_continuation {a : HTTP2Codec} (h : BlockFrame parseURL num none none none a p)
    (htype : a.curHeader.type = .continuation) (hframe : a.headerBlockFrameType = .headers)
    (hwithheld : ∀ d block,a.curHeader.endHeaders = true →
      a.parseHeadersDecodeFrames parseURL none none = (d,.ok block) →
      (∀ error,block = .error error → error.connectionError=false) →
        d.parsingTrailers = true ∨ d.isStreamIngressEgressAllowed d.curHeader.stream = false) :
    Withholds a.curHeader.stream p.calls := by
  have hstream : a.blockStream=a.curHeader.stream := by
    simp [blockStream,continuesPush,hframe]
  cases h with
  | failed hstop hcalls =>
    rw [hcalls]
    simp [Withholds]
  | collected hend hp =>
    subst hp
    unfold reportHeaders
    rw [if_neg (by simp [exceedsConcurrentStreams_continuation num htype]),messageBegin_continuation htype]
    refine forall_append ?_ (forall_handleEndStream fun _ _ => rfl)
    rw [if_neg (by simp [hend])]
    simp
  | decoded hend d block hdecode hblock hp =>
    subst hp
    have hdecoded := decoded_parseHeadersDecodeFrames (c := a) parseURL none none
    rw [hdecode] at hdecoded
    have hdtype : d.curHeader.type = .continuation := by rw [hdecoded.header,htype]
    have hcases := hwithheld d block hend hdecode hblock
    have hstream : a.blockStream=d.curHeader.stream := by rw [hdecoded.header,hstream]
    rw [← hdecoded.header,hstream]
    unfold reportHeaders
    rw [if_neg (by simp [exceedsConcurrentStreams_continuation num hdtype]),messageBegin_continuation hdtype]
    have hbegin (msg : Option HTTPMessage) : Withholds d.curHeader.stream
        (if d.curHeader.endHeaders ∧ d.headerBlockFrameType = .headers ∧ ¬d.parsingTrailers then
          d.deliver d.curHeader.stream (.onMessageBegin d.curHeader.stream msg) else []) := by
      rcases hcases with htrailers | hallowed
      · rw [if_neg fun hif => hif.2.2 htrailers]
        simp [Withholds]
      · exact forall_if (forall_deliver_of_allowed fun htrue => absurd htrue (by simp [hallowed]))
    obtain error | msg := block
    · refine forall_append (hbegin _) fun call hcall => ?_
      obtain ⟨s,exception,newTxn,rfl,-⟩ :=
        isBlockError_deliverDeferredParseError (errorCode_of_decode hdecode) call hcall
      rfl
    · refine forall_append (hbegin _) (forall_deliverHeaders (fun _ => rfl) ?_ fun _ _ => rfl)
      intro htrailers hallowed
      rcases hcases with htrue | hfalse
      · exact absurd htrue (by simp [htrailers])
      · exact absurd hallowed (by simp [hfalse])

/-- Outside a header block nothing is collected, and an open block that was refused is the one that is followed. -/
structure Follows (c : HTTP2Codec) (refused : Option RefusedBlock) : Prop where
  settled : c.expectedContinuationStream=0 → c.curHeaderBlock=[]
  block : ∀ b,refused = some b → c.expectedContinuationStream≠0 →
    b.stream = c.expectedContinuationStream ∧ b.fragments=c.curHeaderBlock ∧ b.decoder=c.headerCodec ∧
      c.headerBlockFrameType = .headers

variable {refused : Option RefusedBlock}

lemma Follows.congr (h : Follows c refused) (hblock : d.curHeaderBlock=c.curHeaderBlock)
    (hdecoder : d.headerCodec=c.headerCodec)
    (hexpected : d.expectedContinuationStream=c.expectedContinuationStream)
    (hframe : d.headerBlockFrameType=c.headerBlockFrameType) : Follows d refused := by
  refine ⟨fun hexp => ?_,fun b hb hexp => ?_⟩
  · rw [hblock]
    exact h.settled (hexpected ▸ hexp)
  · rw [hexpected,hblock,hdecoder,hframe]
    exact h.block b hb (hexpected ▸ hexp)

structure Refuses (c : HTTP2Codec) (p : Parsed) (refused : Option RefusedBlock) : Prop where
  withholds : ∀ b,refused = some b → Withholds b.stream p.calls
  decoder : ∀ b,refused = some b → c.curHeader.endHeaders=true → p.stop=none →
    p.codec.headerCodec = (b.decoder.decodeStreaming b.fragments).1
  follows : p.stop=none → Follows p.codec refused

lemma refuses_of_stop (hstop : p.stop≠none) (hcalls : p.calls=[]) : Refuses c p refused where
  withholds b _ := by simp [hcalls,Withholds]
  decoder b _ _ hnone := absurd hnone hstop
  follows hnone := absurd hnone hstop

lemma expectContinuation_eq_zero (h : c.expectContinuation.expectedContinuationStream=0)
    (haffects : c.curHeader.type.affectsCompression=true) (hstream : c.curHeader.stream≠0) :
    c.curHeader.endHeaders = true := by
  by_contra hend
  have hif : (c.curHeader.type.affectsCompression && !c.curHeader.endHeaders) = true := by simpa [haffects] using hend
  unfold expectContinuation at h
  simp only [hif,if_true] at h
  exact hstream h

lemma expectContinuation_ne_zero (h : c.expectContinuation.expectedContinuationStream≠0) :
    c.curHeader.type.affectsCompression = true ∧ c.curHeader.endHeaders=false ∧
      c.expectContinuation.expectedContinuationStream = c.curHeader.stream := by
  unfold expectContinuation at h ⊢
  split_ifs at h ⊢ with hif
  · rw [Bool.and_eq_true,Bool.not_eq_true'] at hif
    exact ⟨hif.1,hif.2,rfl⟩
  · exact absurd rfl h

lemma Follows.refuses_starts {fragment : Bytes} (h : Follows c refused)
    (hexp : c.expectedContinuationStream=0) (hstarts : Starts parseURL num c.expectContinuation fragment p)
    (hwhole : c.curHeader.type.affectsCompression=false → c.curHeader.endHeaders=true)
    (hcont : c.curHeader.type≠.continuation) :
    Refuses c p (if refusal c.curHeader.stream ∈ p.calls then some ⟨c.curHeader.stream,c.headerCodec,fragment⟩
      else none) := by
  rcases hstarts with ⟨hstop,hcalls⟩ | ⟨hstream,d,priority,promised,ex,hsame,hframe⟩
  · exact refuses_of_stop hstop hcalls
  · obtain ⟨hheader,hblock,hdecoder,hexpected,htype⟩ := appendBlock_spec (c := d) fragment promised ex
    have hhead : (d.appendBlock fragment promised ex).curHeader = c.curHeader := hheader.trans hsame.header
    have hfragment : (d.appendBlock fragment promised ex).curHeaderBlock = fragment := by
      rw [hblock,hsame.block,show c.expectContinuation.curHeaderBlock = [] from h.settled hexp,List.nil_append]
    have hcodec : (d.appendBlock fragment promised ex).headerCodec = c.headerCodec := hdecoder.trans hsame.decoder
    have hframeType : (d.appendBlock fragment promised ex).headerBlockFrameType = c.curHeader.type := by
      rw [htype,hsame.header]
      exact if_neg hcont
    refine ⟨fun b hb => ?_,fun b hb hend hstop => ?_,fun hstop => ?_⟩
    · split_ifs at hb with hmem
      obtain rfl := Option.some.inj hb
      obtain ⟨-,e,he⟩ := hframe.of_refusal hmem
      rw [he]
      exact withholds_refuseStream
    · split_ifs at hb with hmem
      obtain rfl := Option.some.inj hb
      rw [((hframe.after hstop).complete (hhead ▸ hend)).2,hcodec,hfragment]
    · have hafter := hframe.after hstop
      have hexp' := hafter.expected.trans (hexpected.trans hsame.expected)
      refine ⟨fun hzero => ?_,fun b hb hne => ?_⟩
      · have hend : c.curHeader.endHeaders=true := by
          cases haffects : c.curHeader.type.affectsCompression with
          | false => exact hwhole haffects
          | true => exact expectContinuation_eq_zero (hexp' ▸ hzero) haffects hstream
        exact (hafter.complete (hhead ▸ hend)).1
      · split_ifs at hb with hmem
        obtain rfl := Option.some.inj hb
        rw [hexp'] at hne ⊢
        obtain ⟨haffects,hend,hopen⟩ := expectContinuation_ne_zero hne
        obtain ⟨hcollected,hkept⟩ := hafter.incomplete (hhead ▸ hend)
        refine ⟨hopen.symm,?_,?_,?_⟩
        · rw [hcollected,hfragment]
        · rw [hkept,hcodec]
        · rw [hafter.frameType,hframeType]
          rcases hhead ▸ (hframe.of_refusal hmem).1 with htype | htype
          · exact htype
          · simp [FrameType.affectsCompression,htype] at haffects

lemma Refuses.forget (h : Refuses c p refused) : Refuses c p none where
  withholds b hb := absurd hb (by simp)
  decoder b hb := absurd hb (by simp)
  follows hstop := ⟨(h.follows hstop).settled,fun b hb => absurd hb (by simp)⟩

lemma Follows.refuses_continuation (h : Follows c refused) (hexp : c.expectedContinuationStream≠0)
    (htype : c.curHeader.type = .continuation) (hstream : c.expectedContinuationStream=c.curHeader.stream)
    (hkeep : c.curHeader.endHeaders=true → refused.isSome=true → c.withheld parseURL payload = true) :
    Refuses c (c.expectContinuation.parseContinuation parseURL num payload)
      (refused.map fun b => {b with fragments := b.fragments++payload}) := by
  have hne : c.expectContinuation.curHeader.stream≠0 := fun hzero => hexp (hstream.trans hzero)
  rw [parseContinuation_eq,if_neg hne]
  obtain ⟨hheader,hblock,hdecoder,hexpected,hframeType⟩ :=
    appendBlock_spec (c := c.expectContinuation) payload none none
  have hframe := blockFrame_parseHeadersImpl (c := c.expectContinuation) parseURL num payload none none none
  have hhead : (c.expectContinuation.appendBlock payload none none).curHeader = c.curHeader := hheader
  refine ⟨fun b' hb' => ?_,fun b' hb' hend hstop => ?_,fun hstop => ?_⟩
  · obtain ⟨b,hb,rfl⟩ := Option.map_eq_some_iff.mp hb'
    obtain ⟨hbstream,-,-,hheaders⟩ := h.block b hb hexp
    have hwithholds := withholds_continuation hframe (by rw [hhead,htype])
      (by rw [hframeType]; exact (if_pos htype).trans hheaders) ?_
    · rw [hhead] at hwithholds
      rwa [hbstream,hstream]
    · intro d block hend hdecode hblock
      have hw := hkeep (hhead ▸ hend) (by simp [hb])
      unfold withheld at hw
      rw [hdecode] at hw
      obtain error | msg := block
      · simpa [hblock error rfl] using hw
      · simpa using hw
  · obtain ⟨b,hb,rfl⟩ := Option.map_eq_some_iff.mp hb'
    obtain ⟨-,hfragments,hbdecoder,-⟩ := h.block b hb hexp
    rw [((hframe.after hstop).complete (hhead ▸ hend)).2,hdecoder,hblock,hfragments,hbdecoder]
    rfl
  · have hafter := hframe.after hstop
    have hexp' := hafter.expected.trans hexpected
    refine ⟨fun hzero => ?_,fun b' hb' hopen => ?_⟩
    · have hend := expectContinuation_eq_zero (c := c) (hexp' ▸ hzero) (by simp [FrameType.affectsCompression,htype]) hne
      exact (hafter.complete (hhead ▸ hend)).1
    · obtain ⟨b,hb,rfl⟩ := Option.map_eq_some_iff.mp hb'
      obtain ⟨hbstream,hfragments,hbdecoder,hheaders⟩ := h.block b hb hexp
      rw [hexp'] at hopen ⊢
      obtain ⟨-,hend,hstream'⟩ := expectContinuation_ne_zero hopen
      obtain ⟨hcollected,hkept⟩ := hafter.incomplete (hhead ▸ hend)
      refine ⟨?_,?_,?_,?_⟩
      · rw [hstream',hbstream,hstream]
      · rw [hcollected,hblock,hfragments]
        rfl
      · rw [hkept,hdecoder,hbdecoder]
        rfl
      · rw [hafter.frameType,hframeType]
        exact (if_pos htype).trans hheaders

lemma Follows.refuses_dispatch (h : Follows c refused) (hexp : c.expectedContinuationStream=0)
    (hcont : c.curHeader.type≠.continuation)
    (hex : c.startsBlock=true → c.curHeader.type = .exHeaders → c.curHeader.endHeaders=true) :
    let p := c.expectContinuation.dispatch parseURL num payload
    Refuses c p (c.follow payload p.calls refused) := by
  dsimp only
  by_cases hstarts : c.startsBlock=true
  · have hfollow (calls : List Callback) : c.follow payload calls refused =
        if refusal c.curHeader.stream ∈ calls then
          some ⟨c.curHeader.stream,c.headerCodec,blockFragment c.curHeader payload⟩ else none := by
      simp [follow,hstarts]
    rw [hfollow]
    have htype := hstarts
    simp only [startsBlock,Bool.or_eq_true,Bool.and_eq_true,decide_eq_true_eq] at htype
    rcases htype with htype | ⟨htype,henabled⟩
    · rw [dispatch,show c.expectContinuation.curHeader.type = .headers from htype]
      refine h.refuses_starts hexp (starts_parseHeaders (c := c.expectContinuation) htype) (fun haffects => ?_) hcont
      simp [FrameType.affectsCompression,htype] at haffects
    · rw [dispatch,show c.expectContinuation.curHeader.type = .exHeaders from htype]
      dsimp only
      rw [if_pos (show (c.expectContinuation.ingressSettings.getSetting _).getD 0≠0 from henabled)]
      exact h.refuses_starts hexp (starts_parseExHeaders (c := c.expectContinuation) htype) (fun _ => hex hstarts htype) hcont
  · have hfollow (calls : List Callback) : c.follow payload calls refused = none := by
      simp [follow,hstarts,hcont]
    rw [hfollow]
    by_cases hpush : c.curHeader.type = .pushPromise
    · rw [dispatch,show c.expectContinuation.curHeader.type = .pushPromise from hpush]
      obtain ⟨fragment,hstarts⟩ := c.expectContinuation.starts_parsePushPromise parseURL num payload
      refine (h.refuses_starts hexp hstarts (fun haffects => ?_) hcont).forget
      simp [FrameType.affectsCompression,hpush] at haffects
    · refine ⟨fun b hb => absurd hb (by simp),fun b hb => absurd hb (by simp),fun _ => ⟨fun _ => ?_,by simp⟩⟩
      by_cases hexType : c.curHeader.type = .exHeaders
      · have hdisabled : ¬(c.ingressSettings.getSetting .enableExHeaders).getD 0≠0 := by
          intro henabled
          exact hstarts (by simp [startsBlock,hexType,henabled])
        rw [dispatch,show c.expectContinuation.curHeader.type = .exHeaders from hexType]
        dsimp only
        rw [if_neg (show ¬(c.expectContinuation.ingressSettings.getSetting _).getD 0≠0 from hdisabled)]
        exact h.settled hexp
      · have haffects : c.curHeader.type.affectsCompression=false := by
          have hheaders : c.curHeader.type≠.headers := fun htype => hstarts (by simp [startsBlock,htype])
          simp [FrameType.affectsCompression,hheaders,hpush,hcont]
        exact (block_dispatch (c := c.expectContinuation) parseURL num payload haffects hexType).trans (h.settled hexp)

theorem Follows.refuses_parseFrame (h : Follows c refused) (num : ℕ)
    (hex : c.startsBlock=true → c.curHeader.type = .exHeaders → c.curHeader.endHeaders=true)
    (hkeep : c.acceptsContinuation=true → c.curHeader.endHeaders=true → refused.isSome=true →
      c.withheld parseURL payload = true) : let p := c.parseFrame parseURL num payload
    Refuses c p (c.follow payload p.calls refused) := by
  unfold parseFrame
  dsimp only
  split_ifs with hwrong hunexpected hlarge
  · exact refuses_of_stop (by simp [failWith,fail]) rfl
  · exact refuses_of_stop (by simp [failWith,fail]) rfl
  · exact refuses_of_stop (by simp [failWith,fail]) rfl
  by_cases hcont : c.curHeader.type = .continuation
  · have hexp : c.expectedContinuationStream≠0 := fun hzero => hunexpected ⟨hzero,hcont⟩
    have hstream : c.expectedContinuationStream=c.curHeader.stream := by
      by_contra hne
      exact hwrong ⟨hexp,.inr hne⟩
    have hfollow (calls : List Callback) : c.follow payload calls refused =
        refused.map fun b => {b with fragments := b.fragments++payload} := by
      simp [follow,startsBlock,hcont]
    rw [hfollow,dispatch,show c.expectContinuation.curHeader.type = .continuation from hcont]
    refine h.refuses_continuation hexp hcont hstream fun hend hsome => hkeep ?_ hend hsome
    have hsmall : c.curHeaderBlock.length+c.curHeader.length ≤ c.maxHeaderListSize := by
      by_contra hnot
      exact hlarge ⟨by simp [FrameType.affectsCompression,hcont],by omega⟩
    simp only [acceptsContinuation,Bool.and_eq_true,decide_eq_true_eq]
    exact ⟨⟨⟨hexp,hcont⟩,hstream.symm⟩,hsmall⟩
  · have hexp : c.expectedContinuationStream=0 := by
      by_contra hne
      exact hwrong ⟨hne,.inl hcont⟩
    exact h.refuses_dispatch hexp hcont hex

end HTTP2Codec

end QuicWestwood.HTTP2
