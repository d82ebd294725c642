import QuicWestwood.Http2Ingress

/-! Which parsers touch the end-of-stream mark and the continuation mark: `handleEndStream` alone. Every parser
fails, leaves the marks and reports no end, or finishes with `handleEndStream`. -/
namespace QuicWestwood.HTTP2
open ByteCodec HTTP HPACK

def Callback.isMessageComplete : Callback → Bool
  | .onMessageComplete _ _ => true
  | _ => false

def Silent (calls : List Callback) : Prop := ∀ call ∈ calls,call.isMessageComplete = false

@[simp] lemma silent_nil : Silent [] := fun _ h => absurd h (by simp)

lemma silent_singleton {call : Callback} (h : call.isMessageComplete=false) : Silent [call] := by
  simpa [Silent] using h

lemma Silent.append {calls calls' : List Callback} (h : Silent calls) (h' : Silent calls') : Silent (calls++calls') :=
  fun call hcall => (List.mem_append.mp hcall).elim (h call) (h' call)

namespace HTTP2Codec
variable {c d e : HTTP2Codec}

lemma silent_deliver {stream : ℕ} {call : Callback} (h : call.isMessageComplete=false) :
    Silent (c.deliver stream call) := by
  unfold deliver
  split_ifs
  · exact silent_singleton h
  · exact silent_nil

lemma silent_streamError {what : Bytes} {code : ErrorCode} {newTxn : Bool} {stream : ℕ} {msg : Option HTTPMessage} :
    Silent (c.streamError what code newTxn stream msg) := silent_deliver rfl

structure SameMark (c d : HTTP2Codec) : Prop where
  header : d.curHeader=c.curHeader
  pending : d.pendingEndStreamHandling=c.pendingEndStreamHandling
  expected : d.expectedContinuationStream=c.expectedContinuationStream

lemma SameMark.refl (c : HTTP2Codec) : SameMark c c := ⟨rfl,rfl,rfl⟩

lemma SameMark.trans (h : SameMark c d) (h' : SameMark d e) : SameMark c e :=
  ⟨h'.header.trans h.header,h'.pending.trans h.pending,h'.expected.trans h.expected⟩

/-- A parser that fails or finishes with `handleEndStream`. -/
inductive Concludes (c : HTTP2Codec) (p : Parsed) : Prop
  | failed (hstop : p.stop≠none) (hcalls : Silent p.calls)
  | ended (d : HTTP2Codec) (hmark : SameMark c d) (calls : List Callback) (hcalls : Silent calls)
      (hp : p = d.handleEndStream.prepend calls)

inductive Effect (c : HTTP2Codec) (p : Parsed) : Prop
  | concludes (h : Concludes c p)
  | quiet (hmark : SameMark c p.codec) (hcalls : Silent p.calls)

namespace Concludes
variable {p : Parsed}

lemma of_same (h : SameMark c d) (hp : Concludes d p) : Concludes c p := by
  cases hp with
  | failed hstop hcalls => exact .failed hstop hcalls
  | ended e hmark calls hcalls hp => exact .ended e (h.trans hmark) calls hcalls hp

lemma prepend {calls : List Callback} (hcalls : Silent calls) (hp : Concludes c p) : Concludes c (p.prepend calls) := by
  cases hp with
  | failed hstop hcalls' => exact .failed hstop (hcalls.append hcalls')
  | ended d hmark calls' hcalls' hp =>
    refine .ended d hmark (calls++calls') (hcalls.append hcalls') ?_
    rw [hp]
    simp only [Parsed.prepend,List.append_assoc]

lemma fail (code : ErrorCode) : Concludes c (d.fail code) := .failed (by simp [HTTP2Codec.fail]) silent_nil

lemma failWith (message : Bytes) (code : ErrorCode) : Concludes c (d.failWith message code) := fail code

lemma handleEndStream (h : SameMark c d) : Concludes c d.handleEndStream :=
  .ended d h [] silent_nil (by simp [Parsed.prepend])

lemma returnIfError {α : Type} {r : Except ErrorCode α} {next : α → Parsed} (h : ∀ a,Concludes c (next a)) :
    Concludes c (d.returnIfError r next) := by
  cases r with
  | error code => exact fail code
  | ok a => exact h a

end Concludes

namespace Effect
variable {p : Parsed}

lemma of_same (h : SameMark c d) (hp : Effect d p) : Effect c p := by
  cases hp with
  | concludes hp => exact .concludes (hp.of_same h)
  | quiet hmark hcalls => exact .quiet (h.trans hmark) hcalls

lemma prepend {calls : List Callback} (hcalls : Silent calls) (hp : Effect c p) : Effect c (p.prepend calls) := by
  cases hp with
  | concludes hp => exact .concludes (hp.prepend hcalls)
  | quiet hmark hcalls' => exact .quiet hmark (hcalls.append hcalls')

lemma failWith (message : Bytes) (code : ErrorCode) : Effect c (d.failWith message code) :=
  .concludes (.failWith message code)

lemma returnIfError {α : Type} {r : Except ErrorCode α} {next : α → Parsed} (h : ∀ a,Effect c (next a)) :
    Effect c (d.returnIfError r next) := by
  cases r with
  | error code => exact .concludes (.fail code)
  | ok a => exact h a

lemma checkNewStream {streamId : ℕ} {trailersAllowed : Bool} {next : HTTP2Codec → Parsed}
    (h : ∀ d,Effect d (next d)) : Effect c (c.checkNewStream streamId trailersAllowed next) := by
  unfold HTTP2Codec.checkNewStream
  split_ifs
  · exact failWith _ _
  · exact failWith _ _
  · exact Effect.of_same (d := c.recordStream streamId trailersAllowed) ⟨rfl,rfl,rfl⟩ (h _)

end Effect

lemma sameMark_appendBlock (headerBuf : Bytes) (promised : Option ℕ) (ex : Option ExAttributes) :
    SameMark c (c.appendBlock headerBuf promised ex) := by
  unfold appendBlock
  dsimp only
  split_ifs <;> exact ⟨rfl,rfl,rfl⟩

lemma sameMark_noteUpgrade (c : HTTP2Codec) : SameMark c c.noteUpgrade := by
  unfold noteUpgrade
  dsimp only
  split_ifs <;> exact ⟨rfl,rfl,rfl⟩

lemma sameMark_decodeBlock (parseURL : Bytes → Bool) (priority : Option HTTP2Priority) (ex : Option ExAttributes) :
    SameMark c (c.decodeBlock parseURL priority ex).1 := by
  have hblock (headerCodec : HPACKDecoder) (info : HeaderDecodeInfo) : SameMark c (c.withBlock headerCodec info) :=
    ⟨rfl,rfl,rfl⟩
  unfold decodeBlock
  dsimp only
  split
  · exact (hblock _ _).trans (sameMark_noteUpgrade _)
  · exact hblock _ _
  · exact hblock _ _

lemma sameMark_parseHeadersDecodeFrames (parseURL : Bytes → Bool) (priority : Option HTTP2Priority)
    (ex : Option ExAttributes) : SameMark c (c.parseHeadersDecodeFrames parseURL priority ex).1 := by
  have h := sameMark_decodeBlock (c := c) parseURL priority ex
  unfold parseHeadersDecodeFrames
  generalize c.decodeBlock parseURL priority ex = r at h
  obtain ⟨d,(err | _) | _⟩ := r
  · exact ⟨h.header,h.pending,h.expected⟩
  · exact h
  · dsimp only
    cases d.blockError priority <;> exact h

lemma effect_deliverDeferredParseError (error : DeferredParseError) : Effect c (c.deliverDeferredParseError error) := by
  unfold deliverDeferredParseError
  dsimp only
  split_ifs
  · split
    · exact .quiet (.refl c) silent_streamError
    · exact .quiet ⟨rfl,rfl,rfl⟩ (silent_streamError.append silent_streamError)
  · exact .quiet (.refl c) (silent_deliver rfl)

lemma messageBegin_spec (stream : ℕ) (promised : Option ℕ) (ex : Option ExAttributes) (msg : Option HTTPMessage) :
    SameMark c (c.messageBegin stream promised ex msg).1 ∧ Silent (c.messageBegin stream promised ex msg).2.1 := by
  unfold messageBegin
  dsimp only
  split_ifs
  · exact ⟨.refl c,silent_deliver rfl⟩
  · exact ⟨.refl c,silent_deliver rfl⟩
  · exact ⟨⟨rfl,rfl,rfl⟩,silent_deliver rfl⟩
  · exact ⟨.refl c,silent_nil⟩

lemma concludes_deliverHeaders (trailers : Bool) (stream : ℕ) (msg : HTTPMessage) :
    Concludes c (c.deliverHeaders trailers stream msg) := by
  unfold deliverHeaders
  dsimp only
  generalize (if c.curHeader.endStream=true then msg else _ : HTTPMessage) = msg
  split_ifs
  · exact (Concludes.handleEndStream (.refl c)).prepend (silent_deliver rfl)
  · exact .failWith _ _
  · refine Concludes.prepend (silent_deliver rfl) (Concludes.handleEndStream ?_)
    exact ⟨rfl,rfl,rfl⟩

section
variable (parseURL : Bytes → Bool) (num : ℕ) (stream : ℕ) (promised : Option ℕ) (ex : Option ExAttributes)

lemma concludes_reportHeaders {block : Option (Except DeferredParseError HTTPMessage)}
    (hexceeds : c.exceedsConcurrentStreams num = false) (hblock : ∀ error,block≠some (.error error)) :
    Concludes c (c.reportHeaders num stream promised ex block) := by
  obtain ⟨hsame,hsilent⟩ := messageBegin_spec (c := c) stream promised ex (block.bind Except.toOption)
  unfold reportHeaders
  rw [if_neg (by simp [hexceeds])]
  obtain _ | error | msg := block
  · exact ((Concludes.handleEndStream (.refl _)).prepend hsilent).of_same hsame
  · exact absurd rfl (hblock error)
  · exact ((concludes_deliverHeaders _ _ msg).prepend hsilent).of_same hsame

lemma effect_reportHeaders (block : Option (Except DeferredParseError HTTPMessage)) :
    Effect c (c.reportHeaders num stream promised ex block) := by
  by_cases hexceeds : c.exceedsConcurrentStreams num = true
  · rw [reportHeaders,if_pos hexceeds]
    exact .quiet (.refl c) silent_streamError
  · obtain _ | error | msg := block
    · exact .concludes (concludes_reportHeaders _ _ _ _ (by simpa using hexceeds) (by simp))
    · obtain ⟨hsame,hsilent⟩ := messageBegin_spec (c := c) stream promised ex none
      rw [reportHeaders,if_neg hexceeds]
      exact ((effect_deliverDeferredParseError error).prepend hsilent).of_same hsame
    · exact .concludes (concludes_reportHeaders _ _ _ _ (by simpa using hexceeds) (by simp))

lemma effect_parseHeadersImpl (headerBuf : Bytes) (priority : Option HTTP2Priority) :
    Effect c (c.parseHeadersImpl parseURL num headerBuf priority promised ex) := by
  refine Effect.of_same (sameMark_appendBlock headerBuf promised ex) ?_
  unfold parseHeadersImpl
  dsimp only
  generalize c.appendBlock headerBuf promised ex = d
  have hdecode := sameMark_parseHeadersDecodeFrames (c := d) parseURL priority ex
  split_ifs
  · exact .concludes (.failed (by simp) silent_nil)
  · generalize d.parseHeadersDecodeFrames parseURL priority ex = r at hdecode
    obtain ⟨e,stop | error | msg⟩ := r
    · exact .concludes (.failed (by simp) silent_nil)
    · dsimp only
      split_ifs
      · exact .concludes (.fail _)
      · exact (effect_reportHeaders _ _ _ _ _).of_same hdecode
    · exact (effect_reportHeaders _ _ _ _ _).of_same hdecode
  · exact effect_reportHeaders _ _ _ _ _

end

section
variable (parseURL : Bytes → Bool) (num : ℕ)

/-- The block that a CONTINUATION frame completes ends in an error of its stream. -/
def endsInStreamError (c : HTTP2Codec) (payload : Bytes) : Bool :=
  c.curHeader.endHeaders &&
    match ((c.appendBlock payload none none).parseHeadersDecodeFrames parseURL none none).2 with
    | .ok (.error error) => !error.connectionError
    | _ => false

lemma exceedsConcurrentStreams_continuation (h : c.curHeader.type = .continuation) :
    c.exceedsConcurrentStreams num = false := by
  simp [exceedsConcurrentStreams,h]

lemma parseContinuation_eq (payload : Bytes) : c.parseContinuation parseURL num payload =
    if c.curHeader.stream=0 then c.fail .protocolError
    else c.parseHeadersImpl parseURL num payload none none none := by
  unfold parseContinuation HTTP2.parseContinuation
  split_ifs <;> rfl

/-- A CONTINUATION frame fails or reaches `handleEndStream`, unless its block is malformed. -/
lemma concludes_parseContinuation {payload : Bytes} (htype : c.curHeader.type = .continuation)
    (herror : c.endsInStreamError parseURL payload = false) :
    Concludes c (c.parseContinuation parseURL num payload) := by
  rw [parseContinuation_eq]
  split_ifs
  · exact .fail _
  have hsame := sameMark_appendBlock (c := c) payload none none
  refine Concludes.of_same hsame ?_
  unfold endsInStreamError at herror
  rw [← hsame.header] at htype herror
  unfold parseHeadersImpl
  dsimp only
  generalize c.appendBlock payload none none = d at htype herror
  have hdecode := sameMark_parseHeadersDecodeFrames (c := d) parseURL none none
  split_ifs with hcheck hend
  · exact .failed (by simp) silent_nil
  · rw [hend,Bool.true_and] at herror
    generalize d.parseHeadersDecodeFrames parseURL none none = r at hdecode herror
    obtain ⟨e,stop | error | msg⟩ := r
    · exact .failed (by simp) silent_nil
    · dsimp only
      rw [if_pos (by simpa using herror)]
      exact .fail _
    · have hexceeds := exceedsConcurrentStreams_continuation (c := e) num (hdecode.header ▸ htype)
      exact (concludes_reportHeaders _ _ _ _ hexceeds (by simp)).of_same hdecode
  · exact concludes_reportHeaders _ _ _ _ (exceedsConcurrentStreams_continuation num htype) (by simp)

end

lemma effect_parsePriority (payload : Bytes) : Effect c (c.parsePriority payload) := by
  refine Effect.returnIfError fun pri => ?_
  dsimp only
  split_ifs
  · exact .quiet (.refl c) silent_streamError
  · exact .quiet (.refl c) (silent_deliver rfl)

lemma effect_parseRstStream (payload : Bytes) : Effect c (c.parseRstStream payload) :=
  Effect.returnIfError fun _ => .quiet ⟨rfl,rfl,rfl⟩ (silent_deliver rfl)

lemma effect_handleSettings (settingsList settings : List Setting) : Effect c (handleSettings c settingsList settings) := by
  induction settings generalizing c settingsList with
  | nil => exact .quiet (.refl c) (silent_singleton rfl)
  | cons setting rest ih =>
    unfold handleSettings
    split
    · exact .failWith _ _
    · split_ifs
      · exact Effect.of_same (d := {c with ingressSettings := c.ingressSettings.setSetting setting.1 setting.2})
          ⟨rfl,rfl,rfl⟩ (ih _)
      · exact ih _

lemma effect_parseSettings (payload : Bytes) : Effect c (c.parseSettings payload) := by
  refine Effect.returnIfError fun settings => ?_
  split_ifs
  · refine .quiet ?_ (silent_singleton rfl)
    unfold handleSettingsAck
    dsimp only
    split <;> exact ⟨rfl,rfl,rfl⟩
  · exact effect_handleSettings _ _

lemma effect_parsePing (payload : Bytes) : Effect c (c.parsePing payload) := by
  refine Effect.returnIfError fun opaqueData => .quiet (.refl c) (silent_singleton ?_)
  split_ifs <;> rfl

lemma effect_parseGoaway (payload : Bytes) : Effect c (c.parseGoaway payload) := by
  refine Effect.returnIfError fun (lastGoodStream,statusCode,debugData) => ?_
  dsimp only
  split_ifs
  · exact .quiet ⟨rfl,rfl,rfl⟩ (silent_singleton rfl)
  · exact .quiet (.refl c) silent_nil

lemma effect_parseWindowUpdate (payload : Bytes) : Effect c (c.parseWindowUpdate payload) := by
  refine Effect.returnIfError fun delta => ?_
  dsimp only
  split_ifs
  · exact .failWith _ _
  · exact (Effect.failWith _ _).prepend silent_streamError
  · exact .quiet (.refl c) (silent_deliver rfl)

lemma effect_parseCertificateRequest (payload : Bytes) : Effect c (c.parseCertificateRequest payload) :=
  Effect.returnIfError fun _ => .quiet (.refl c) (silent_singleton rfl)

lemma effect_parseCertificate (payload : Bytes) : Effect c (c.parseCertificate payload) := by
  refine Effect.returnIfError fun (certId,authData) => ?_
  dsimp only
  split_ifs
  all_goals first
    | exact .concludes (.fail _)
    | exact .quiet ⟨rfl,rfl,rfl⟩ silent_nil
    | exact .quiet ⟨rfl,rfl,rfl⟩ (silent_singleton rfl)

lemma concludes_parseAllData (payload : Bytes) : Concludes c (c.parseAllData payload) := by
  refine Concludes.returnIfError fun (outData,padding) => ?_
  refine (Concludes.handleEndStream (.refl c)).prepend ?_
  split_ifs
  · exact silent_deliver rfl
  · exact silent_nil

section
variable (parseURL : Bytes → Bool) (num : ℕ)

lemma effect_parseHeaders (payload : Bytes) : Effect c (c.parseHeaders parseURL num payload) := by
  refine Effect.returnIfError fun (priority,headerBuf) => ?_
  dsimp only
  split_ifs
  · exact Effect.checkNewStream fun d => effect_parseHeadersImpl _ _ _ _ _ _
  · exact effect_parseHeadersImpl _ _ _ _ _ _

lemma effect_parseExHeaders (payload : Bytes) : Effect c (c.parseExHeaders parseURL num payload) := by
  refine Effect.returnIfError fun (exAttributes,priority,headerBuf) => ?_
  dsimp only
  split_ifs
  · exact Effect.checkNewStream fun d => effect_parseHeadersImpl _ _ _ _ _ _
  · exact effect_parseHeadersImpl _ _ _ _ _ _

lemma effect_parsePushPromise (payload : Bytes) : Effect c (c.parsePushPromise parseURL num payload) := by
  unfold parsePushPromise
  split_ifs
  · exact .failWith _ _
  · exact .failWith _ _
  · refine Effect.returnIfError fun (promisedStream,fragment) => ?_
    exact Effect.checkNewStream fun d => effect_parseHeadersImpl _ _ _ _ _ _

theorem effect_dispatch (payload : Bytes) : Effect c (c.dispatch parseURL num payload) := by
  unfold dispatch
  split
  · exact .concludes (concludes_parseAllData payload)
  · exact effect_parseHeaders _ _ payload
  · exact effect_parsePriority payload
  · exact effect_parseRstStream payload
  · exact effect_parseSettings payload
  · exact effect_parsePushPromise _ _ payload
  · split_ifs
    · exact effect_parseExHeaders _ _ payload
    · exact .quiet (.refl c) silent_nil
  · exact effect_parsePing payload
  · exact effect_parseGoaway payload
  · exact effect_parseWindowUpdate payload
  · exact Effect.returnIfError fun _ => effect_parseHeadersImpl _ _ _ _ _ _
  · exact effect_parseCertificateRequest payload
  · exact effect_parseCertificate payload
  · exact .quiet (.refl c) silent_nil
  · exact .quiet (.refl c) silent_nil

end

end HTTP2Codec

end QuicWestwood.HTTP2
