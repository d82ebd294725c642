import QuicWestwood.HeaderDecodeInfo
import QuicWestwood.HpackDecoder
import QuicWestwood.Http2Framer

/-! `HTTP2Codec` keeps one header block, one continuation mark and one end-of-stream mark for the whole
connection. Each parser of a frame returns the codec, the callbacks it has made and, if the connection is to be
closed, the error. -/
namespace QuicWestwood.HTTP2
open ByteCodec HTTP HPACK

inductive TransportDirection where
  | downstream
  | upstream
  deriving DecidableEq

inductive ClosingState where
  | open
  | openWithGracefulDrainEnabled
  | firstGoawaySent
  | closed
  deriving DecidableEq

inductive FrameState where
  | upstreamConnectionPreface
  | expectFirstSettings
  | frameHeader
  | frameData
  | dataFrameData
  deriving DecidableEq

/-- How a connection ends: with an error that is reported, or at a failed `CHECK`. -/
inductive Stop where
  | connectionError (code : ErrorCode)
  | checkFailed
  deriving DecidableEq

inductive Direction where
  | ingress
  | ingressAndEgress
  deriving DecidableEq

structure HTTPException where
  direction : Direction
  what : Bytes
  codecStatusCode : Option ErrorCode := none
  httpStatusCode : ℕ := 0
  partialMsg : Option HTTPMessage := none
  deriving DecidableEq

/-- The calls of `HTTPCodec::Callback`. -/
inductive Callback where
  | onFrameHeader (stream : ℕ) (flags : UInt8) (length : ℕ) (type : UInt8)
  | onMessageBegin (stream : ℕ) (msg : Option HTTPMessage)
  | onExMessageBegin (stream controlStream : ℕ) (unidirectional : Bool) (msg : Option HTTPMessage)
  | onPushMessageBegin (stream assocStream : ℕ) (msg : Option HTTPMessage)
  | onHeadersComplete (stream : ℕ) (msg : HTTPMessage)
  | onTrailersComplete (stream : ℕ) (trailers : List HPACKHeader)
  | onBody (stream : ℕ) (body : Bytes) (padding : ℕ)
  | onMessageComplete (stream : ℕ) (upgrade : Bool)
  | onError (stream : ℕ) (error : HTTPException) (newTxn : Bool)
  | onAbort (stream : ℕ) (code : ErrorCode)
  | onPriority (stream : ℕ) (priority : HTTP2Priority)
  | onWindowUpdate (stream delta : ℕ)
  | onSettings (settings : List Setting)
  | onSettingsAck
  | onPingRequest (data : Bytes)
  | onPingReply (data : Bytes)
  | onGoaway (lastGoodStream : ℕ) (code : ErrorCode) (debugData : Bytes)
  | onCertificateRequest (requestId : ℕ) (authRequest : Bytes)
  | onCertificate (certId : ℕ) (authenticator : Bytes)
  deriving DecidableEq

structure HTTP2Codec where
  transportDirection : TransportDirection
  nextEgressStreamID : ℕ
  lastStreamID : ℕ := 0
  ingressGoawayAck : ℕ := 2^32-1
  egressGoawayAck : ℕ := 2^32-1
  goawayErrorMessage : Bytes := []
  sessionClosing : ClosingState := .open
  headerCodec : HPACKDecoder
  curHeader : FrameHeader := ⟨0,0,.data,0⟩
  expectedContinuationStream : ℕ := 0
  promisedStream : Option ℕ := none
  parsingReq : Bool := false
  pendingEndStreamHandling : Bool := false
  ingressWebsocketUpgrade : Bool := false
  upgradedStreams : List ℕ := []
  curCertId : ℕ := 0
  curAuthenticatorBlock : Bytes := []
  curHeaderBlock : Bytes := []
  ingressSettings : HTTPSettings := [(.headerTableSize,4096),(.enablePush,1),(.maxFrameSize,16384)]
  egressSettings : HTTPSettings :=
    [(.headerTableSize,4096),(.enablePush,0),(.maxFrameSize,16384),(.maxHeaderListSize,2^17)]
  frameState : FrameState
  pendingDataFrameBytes : ℕ := 0
  pendingDataFramePaddingBytes : ℕ := 0
  decodeInfo : HeaderDecodeInfo := .init ⟨false,false,true,false,false⟩
  pendingTableMaxSize : Option ℕ := none
  parsingDownstreamTrailers : Bool := false
  validateHeaders : Bool := true
  strictValidation : Bool := false
  headerBlockFrameType : FrameType := .data

/-- What the parser of a frame returns; no `stop` is `NO_ERROR`. -/
structure Parsed where
  codec : HTTP2Codec
  calls : List Callback := []
  stop : Option Stop := none

namespace Parsed

def prepend (calls : List Callback) (p : Parsed) : Parsed := {p with calls := calls++p.calls}

end Parsed

namespace HTTP2Codec

def init (direction : TransportDirection) : HTTP2Codec where
  transportDirection := direction
  nextEgressStreamID := match direction with
    | .downstream => 2
    | .upstream => 1
  headerCodec := .init 4096 (2^17)
  frameState := match direction with
    | .downstream => .upstreamConnectionPreface
    | .upstream => .expectFirstSettings

def number (n : ℕ) : Bytes := ascii (toString n)

variable (c : HTTP2Codec)

/-! ## Streams -/

def isInitiatedStream (stream : ℕ) : Bool :=
  match c.transportDirection with
  | .upstream => stream % 2 = 1
  | .downstream => stream % 2 = 0

def isStreamIngressEgressAllowed (stream : ℕ) : Bool :=
  if c.isInitiatedStream stream then stream ≤ c.ingressGoawayAck else stream ≤ c.egressGoawayAck

def isRequest (stream : ℕ) : Bool :=
  match c.transportDirection with
  | .downstream => stream % 2 = 1
  | .upstream => stream % 2 = 0

/-- `deliverCallbackIfAllowed`: callbacks for streams beyond a GOAWAY are suppressed. -/
def deliver (stream : ℕ) (call : Callback) : List Callback :=
  if c.isStreamIngressEgressAllowed stream then [call] else []

def streamError (what : Bytes) (code : ErrorCode) (newTxn : Bool) (stream : ℕ) (partialMsg : Option HTTPMessage) :
    List Callback :=
  c.deliver stream (.onError stream ⟨.ingressAndEgress,what,some code,0,partialMsg⟩ newTxn)

def fail (code : ErrorCode) : Parsed := ⟨c,[],some (.connectionError code)⟩

def failWith (message : Bytes) (code : ErrorCode) : Parsed :=
  {c with goawayErrorMessage := message}.fail code

def returnIfError {α : Type} (r : Except ErrorCode α) (next : α → Parsed) : Parsed :=
  match r with
  | .error code => c.fail code
  | .ok a => next a

def invalidNewStream (streamId : ℕ) : Bytes :=
  ascii "GOAWAY error: received streamID=" ++ number streamId ++
    ascii " as invalid new stream for lastStreamID_=" ++ number c.lastStreamID

def recordStream (streamId : ℕ) (trailersAllowed : Bool) : HTTP2Codec :=
  let existingStream := decide (streamId ≤ c.lastStreamID)
  {c with
    parsingDownstreamTrailers := trailersAllowed && existingStream
    lastStreamID := if c.sessionClosing≠.closed ∧ !existingStream then streamId else c.lastStreamID}

def checkNewStream (streamId : ℕ) (trailersAllowed : Bool) (next : HTTP2Codec → Parsed) : Parsed :=
  if streamId=0 ∨ (!trailersAllowed && decide (streamId ≤ c.lastStreamID)) then
    c.failWith (c.invalidNewStream streamId) .protocolError
  else if c.isInitiatedStream streamId then
    (c.recordStream streamId trailersAllowed).failWith
      (ascii "GOAWAY error: invalid new stream received with streamID=" ++ number streamId) .protocolError
  else next (c.recordStream streamId trailersAllowed)

def parsingHeaders : Bool :=
  c.curHeader.type = .headers || (c.curHeader.type = .continuation && c.headerBlockFrameType = .headers)

/-- Trailers are told from headers by the position in the stream, or by the missing status. -/
def parsingTrailers : Bool :=
  c.parsingHeaders &&
    match c.transportDirection with
    | .downstream => c.parsingDownstreamTrailers
    | .upstream => c.decodeInfo.parsingError = [] && !c.decodeInfo.hasStatus

/-! ## The end of a stream -/

def endsStream : FrameType → Bool
  | .headers | .exHeaders | .continuation | .data => true
  | _ => false

def handleEndStream : Parsed :=
  if !endsStream c.curHeader.type then ⟨c,[],none⟩
  else
    let stream := c.curHeader.stream
    let pending := c.pendingEndStreamHandling || c.curHeader.endStream
    let upgraded := if c.ingressWebsocketUpgrade then c.deliver stream (.onMessageComplete stream true) else []
    let complete := pending && c.expectedContinuationStream = 0
    let completed := if complete then c.deliver stream (.onMessageComplete stream false) else []
    ⟨{c with ingressWebsocketUpgrade := false, pendingEndStreamHandling := pending && !complete},
      upgraded++completed,none⟩

/-! ## Header blocks -/

structure DeferredParseError where
  errorCode : ErrorCode
  connectionError : Bool
  errorMessage : Bytes
  partialMessage : Option HTTPMessage
  deriving DecidableEq

def decodeErrorNumber : DecodeError → ℕ
  | .invalidIndex => 1
  | .invalidHuffmanCode => 2
  | .invalidEncoding => 3
  | .integerOverflow => 4
  | .invalidTableSize => 5
  | .headersTooLarge => 6
  | .bufferUnderflow => 7
  | .literalTooLarge => 8
  | .timeout => 9
  | .encoderStreamClosed => 10
  | .badSequenceNumber => 11
  | .invalidAck => 12
  | .tooManyBlocking => 13
  | .insertTooLarge => 14

def decodeErrorMessage (err : DecodeError) : Bytes :=
  ascii "Failed decoding header block for stream=" ++ number c.curHeader.stream ++
    if err = .headersTooLarge then ascii ": headers too large"
    else ascii ": decompression error=" ++ number (decodeErrorNumber err)

/-- The websocket part of `HTTP2Codec::onHeadersComplete`. -/
def noteUpgrade : HTTP2Codec :=
  let info := c.decodeInfo
  let upgraded := info.withMsg {info.msg with ingressWebsocketUpgrade := true}
  if c.transportDirection = .downstream ∧ info.verifier.hasUpgradeProtocol ∧
      info.msg.upgradeProtocol = some (ascii "websocket") ∧ info.msg.getMethod = some .connect then
    {c with decodeInfo := upgraded, ingressWebsocketUpgrade := true}
  else if c.curHeader.stream ∈ c.upgradedStreams then
    {c with
      upgradedStreams := c.upgradedStreams.filter (·≠c.curHeader.stream)
      decodeInfo := if info.msg.statusCode=200 then upgraded else info}
  else c

/-- `decodeInfo_` before a block is decoded. -/
def blockInfo (priority : Option HTTP2Priority) (exAttributes : Option ExAttributes) : HeaderDecodeInfo :=
  let allowEmptyPath := exAttributes.any fun ex => ex.controlStream≠0
  let info := HeaderDecodeInfo.init
    ⟨c.parsingReq,c.parsingDownstreamTrailers,c.validateHeaders,c.strictValidation,allowEmptyPath⟩
  info.withMsg {info.msg with http2Priority := priority}

def withBlock (headerCodec : HPACKDecoder) (info : HeaderDecodeInfo) : HTTP2Codec :=
  {c with headerCodec := headerCodec, curHeaderBlock := [], decodeInfo := info}

section
variable (parseURL : Bytes → Bool)

/-- The decoding of `curHeaderBlock_`; the message is in `decodeInfo_`. -/
def decodeBlock (priority : Option HTTP2Priority) (exAttributes : Option ExAttributes) :
    HTTP2Codec × Except QPACK.Stop Unit :=
  let (headerCodec,fields,result) := c.headerCodec.decodeStreaming c.curHeaderBlock
  let info := (c.blockInfo priority exAttributes).onHeaders parseURL fields
  match result with
  | .ok size => ((c.withBlock headerCodec (info.onHeadersComplete size)).noteUpgrade,.ok ())
  | .error (.decodeError err) =>
    (c.withBlock headerCodec {info with decodeError := some err},.error (.decodeError err))
  | .error .checkFailed => (c.withBlock headerCodec info,.error .checkFailed)

def blockError (priority : Option HTTP2Priority) : Option DeferredParseError :=
  let stream := c.curHeader.stream
  if priority.any fun p => p.streamDependency = stream then
    some ⟨.protocolError,false,ascii "Circular dependency for txn=" ++ number stream,none⟩
  else if c.decodeInfo.parsingError≠[] then
    if c.transportDirection = .downstream ∧ c.parsingHeaders ∧ ¬c.parsingTrailers then
      some ⟨.noError,false,ascii "HTTP2Codec stream error: stream=" ++ number stream++ascii " status=" ++ number 400 ++
        ascii " error: " ++ c.decodeInfo.parsingError,some c.decodeInfo.msg⟩
    else
      some ⟨.protocolError,false,ascii "Field section parsing failed txn=" ++ number stream,some c.decodeInfo.msg⟩
  else none

def parseHeadersDecodeFrames (priority : Option HTTP2Priority) (exAttributes : Option ExAttributes) :
    HTTP2Codec × Except Stop (Except DeferredParseError HTTPMessage) :=
  match c.decodeBlock parseURL priority exAttributes with
  | (c,.error .checkFailed) => (c,.error .checkFailed)
  | (c,.error (.decodeError err)) =>
    ({c with goawayErrorMessage := c.decodeErrorMessage err},
      .ok (.error ⟨.compressionError,true,[],some c.decodeInfo.msg⟩))
  | (c,.ok ()) =>
    match c.blockError priority with
    | some error => (c,.ok (.error error))
    | none => (c,.ok (.ok c.decodeInfo.msg))

end

def deliverDeferredParseError (error : DeferredParseError) : Parsed :=
  let stream := c.curHeader.stream
  if error.errorCode≠.noError then
    let calls := c.streamError error.errorMessage error.errorCode c.parsingHeaders stream error.partialMessage
    match c.promisedStream with
    | none => ⟨c,calls,none⟩
    | some promised =>
      ⟨{c with promisedStream := none},
        calls++c.streamError (ascii "Malformed PUSH_PROMISE") .refusedStream false promised none,none⟩
  else
    ⟨c,c.deliver stream (.onError stream ⟨.ingress,error.errorMessage,none,400,error.partialMessage⟩ c.parsingHeaders),
      none⟩

def maxConcurrentStreams : ℕ := (c.egressSettings.getSetting .maxConcurrentStreams).getD (2^31-1)

def exceedsConcurrentStreams (numIncomingStreams : ℕ) : Bool :=
  !c.isInitiatedStream c.curHeader.stream && (c.curHeader.type = .headers || c.curHeader.type = .exHeaders) &&
    c.maxConcurrentStreams ≤ numIncomingStreams

def refuseStream : List Callback :=
  c.streamError (ascii "Exceeded max_concurrent_streams") .refusedStream true c.curHeader.stream none

def appendBlock (headerBuf : Bytes) (promisedStream : Option ℕ) (exAttributes : Option ExAttributes) : HTTP2Codec :=
  let c := {c with curHeaderBlock := c.curHeaderBlock++headerBuf}
  if c.curHeader.type = .continuation then c
  else
    {c with
      headerBlockFrameType := c.curHeader.type
      parsingReq :=
        if promisedStream.isSome then true
        else if exAttributes.isSome then c.isRequest c.curHeader.stream
        else c.transportDirection = .downstream}

def continuesPush : Bool := c.curHeader.type = .continuation && c.headerBlockFrameType = .pushPromise

/-- The stream of a header block: for a PUSH_PROMISE, the promised one. -/
def blockStream : ℕ := if c.continuesPush then c.promisedStream.getD 0 else c.curHeader.stream

/-- The first of the callbacks for a header block, with the stream that it is about. -/
def messageBegin (headersCompleteStream : ℕ) (promisedStream : Option ℕ) (exAttributes : Option ExAttributes)
    (msg : Option HTTPMessage) : HTTP2Codec × List Callback × ℕ :=
  let stream := c.curHeader.stream
  if c.curHeader.endHeaders ∧ c.headerBlockFrameType = .headers ∧ ¬c.parsingTrailers then
    (c,c.deliver stream (.onMessageBegin stream msg),headersCompleteStream)
  else if c.curHeader.type = .exHeaders then
    let ex := exAttributes.getD ⟨0,false⟩
    (c,c.deliver stream (.onExMessageBegin stream ex.controlStream ex.unidirectional msg),headersCompleteStream)
  else if c.curHeader.type = .pushPromise then
    let promised := promisedStream.getD 0
    ({c with promisedStream := some promised},c.deliver promised (.onPushMessageBegin promised stream msg),promised)
  else (c,[],headersCompleteStream)

def deliverHeaders (trailers : Bool) (headersCompleteStream : ℕ) (msg : HTTPMessage) : Parsed :=
  let stream := c.curHeader.stream
  let msg := if c.curHeader.endStream then msg else {msg with chunked := true}
  if trailers then
    c.handleEndStream.prepend (c.deliver headersCompleteStream (.onTrailersComplete headersCompleteStream msg.headers))
  else if c.transportDirection = .upstream ∧ stream % 2 = 1 ∧ c.nextEgressStreamID ≤ stream then
    c.failWith (ascii "HEADERS on idle upstream stream=" ++ number stream) .protocolError
  else
    {c with promisedStream := none}.handleEndStream.prepend
      (c.deliver headersCompleteStream (.onHeadersComplete headersCompleteStream msg))

/-- The rest of `parseHeadersImpl`; `block` is the decoded block if the frame completes it. -/
def reportHeaders (numIncomingStreams headersCompleteStream : ℕ) (promisedStream : Option ℕ)
    (exAttributes : Option ExAttributes) (block : Option (Except DeferredParseError HTTPMessage)) : Parsed :=
  if c.exceedsConcurrentStreams numIncomingStreams then ⟨c,c.refuseStream,none⟩
  else
    let trailers := c.parsingTrailers
    let (c,calls,headersCompleteStream) :=
      c.messageBegin headersCompleteStream promisedStream exAttributes (block.bind Except.toOption)
    match block with
    | none => c.handleEndStream.prepend calls
    | some (.error error) => (c.deliverDeferredParseError error).prepend calls
    | some (.ok msg) => (c.deliverHeaders trailers headersCompleteStream msg).prepend calls

section
variable (parseURL : Bytes → Bool) (numIncomingStreams : ℕ)

def parseHeadersImpl (headerBuf : Bytes) (priority : Option HTTP2Priority) (promisedStream : Option ℕ)
    (exAttributes : Option ExAttributes) : Parsed :=
  let c := c.appendBlock headerBuf promisedStream exAttributes
  if c.continuesPush ∧ c.promisedStream=none then ⟨c,[],some .checkFailed⟩
  else if c.curHeader.endHeaders then
    match c.parseHeadersDecodeFrames parseURL priority exAttributes with
    | (d,.error stop) => ⟨d,[],some stop⟩
    | (d,.ok (.error error)) =>
      if error.connectionError then d.fail error.errorCode
      else d.reportHeaders numIncomingStreams c.blockStream promisedStream exAttributes (some (.error error))
    | (d,.ok (.ok msg)) =>
      d.reportHeaders numIncomingStreams c.blockStream promisedStream exAttributes (some (.ok msg))
  else c.reportHeaders numIncomingStreams c.blockStream promisedStream exAttributes none

def parseHeaders (payload : Bytes) : Parsed :=
  c.returnIfError (HTTP2.parseHeaders c.curHeader payload) fun (priority,headerBuf) =>
    if c.transportDirection = .downstream then
      c.checkNewStream c.curHeader.stream true fun c =>
        c.parseHeadersImpl parseURL numIncomingStreams headerBuf priority none none
    else c.parseHeadersImpl parseURL numIncomingStreams headerBuf priority none none

def parseExHeaders (payload : Bytes) : Parsed :=
  c.returnIfError (HTTP2.parseExHeaders c.curHeader payload) fun (exAttributes,priority,headerBuf) =>
    if c.isRequest c.curHeader.stream then
      c.checkNewStream c.curHeader.stream false fun c =>
        c.parseHeadersImpl parseURL numIncomingStreams headerBuf priority none (some exAttributes)
    else c.parseHeadersImpl parseURL numIncomingStreams headerBuf priority none (some exAttributes)

def parseContinuation (payload : Bytes) : Parsed :=
  c.returnIfError (HTTP2.parseContinuation c.curHeader payload) fun headerBuf =>
    c.parseHeadersImpl parseURL numIncomingStreams headerBuf none none none

def parsePushPromise (payload : Bytes) : Parsed :=
  if c.transportDirection≠.upstream then
    c.failWith (ascii "Received PUSH_PROMISE on DOWNSTREAM codec") .protocolError
  else if c.egressSettings.getSetting .enablePush≠some 1 then
    c.failWith (ascii "Received PUSH_PROMISE on codec with push disabled") .protocolError
  else
    c.returnIfError (HTTP2.parsePushPromise c.curHeader payload) fun (promisedStream,headerBlockFragment) =>
      c.checkNewStream promisedStream false fun c =>
        c.parseHeadersImpl parseURL numIncomingStreams headerBlockFragment none (some promisedStream) none

end

/-! ## The other frames -/

def parseAllData (payload : Bytes) : Parsed :=
  c.returnIfError (parseData c.curHeader payload) fun (outData,padding) =>
    let calls :=
      if 0<padding ∨ outData≠[] then c.deliver c.curHeader.stream (.onBody c.curHeader.stream outData padding) else []
    c.handleEndStream.prepend calls

def parsePriority (payload : Bytes) : Parsed :=
  c.returnIfError (HTTP2.parsePriority c.curHeader payload) fun pri =>
    let stream := c.curHeader.stream
    if stream=pri.streamDependency then
      ⟨c,c.streamError (ascii "Circular dependency for txn=" ++ number stream) .protocolError false stream none,none⟩
    else ⟨c,c.deliver stream (.onPriority stream pri),none⟩

def parseRstStream (payload : Bytes) : Parsed :=
  let c := {c with upgradedStreams := c.upgradedStreams.filter (·≠c.curHeader.stream)}
  c.returnIfError (HTTP2.parseRstStream c.curHeader payload) fun statusCode =>
    ⟨c,c.deliver c.curHeader.stream (.onAbort c.curHeader.stream statusCode),none⟩

def handleSettingsAck : HTTP2Codec :=
  match c.pendingTableMaxSize with
  | some maxSize => {c with headerCodec := c.headerCodec.setHeaderTableMaxSize maxSize, pendingTableMaxSize := none}
  | none => c

def invalidSetting (name : Bytes) (value : ℕ) : Bytes :=
  ascii "GOAWAY error: " ++ name++number value++ascii " for streamID=" ++ number c.curHeader.stream

def settingError (setting : Setting) : Option Bytes :=
  match setting with
  | (.enablePush,value) =>
    if (value≠0 ∧ value≠1) ∨ (value=1 ∧ c.transportDirection = .upstream) then
      some (c.invalidSetting (ascii "ENABLE_PUSH invalid setting=") value)
    else none
  | (.initialWindowSize,value) =>
    if 2^31-1 < value then some (c.invalidSetting (ascii "INITIAL_WINDOW_SIZE invalid size=") value) else none
  | (.maxFrameSize,value) =>
    if value < 2^14 ∨ 2^24-1 < value then some (c.invalidSetting (ascii "MAX_FRAME_SIZE invalid size=") value)
    else none
  | (.enableExHeaders,value) =>
    if 0 < (c.egressSettings.getSetting .enableExHeaders).getD 0 ∧ value≠0 ∧ value≠1 then
      some (c.invalidSetting (ascii "invalid ENABLE_EX_HEADERS=") value)
    else none
  | (.enableConnectProtocol,value) =>
    if 1<value then some (c.invalidSetting (ascii "ENABLE_CONNECT_PROTOCOL invalid number=") value) else none
  | _ => none

def knownSetting (setting : Setting) : Bool :=
  match setting.1 with
  | .enableExHeaders => 0 < (c.egressSettings.getSetting .enableExHeaders).getD 0
  | .other _ => false
  | _ => true

/-- The loop of `handleSettings`, with the list for the callback. The table size of the encoder is
not part of this model. -/
def handleSettings : HTTP2Codec → List Setting → List Setting → Parsed
  | c, settingsList, [] => ⟨c,[.onSettings settingsList],none⟩
  | c, settingsList, setting::rest =>
    match c.settingError setting with
    | some message => c.failWith message .protocolError
    | none =>
      if c.knownSetting setting then
        handleSettings {c with ingressSettings := c.ingressSettings.setSetting setting.1 setting.2}
          (settingsList++[setting]) rest
      else handleSettings c settingsList rest

def parseSettings (payload : Bytes) : Parsed :=
  c.returnIfError (HTTP2.parseSettings c.curHeader payload) fun settings =>
    if c.curHeader.ack then ⟨c.handleSettingsAck,[.onSettingsAck],none⟩ else handleSettings c [] settings

def parsePing (payload : Bytes) : Parsed :=
  c.returnIfError (HTTP2.parsePing c.curHeader payload) fun opaqueData =>
    ⟨c,[if c.curHeader.ack then .onPingReply opaqueData else .onPingRequest opaqueData],none⟩

def parseGoaway (payload : Bytes) : Parsed :=
  c.returnIfError (HTTP2.parseGoaway c.curHeader payload) fun (lastGoodStream,statusCode,debugData) =>
    if lastGoodStream < c.ingressGoawayAck then
      ⟨{c with ingressGoawayAck := lastGoodStream},[.onGoaway lastGoodStream statusCode debugData],none⟩
    else ⟨c,[],none⟩

def parseWindowUpdate (payload : Bytes) : Parsed :=
  c.returnIfError (HTTP2.parseWindowUpdate c.curHeader payload) fun delta =>
    let stream := c.curHeader.stream
    if delta=0 then
      if stream=0 then
        c.failWith (ascii "GOAWAY error: invalid/0 length delta for streamID=" ++ number stream) .protocolError
      else
        let message := ascii "streamID=" ++ number stream++ascii " with window update delta=" ++ number delta
        (c.failWith message .protocolError).prepend (c.streamError message .protocolError false stream none)
    else ⟨c,c.deliver stream (.onWindowUpdate stream delta),none⟩

def parseCertificateRequest (payload : Bytes) : Parsed :=
  c.returnIfError (HTTP2.parseCertificateRequest c.curHeader payload) fun (requestId,authRequest) =>
    ⟨c,[.onCertificateRequest requestId authRequest],none⟩

def kMaxAuthenticatorBufSize : ℕ := 0x20000

def parseCertificate (payload : Bytes) : Parsed :=
  c.returnIfError (HTTP2.parseCertificate c.curHeader payload) fun (certId,authData) =>
    if c.curAuthenticatorBlock≠[] ∧ certId≠c.curCertId then c.fail .protocolError
    else
      let block := c.curAuthenticatorBlock++authData
      let c := {c with
        curCertId := if c.curAuthenticatorBlock=[] then certId else c.curCertId
        curAuthenticatorBlock := block}
      if kMaxAuthenticatorBufSize<block.length then c.fail .protocolError
      else if c.curHeader.toBeContinued then ⟨c,[],none⟩
      else ⟨{c with curAuthenticatorBlock := []},[.onCertificate certId block],none⟩

/-! ## Frames -/

def expectedContinuation : Bytes :=
  ascii "GOAWAY error: while expected CONTINUATION with stream=" ++ number c.expectedContinuationStream ++
    ascii ", received streamID=" ++ number c.curHeader.stream++ascii " of type=" ++ c.curHeader.type.text

section
variable (parseURL : Bytes → Bool) (numIncomingStreams : ℕ)

/-- The `switch` of `parseFrame`; other frames are skipped. -/
def dispatch (payload : Bytes) : Parsed :=
  match c.curHeader.type with
  | .data => c.parseAllData payload
  | .headers => c.parseHeaders parseURL numIncomingStreams payload
  | .priority => c.parsePriority payload
  | .rstStream => c.parseRstStream payload
  | .settings => c.parseSettings payload
  | .pushPromise => c.parsePushPromise parseURL numIncomingStreams payload
  | .exHeaders =>
    if (c.ingressSettings.getSetting .enableExHeaders).getD 0≠0 then
      c.parseExHeaders parseURL numIncomingStreams payload
    else ⟨c,[],none⟩
  | .ping => c.parsePing payload
  | .goaway => c.parseGoaway payload
  | .windowUpdate => c.parseWindowUpdate payload
  | .continuation => c.parseContinuation parseURL numIncomingStreams payload
  | .certificateRequest => c.parseCertificateRequest payload
  | .certificate => c.parseCertificate payload
  | .altsvc | .other _ => ⟨c,[],none⟩

/-- A header block that is not complete goes on with the next frame. -/
def expectContinuation : HTTP2Codec :=
  {c with
    expectedContinuationStream :=
      if c.curHeader.type.affectsCompression && !c.curHeader.endHeaders then c.curHeader.stream else 0}

def maxHeaderListSize : ℕ := (c.egressSettings.getSetting .maxHeaderListSize).getD 0

def parseFrame (payload : Bytes) : Parsed :=
  let h := c.curHeader
  if c.expectedContinuationStream≠0 ∧ (h.type≠.continuation ∨ c.expectedContinuationStream≠h.stream) then
    c.failWith c.expectedContinuation .protocolError
  else if c.expectedContinuationStream=0 ∧ h.type = .continuation then
    c.failWith (ascii "GOAWAY error: unexpected CONTINUATION received with streamID=" ++ number h.stream) .protocolError
  else if h.type.affectsCompression ∧ c.maxHeaderListSize < c.curHeaderBlock.length+h.length then
    c.failWith (ascii "Failing connection due to excessively large headers") .protocolError
  else c.expectContinuation.dispatch parseURL numIncomingStreams payload

end

end HTTP2Codec

end QuicWestwood.HTTP2
