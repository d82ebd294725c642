import QuicWestwood.HttpMessage

/-! The frame header and the parsers of the payloads. A parser is given the whole payload of its frame; only
DATA frames are also parsed in pieces. -/
namespace QuicWestwood.HTTP2
open ByteCodec HTTP

inductive ErrorCode where
  | noError | protocolError | internalError | flowControlError | settingsTimeout | streamClosed | frameSizeError
  | refusedStream | cancel | compressionError | connectError | enhanceYourCalm | inadequateSecurity | http11Required
  deriving DecidableEq

def errorCodes : List ErrorCode := [
  .noError,.protocolError,.internalError,.flowControlError,.settingsTimeout,.streamClosed,.frameSizeError,
  .refusedStream,.cancel,.compressionError,.connectError,.enhanceYourCalm,.inadequateSecurity,.http11Required]

inductive FrameType where
  | data | headers | priority | rstStream | settings | pushPromise | ping | goaway | windowUpdate | continuation
  | altsvc | exHeaders | certificateRequest | certificate
  | other (code : UInt8)
  deriving DecidableEq

namespace FrameType

def ofCode (code : UInt8) : FrameType :=
  match code.toNat with
  | 0 => data
  | 1 => headers
  | 2 => priority
  | 3 => rstStream
  | 4 => settings
  | 5 => pushPromise
  | 6 => ping
  | 7 => goaway
  | 8 => windowUpdate
  | 9 => continuation
  | 10 => altsvc
  | 0xfb => exHeaders
  | 0xf0 => certificateRequest
  | 0xf1 => certificate
  | _ => other code

def toCode : FrameType → UInt8
  | data => 0
  | headers => 1
  | priority => 2
  | rstStream => 3
  | settings => 4
  | pushPromise => 5
  | ping => 6
  | goaway => 7
  | windowUpdate => 8
  | continuation => 9
  | altsvc => 10
  | exHeaders => 0xfb
  | certificateRequest => 0xf0
  | certificate => 0xf1
  | other code => code

lemma toCode_ofCode (code : UInt8) : (ofCode code).toCode = code := by
  unfold ofCode
  split
  all_goals first
    | rfl
    | next h => exact (UInt8.toNat_inj.mp (h.trans rfl)).symm

/-- `getFrameTypeString`. -/
def text : FrameType → Bytes
  | data => ascii "DATA"
  | headers => ascii "HEADERS"
  | priority => ascii "PRIORITY"
  | rstStream => ascii "RST_STREAM"
  | settings => ascii "SETTINGS"
  | pushPromise => ascii "PUSH_PROMISE"
  | ping => ascii "PING"
  | goaway => ascii "GOAWAY"
  | windowUpdate => ascii "WINDOW_UPDATE"
  | continuation => ascii "CONTINUATION"
  | altsvc => ascii "ALTSVC"
  | certificateRequest => ascii "CERTIFICATE_REQUEST"
  | certificate => ascii "CERTIFICATE"
  | exHeaders | other _ => ascii "Unknown"

def affectsCompression (type : FrameType) : Bool := type = headers || type = pushPromise || type = continuation

end FrameType

structure FrameHeader where
  length : ℕ
  stream : ℕ
  type : FrameType
  flags : UInt8
  deriving DecidableEq

namespace FrameHeader

def endStream (h : FrameHeader) : Bool := h.flags &&& 0x1 != 0

def ack (h : FrameHeader) : Bool := h.flags &&& 0x1 != 0

def toBeContinued (h : FrameHeader) : Bool := h.flags &&& 0x1 != 0

def endHeaders (h : FrameHeader) : Bool := h.flags &&& 0x4 != 0

/-- `frameHasPadding`. -/
def padded (h : FrameHeader) : Bool := h.flags &&& 0x8 != 0

def hasPriority (h : FrameHeader) : Bool := h.flags &&& 0x20 != 0

def unidirectional (h : FrameHeader) : Bool := h.flags &&& 0x40 != 0

end FrameHeader

def kFrameHeaderSize : ℕ := 9

def kConnectionPreface : Bytes := ascii "PRI * HTTP/2.0\x0d\x0a\x0d\x0aSM\x0d\x0a\x0d\x0a"

def parseUint31 (bytes : Bytes) : ℕ := ofBigEndian (bytes.take 4) % 2^31

def parseFrameHeader (bytes : Bytes) : FrameHeader where
  length := ofBigEndian (bytes.take 3)
  type := .ofCode (bytes.getD 3 0)
  flags := bytes.getD 4 0
  stream := parseUint31 (bytes.drop 5)

/-! ## Payloads -/

section
variable (header : FrameHeader) (payload : Bytes)

/-- The length of the padding, what is left to parse before it, and the bytes behind the length
byte. -/
def parsePadding : Except ErrorCode (ℕ × ℕ × Bytes) :=
  if header.padded then
    if header.length<1 then .error .frameSizeError
    else
      let padding := (payload.headD 0).toNat
      if header.length-1 < padding then .error .protocolError
      else .ok (padding,header.length-1-padding,payload.drop 1)
  else .ok (0,header.length,payload)

def skipPadding (bytes : Bytes) (length : ℕ) : Except ErrorCode Unit :=
  if (bytes.take length).all (· = 0) then .ok () else .error .protocolError

/-- The body of the frame and the bytes of padding that count against flow control. -/
def parseData : Except ErrorCode (Bytes × ℕ) := do
  if header.stream=0 then throw .protocolError
  let (padding,lefttoparse,rest) ← parsePadding header payload
  skipPadding (rest.drop lefttoparse) padding
  return (rest.take lefttoparse,padding+if header.padded then 1 else 0)

def parseDataBegin : Except ErrorCode ℕ := do
  let (padding,_,_) ← parsePadding header payload
  return padding+if header.padded then 1 else 0

def parsePriorityCommon (bytes : Bytes) : HTTP2Priority where
  streamDependency := ofBigEndian (bytes.take 4) % 2^31
  exclusive := 2^31 ≤ ofBigEndian (bytes.take 4)
  weight := (bytes.getD 4 0).toNat

/-- The optional priority in front of a header block. -/
def parseOptionalPriority (lefttoparse : ℕ) (bytes : Bytes) : Except ErrorCode (Option HTTP2Priority × ℕ × Bytes) :=
  if header.hasPriority then
    if lefttoparse<5 then .error .frameSizeError
    else .ok (some (parsePriorityCommon bytes),lefttoparse-5,bytes.drop 5)
  else .ok (none,lefttoparse,bytes)

def parseHeaders : Except ErrorCode (Option HTTP2Priority × Bytes) := do
  if header.stream=0 then throw .protocolError
  let (padding,lefttoparse,rest) ← parsePadding header payload
  let (priority,lefttoparse,rest) ← parseOptionalPriority header lefttoparse rest
  skipPadding (rest.drop lefttoparse) padding
  return (priority,rest.take lefttoparse)

structure ExAttributes where
  controlStream : ℕ
  unidirectional : Bool
  deriving DecidableEq

def parseExHeaders : Except ErrorCode (ExAttributes × Option HTTP2Priority × Bytes) := do
  if header.stream=0 then throw .protocolError
  let (padding,lefttoparse,rest) ← parsePadding header payload
  let (priority,lefttoparse,rest) ← parseOptionalPriority header lefttoparse rest
  if lefttoparse<4 then throw .frameSizeError
  let controlStream := parseUint31 rest
  if controlStream % 2 = 0 then throw .protocolError
  let rest := rest.drop 4
  skipPadding (rest.drop (lefttoparse-4)) padding
  return (⟨controlStream,header.unidirectional⟩,priority,rest.take (lefttoparse-4))

def parsePriority : Except ErrorCode HTTP2Priority := do
  if header.length≠5 then throw .frameSizeError
  if header.stream=0 then throw .protocolError
  return parsePriorityCommon payload

def parseErrorCode (bytes : Bytes) : Except ErrorCode ErrorCode :=
  match errorCodes[ofBigEndian (bytes.take 4)]? with
  | some code => .ok code
  | none => .error .protocolError

def parseRstStream : Except ErrorCode ErrorCode := do
  if header.length≠4 then throw .frameSizeError
  if header.stream=0 then throw .protocolError
  parseErrorCode payload

inductive SettingsId where
  | headerTableSize | enablePush | maxConcurrentStreams | initialWindowSize | maxFrameSize | maxHeaderListSize
  | enableConnectProtocol | thriftChannelIdDeprecated | enableExHeaders | thriftChannelId | settingsHttpCertAuth
  | other (id : ℕ)
  deriving DecidableEq

def SettingsId.ofNat : ℕ → SettingsId
  | 1 => headerTableSize
  | 2 => enablePush
  | 3 => maxConcurrentStreams
  | 4 => initialWindowSize
  | 5 => maxFrameSize
  | 6 => maxHeaderListSize
  | 8 => enableConnectProtocol
  | 100 => thriftChannelIdDeprecated
  | 0xfbfb => enableExHeaders
  | 0xf100 => thriftChannelId
  | 0xff00 => settingsHttpCertAuth
  | id => other id

abbrev Setting := SettingsId × ℕ

def settingPairs : ℕ → Bytes → List Setting
  | 0, _ => []
  | n+1, bytes =>
    (.ofNat (ofBigEndian (bytes.take 2)),ofBigEndian ((bytes.drop 2).take 4))::settingPairs n (bytes.drop 6)

def parseSettings : Except ErrorCode (List Setting) := do
  if header.stream≠0 then throw .protocolError
  if header.ack then
    if header.length≠0 then throw .frameSizeError
    return []
  if header.length % 6≠0 then throw .frameSizeError
  return settingPairs (header.length/6) payload

def parsePushPromise : Except ErrorCode (ℕ × Bytes) := do
  if header.stream=0 then throw .protocolError
  let (padding,lefttoparse,rest) ← parsePadding header payload
  if lefttoparse<4 then throw .frameSizeError
  let promisedStream := parseUint31 rest
  if promisedStream=0 ∨ promisedStream % 2 = 1 then throw .protocolError
  if lefttoparse-4 < padding then throw .protocolError
  let rest := rest.drop 4
  skipPadding (rest.drop (lefttoparse-4)) padding
  return (promisedStream,rest.take (lefttoparse-4))

def parsePing : Except ErrorCode Bytes := do
  if header.length≠8 then throw .frameSizeError
  if header.stream≠0 then throw .protocolError
  return payload.take 8

def parseGoaway : Except ErrorCode (ℕ × ErrorCode × Bytes) := do
  if header.length<8 then throw .frameSizeError
  if header.stream≠0 then throw .protocolError
  let code ← parseErrorCode (payload.drop 4)
  return (parseUint31 payload,code,payload.drop 8)

def parseWindowUpdate : Except ErrorCode ℕ := do
  if header.length≠4 then throw .frameSizeError
  return parseUint31 payload

def parseContinuation : Except ErrorCode Bytes := do
  if header.stream=0 then throw .protocolError
  return payload

/-- `parseCertificateRequest` and `parseCertificate` have the same layout: a 16-bit id and data. -/
def parseIdAndData : Except ErrorCode (ℕ × Bytes) := do
  if header.length<2 then throw .frameSizeError
  if header.stream≠0 then throw .protocolError
  return (ofBigEndian (payload.take 2),payload.drop 2)

def parseCertificateRequest : Except ErrorCode (ℕ × Bytes) := parseIdAndData header payload

def parseCertificate : Except ErrorCode (ℕ × Bytes) := parseIdAndData header payload

end

/-! ## Settings -/

abbrev HTTPSettings := List Setting

namespace HTTPSettings

def getSetting (settings : HTTPSettings) (id : SettingsId) : Option ℕ :=
  (settings.find? fun setting => setting.1 = id).map (·.2)

def setSetting (settings : HTTPSettings) (id : SettingsId) (value : ℕ) : HTTPSettings :=
  if settings.any fun setting => setting.1 = id then
    settings.map fun setting => if setting.1=id then (id,value) else setting
  else settings++[(id,value)]

end HTTPSettings

end QuicWestwood.HTTP2
