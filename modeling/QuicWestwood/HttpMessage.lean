import QuicWestwood.HeaderStatic
import QuicWestwood.HpackLiteral

/-! The parts of `HTTPMessage` that header decoding fills in, the codes of the header names it treats specially,
and the checks of `CodecUtil` on names and values. -/
namespace QuicWestwood.HTTP
open ByteCodec

/-! ## Conversions from text to numbers -/

def isSpace (c : UInt8) : Bool := c = 32 || (9 ≤ c && c ≤ 13)

def isDigit (c : UInt8) : Bool := 48 ≤ c && c ≤ 57

def digitsValue (digits : Bytes) : ℕ := digits.foldl (fun n c => 10*n+(c.toNat-48)) 0

/-- `folly::tryTo` for an unsigned type: digits with blanks around them, below `bound`. -/
def tryToUnsigned (bound : ℕ) (text : Bytes) : Option ℕ :=
  let start := text.dropWhile isSpace
  let digits := start.takeWhile isDigit
  if digits=[] then none
  else if bound ≤ digitsValue digits then none
  else if (start.dropWhile isDigit).all isSpace then some (digitsValue digits)
  else none

def tryToUint32 (text : Bytes) : Option ℕ := tryToUnsigned (2^32) text

/-- `folly::tryTo<int32_t>`: a sign may precede the digits. -/
def tryToInt32 (text : Bytes) : Option ℤ :=
  match text.dropWhile isSpace with
  | [] => none
  | c::rest =>
    if c=45 then
      if rest.head?.any isDigit then (tryToUnsigned (2^31+1) rest).map fun n => -n else none
    else if c=43 then
      if rest.head?.any isDigit then (tryToUnsigned (2^31) rest).map Int.ofNat else none
    else (tryToUnsigned (2^31) (c::rest)).map Int.ofNat

/-! ## Checks of names and values -/

namespace CodecUtil

def isAlpha (c : UInt8) : Bool := 97 ≤ (c ||| 32) && (c ||| 32) < 123

def validateMethod (method : Bytes) : Bool :=
  match method with
  | [] => true
  | c::rest => isAlpha c && rest.all fun c => c = 45 || isAlpha c

def validateScheme (scheme : Bytes) : Bool := scheme.all isAlpha

inductive URLValidateMode where
  | strictCompat
  | strict
  deriving DecidableEq

def validateURL (mode : URLValidateMode) (url : Bytes) : Bool :=
  url.all fun c => !(c ≤ 32 || c = 127 || (127 < c && mode != .strictCompat))

/-- `http_tokens`: letters map to lower case, four characters of an older grammar to 1, what is
no token character to 0. -/
def httpToken (c : UInt8) : UInt8 :=
  if c=32 ∨ c=34 ∨ c=47 ∨ c=125 then 1
  else if 65 ≤ c ∧ c≤90 then c+32
  else if (97 ≤ c ∧ c≤122) ∨ isDigit c ∨ c ∈ ascii "!#$%&'*+-.^_`|~" then c
  else 0

inductive HeaderNameValidationMode where
  | strictCompat
  | strict
  deriving DecidableEq

def validateHeaderName (mode : HeaderNameValidationMode) (name : Bytes) : Bool :=
  name != [] && name.all fun c =>
    match mode with
    | .strictCompat => !(c < 128 && httpToken c = 0)
    | .strict => c < 128 && httpToken c = c

inductive CtlEscapeMode where
  | compliant
  | strictCompat
  | strict
  deriving DecidableEq

/-- The part of a line break that `validateHeaderValue` is in. -/
inductive Lws where
  | none
  | expectNl
  | expectWs1
  | expectWs2
  deriving DecidableEq

/-- A character outside a line break; `none` if it is forbidden. -/
def valueChar (mode : CtlEscapeMode) (quote : Bool) (c : UInt8) : Option (Bool × Bool × Lws) :=
  if c=92 then some (quote,quote,.none)
  else if c=34 then some (false,!quote,.none)
  else if c=13 then some (false,quote,.expectNl)
  else if (c<32 ∧ c≠9) ∨ c=127 ∨ (127 < c ∧ mode = .strict) then none
  else some (false,quote,.none)

def validateLoop (mode : CtlEscapeMode) : Bool → Bool → Lws → Bytes → Bool
  | escape, _, state, [] => !escape && (state = .none || state = .expectWs2)
  | escape, quote, state, c::rest =>
    if escape ∧ mode = .compliant then validateLoop mode false quote state rest
    else
      match state with
      | .expectNl => c = 10 && validateLoop mode false quote .expectWs1 rest
      | .expectWs1 => (c = 32 || c = 9) && validateLoop mode false quote .expectWs2 rest
      | state =>
        if state = .expectWs2 ∧ (c=32 ∨ c=9) then validateLoop mode false quote .expectWs2 rest
        else
          match valueChar mode quote c with
          | none => false
          | some (escape,quote,state) => validateLoop mode escape quote state rest

def validateHeaderValue (mode : CtlEscapeMode) (value : Bytes) : Bool :=
  validateLoop mode false false .none value

end CodecUtil

/-! ## Methods and header codes -/

inductive HTTPMethod where
  | get | post | options | delete | head | connect | connectUdp | put | trace | patch | sub | pub | unsub
  deriving DecidableEq

def methodStrings : List (String × HTTPMethod) := [
  ("GET",.get),("POST",.post),("OPTIONS",.options),("DELETE",.delete),("HEAD",.head),
  ("CONNECT",.connect),("CONNECT-UDP",.connectUdp),("PUT",.put),("TRACE",.trace),("PATCH",.patch),
  ("SUB",.sub),("PUB",.pub),("UNSUB",.unsub)]

def caseInsensitiveEqual (s t : Bytes) : Bool := HPACK.headerName s = HPACK.headerName t

def stringToMethod (method : Bytes) : Option HTTPMethod :=
  (methodStrings.find? fun entry => caseInsensitiveEqual (ascii entry.1) method).map (·.2)

/-- The codes that header decoding tells apart; `common` is any other name of the table. -/
inductive HTTPHeaderCode where
  | colonMethod | colonScheme | colonAuthority | colonPath | colonProtocol | colonStatus
  | connection | contentLength | cookie | host
  | common
  | other
  deriving DecidableEq

def distinguishedHeaders : List (String × HTTPHeaderCode) := [
  (":method",.colonMethod),(":scheme",.colonScheme),(":authority",.colonAuthority),
  (":path",.colonPath),(":protocol",.colonProtocol),(":status",.colonStatus),
  ("connection",.connection),("content-length",.contentLength),("cookie",.cookie),("host",.host)]

/-- The remaining lines of `HTTPCommonHeaders.txt`. -/
def commonHeaders : List String := [
  "accept","accept-charset","accept-encoding","accept-language","accept-ranges",
  "access-control-allow-credentials","access-control-allow-headers","access-control-allow-methods",
  "access-control-allow-origin","access-control-expose-headers","access-control-max-age",
  "access-control-request-headers","access-control-request-method","age","alt-svc","authorization",
  "cache-control","client_timeout","content-digest","content-disposition","content-encoding",
  "content-language","content-range","content-security-policy","content-type",
  "cross-origin-embedder-policy-report-only","cross-origin-opener-policy",
  "cross-origin-resource-policy","date","document-policy","edge-control","etag","expect","expires",
  "facebook-api-version","if-modified-since","if-none-match","keep-alive","last-modified","link",
  "location","origin","origin-trial","permissions-policy","pragma","priority","proxy-authenticate",
  "proxy-authorization","proxy-connection","proxy-status","queue_timeout","range","referer",
  "report-to","retry-after","rpckind","sec-websocket-key","sec-websocket-accept","server",
  "set-cookie","strict-transport-security","te","thrift_priority","timing-allow-origin","trailer",
  "transfer-encoding","upgrade","user-agent","vary","via","www-authenticate",
  "x-content-type-options","x-forwarded-for","x-forwarded-proto","x-frame-options",
  "x-thrift-protocol","x-xss-protection"]

/-- `HPACKHeaderName::getHeaderCode`; names are stored in lower case. -/
def headerCode (name : Bytes) : HTTPHeaderCode :=
  match distinguishedHeaders.find? fun entry => ascii entry.1 = name with
  | some entry => entry.2
  | none => if name ∈ commonHeaders.map ascii then .common else .other

/-! ## Messages -/

/-- `Request::method_`: unset, a known method, or an unknown one in upper case. -/
inductive StoredMethod where
  | blank
  | unknown (method : Bytes)
  | known (method : HTTPMethod)
  deriving DecidableEq

inductive Scheme where
  | http
  | https
  | masque
  deriving DecidableEq

structure HTTPHeaderSize where
  compressed : ℕ
  compressedBlock : ℕ
  uncompressed : ℕ
  deriving DecidableEq

structure HTTP2Priority where
  streamDependency : ℕ
  exclusive : Bool
  weight : ℕ
  deriving DecidableEq

structure HTTPMessage where
  method : StoredMethod := .blank
  url : Bytes := []
  scheme : Scheme := .http
  upgradeProtocol : Option Bytes := none
  statusCode : ℕ := 0
  headers : List HPACKHeader := []
  http2Priority : Option HTTP2Priority := none
  version : ℕ × ℕ := (1,0)
  ingressHeaderSize : HTTPHeaderSize := ⟨0,0,0⟩
  ingressWebsocketUpgrade : Bool := false
  chunked : Bool := false
  deriving DecidableEq

namespace HTTPMessage

def toUpperAscii (byte : UInt8) : UInt8 := if 97≤byte ∧ byte≤122 then byte-32 else byte

def setMethod (msg : HTTPMessage) (method : Bytes) : HTTPMessage :=
  match stringToMethod method with
  | some known => {msg with method := .known known}
  | none => {msg with method := .unknown (method.map toUpperAscii)}

def getMethod (msg : HTTPMessage) : Option HTTPMethod :=
  match msg.method with
  | .known method => some method
  | _ => none

def setScheme (msg : HTTPMessage) (scheme : Bytes) : HTTPMessage :=
  if scheme = ascii "https" then
    {msg with scheme := if msg.scheme = .masque then .masque else .https}
  else if scheme = ascii "masque" then {msg with scheme := .masque}
  else msg

def addHeader (msg : HTTPMessage) (header : HPACKHeader) : HTTPMessage :=
  {msg with headers := msg.headers++[header]}

def valuesOf (msg : HTTPMessage) (code : HTTPHeaderCode) : List Bytes :=
  (msg.headers.filter fun header => headerCode header.name = code).map (·.value)

def getSingleOrEmpty (msg : HTTPMessage) (code : HTTPHeaderCode) : Bytes :=
  match msg.valuesOf code with
  | [value] => value
  | _ => []

/-- `HTTPHeaders::combine`; the separator follows only what is not empty. -/
def combine (msg : HTTPMessage) (code : HTTPHeaderCode) (separator : Bytes) : Bytes :=
  (msg.valuesOf code).foldl (fun combined value => if combined=[] then value else combined++separator++value) []

/-- Several cookie headers become one, behind the others. -/
def combineCookies (msg : HTTPMessage) : HTTPMessage :=
  let combined := msg.combine .cookie (ascii "; ")
  if combined=[] then msg
  else
    {msg with
      headers := msg.headers.filter (fun header => headerCode header.name≠.cookie)++[⟨ascii "cookie",combined⟩]}

section
variable (msg : HTTPMessage)

@[simp] lemma valuesOf_setMethod (method : Bytes) (code : HTTPHeaderCode) :
    (msg.setMethod method).valuesOf code = msg.valuesOf code := by
  unfold setMethod
  split <;> rfl

@[simp] lemma valuesOf_setScheme (scheme : Bytes) (code : HTTPHeaderCode) :
    (msg.setScheme scheme).valuesOf code = msg.valuesOf code := by
  unfold setScheme
  split_ifs <;> rfl

lemma valuesOf_addHeader (header : HPACKHeader) (code : HTTPHeaderCode) :
    (msg.addHeader header).valuesOf code =
      msg.valuesOf code++if headerCode header.name = code then [header.value] else [] := by
  by_cases h : headerCode header.name = code <;> simp [valuesOf,addHeader,h]

@[simp] lemma getMethod_setMethod (method : Bytes) : (msg.setMethod method).getMethod = stringToMethod method := by
  cases h : stringToMethod method <;> simp [setMethod,getMethod,h]

@[simp] lemma getMethod_setScheme (scheme : Bytes) : (msg.setScheme scheme).getMethod = msg.getMethod := by
  unfold setScheme
  split_ifs <;> rfl

@[simp] lemma getMethod_addHeader (header : HPACKHeader) : (msg.addHeader header).getMethod = msg.getMethod := rfl

@[simp] lemma getMethod_combineCookies : msg.combineCookies.getMethod=msg.getMethod := by
  unfold combineCookies
  simp only
  split_ifs <;> rfl

end

end HTTPMessage

end QuicWestwood.HTTP
