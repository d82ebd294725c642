import QuicWestwood.HttpMessage

/-! `HeaderDecodeInfo` receives the fields of one header block one by one. Pseudo-headers of a request go to
`HTTPRequestVerifier`, which keeps an error of its own that only the end of the block looks at. -/
namespace QuicWestwood.HTTP
open ByteCodec CodecUtil

/-- The verifier and the message it fills, which it shares with `HeaderDecodeInfo`. -/
structure HTTPRequestVerifier where
  msg : HTTPMessage := {}
  error : Bytes := []
  hasMethod : Bool := false
  hasPath : Bool := false
  hasScheme : Bool := false
  hasAuthority : Bool := false
  hasUpgradeProtocol : Bool := false
  deriving DecidableEq

namespace HTTPRequestVerifier

def refuse (v : HTTPRequestVerifier) (error : Bytes) : Bool × HTTPRequestVerifier := (false,{v with error := error})

def setMethod (v : HTTPRequestVerifier) (method : Bytes) : Bool × HTTPRequestVerifier :=
  if v.hasMethod then v.refuse (ascii "Duplicate method")
  else if !validateMethod method then v.refuse (ascii "Invalid method: " ++ method)
  else (true,{v with hasMethod := true, msg := v.msg.setMethod method})

/-- `parseURL` is the verdict of `ParseURL` in strict mode. -/
def setPath (parseURL : Bytes → Bool) (v : HTTPRequestVerifier) (path : Bytes) (strictValidation allowEmptyPath : Bool) :
    Bool × HTTPRequestVerifier :=
  if v.hasPath then v.refuse (ascii "Duplicate path")
  else if !validateURL (if strictValidation then .strict else .strictCompat) path then
    v.refuse (ascii "Invalid url: " ++ path)
  else
    let v := {v with hasPath := true, msg := {v.msg with url := path}}
    let strictValidation := strictValidation && !(allowEmptyPath && path = [])
    if strictValidation && !parseURL path then v.refuse (ascii "Invalid url: " ++ path)
    else (true,v)

def setScheme (v : HTTPRequestVerifier) (scheme : Bytes) : Bool × HTTPRequestVerifier :=
  if v.hasScheme then v.refuse (ascii "Duplicate scheme")
  else if !validateScheme scheme then v.refuse (ascii "Invalid scheme: " ++ scheme)
  else (true,{v with hasScheme := true, msg := v.msg.setScheme scheme})

def setAuthority (v : HTTPRequestVerifier) (authority : Bytes) (validate strictValidation : Bool) :
    Bool × HTTPRequestVerifier :=
  if v.hasAuthority then v.refuse (ascii "Duplicate authority")
  else if validate && !validateHeaderValue (if strictValidation then .strict else .strictCompat) authority then
    v.refuse (ascii "Invalid authority: " ++ authority)
  else (true,{v with hasAuthority := true, msg := v.msg.addHeader ⟨ascii "host",authority⟩})

def setUpgradeProtocol (v : HTTPRequestVerifier) (protocol : Bytes) (strictValidation : Bool) :
    Bool × HTTPRequestVerifier :=
  if v.hasUpgradeProtocol then v.refuse (ascii "Duplicate protocol")
  else if strictValidation && !validateHeaderValue .strict protocol then
    v.refuse (ascii "Invalid protocol: " ++ protocol)
  else (true,{v with hasUpgradeProtocol := true, msg := {v.msg with upgradeProtocol := some protocol}})

/-- The five flags as the error texts print them. -/
def presence (v : HTTPRequestVerifier) : Bytes :=
  [v.hasMethod,v.hasAuthority,v.hasScheme,v.hasPath,v.hasUpgradeProtocol].map fun b => if b then 49 else 48

def malformedConnect (v : HTTPRequestVerifier) : Bool :=
  (!v.hasUpgradeProtocol && (!v.hasMethod || !v.hasAuthority || v.hasScheme || v.hasPath)) ||
    (v.hasUpgradeProtocol && (!v.hasScheme || !v.hasPath))

def malformedRequest (v : HTTPRequestVerifier) : Bool :=
  v.hasUpgradeProtocol || !v.hasMethod || !v.hasScheme || !v.hasPath

def validate (v : HTTPRequestVerifier) : Bool × HTTPRequestVerifier :=
  if v.error≠[] then (false,v)
  else if v.msg.getMethod = some .connect then
    if v.malformedConnect then v.refuse (ascii "Malformed CONNECT request m/a/s/pa/pr=" ++ v.presence) else (true,v)
  else if v.malformedRequest then v.refuse (ascii "Malformed request m/a/s/pa/pr=" ++ v.presence)
  else (true,v)

end HTTPRequestVerifier

/-- The arguments of `HeaderDecodeInfo::init`. -/
structure DecodeSettings where
  isRequest : Bool
  isRequestTrailers : Bool
  validate : Bool
  strictValidation : Bool
  allowEmptyPath : Bool
  deriving DecidableEq

structure HeaderDecodeInfo where
  settings : DecodeSettings
  verifier : HTTPRequestVerifier := {}
  parsingError : Bytes := []
  headerErrorValue : Bytes := []
  decodeError : Option HPACK.DecodeError := none
  hasStatus : Bool := false
  regularHeaderSeen : Bool := false
  pseudoHeaderSeen : Bool := false
  contentLength : Option ℕ := none
  deriving DecidableEq

namespace HeaderDecodeInfo

def init (settings : DecodeSettings) : HeaderDecodeInfo := {settings := settings}

def msg (info : HeaderDecodeInfo) : HTTPMessage := info.verifier.msg

def withVerifier (info : HeaderDecodeInfo) (v : HTTPRequestVerifier) : HeaderDecodeInfo := {info with verifier := v}

def withMsg (info : HeaderDecodeInfo) (msg : HTTPMessage) : HeaderDecodeInfo :=
  info.withVerifier {info.verifier with msg := msg}

def withContentLength (info : HeaderDecodeInfo) (cl : ℕ) : HeaderDecodeInfo := {info with contentLength := some cl}

def sawRegularHeader (info : HeaderDecodeInfo) : HeaderDecodeInfo := {info with regularHeaderSeen := true}

def sawPseudoHeader (info : HeaderDecodeInfo) : HeaderDecodeInfo := {info with pseudoHeaderSeen := true}

def reject (info : HeaderDecodeInfo) (error : Bytes) : Bool × HeaderDecodeInfo :=
  (false,{info with parsingError := error})

def startsWithColon (name : Bytes) : Bool := name.head? = some 58

section
variable (parseURL : Bytes → Bool)

def onRequestPseudoHeader (info : HeaderDecodeInfo) (field : HPACKHeader) : Bool × HeaderDecodeInfo :=
  let strict := info.settings.strictValidation
  let taken :=
    match headerCode field.name with
    | .colonMethod => some (info.verifier.setMethod field.value)
    | .colonScheme => some (info.verifier.setScheme field.value)
    | .colonAuthority => some (info.verifier.setAuthority field.value info.settings.validate strict)
    | .colonPath => some (info.verifier.setPath parseURL field.value strict info.settings.allowEmptyPath)
    | .colonProtocol => some (info.verifier.setUpgradeProtocol field.value strict)
    | _ => none
  match taken with
  | none => info.reject (ascii "Invalid req header name=" ++ field.name)
  | some (ok,v) => (ok,info.withVerifier v)

def onResponsePseudoHeader (info : HeaderDecodeInfo) (field : HPACKHeader) : Bool × HeaderDecodeInfo :=
  if headerCode field.name = .colonStatus then
    if info.hasStatus then info.reject (ascii "Duplicate status")
    else
      let info := {info with hasStatus := true}
      let code := (tryToInt32 field.value).getD (-1)
      if 100 ≤ code ∧ code≤999 then (true,info.withMsg {info.msg with statusCode := code.toNat})
      else info.reject (ascii "Malformed status code=" ++ field.value)
  else info.reject (ascii "Invalid resp header name=" ++ field.name)

/-- The value of a `Content-Length` field as the codec reads it: 0 if it is no 32-bit number. -/
def readContentLength (value : Bytes) : ℕ := (tryToUint32 value).getD 0

def nameOk (settings : DecodeSettings) (name : Bytes) : Bool :=
  !settings.validate || headerCode name != .other ||
    validateHeaderName (if settings.strictValidation then .strict else .strictCompat) name

def valueOk (settings : DecodeSettings) (value : Bytes) : Bool :=
  !settings.validate || validateHeaderValue (if settings.strictValidation then .strict else .strictCompat) value

def addRegularHeader (info : HeaderDecodeInfo) (field : HPACKHeader) : Bool × HeaderDecodeInfo :=
  if !nameOk info.settings field.name || !valueOk info.settings field.value then
    (false,{info with
      parsingError := ascii "Invalid header name=" ++ field.name, headerErrorValue := field.value})
  else if headerCode field.name = .host ∧ info.verifier.hasAuthority then
    if info.msg.getSingleOrEmpty .host≠field.value then info.reject (ascii ":authority/Host header mismatch")
    else (true,info)
  else (true,info.withMsg (info.msg.addHeader field))

def onRegularHeader (info : HeaderDecodeInfo) (field : HPACKHeader) : Bool × HeaderDecodeInfo :=
  match headerCode field.name with
  | .connection => info.reject (ascii "HTTP/2 Message with Connection header")
  | .contentLength =>
    let cl := readContentLength field.value
    if info.contentLength.any (·≠cl) then info.reject (ascii "Multiple content-length headers")
    else addRegularHeader (info.withContentLength cl) field
  | _ => addRegularHeader info field

/-- Further fields are ignored once an error is found. -/
def onHeader (info : HeaderDecodeInfo) (field : HPACKHeader) : Bool × HeaderDecodeInfo :=
  if info.decodeError≠none ∨ info.parsingError≠[] then (true,info)
  else if startsWithColon field.name then
    let info := info.sawPseudoHeader
    if info.regularHeaderSeen then info.reject (ascii "Illegal pseudo header name=" ++ field.name)
    else if info.settings.isRequest then onRequestPseudoHeader parseURL info field
    else onResponsePseudoHeader info field
  else onRegularHeader info.sawRegularHeader field

def onHeadersComplete (info : HeaderDecodeInfo) (decodedSize : HTTPHeaderSize) : HeaderDecodeInfo :=
  let verified :=
    if info.settings.isRequest ∧ ¬info.settings.isRequestTrailers then
      let (ok,v) := {info.verifier with msg := info.msg.combineCookies}.validate
      (ok,info.withVerifier v)
    else (true,info)
  let info := verified.2
  if !verified.1 then {info with parsingError := info.verifier.error}
  else if (info.settings.isRequestTrailers ∨ (¬info.settings.isRequest ∧ ¬info.hasStatus)) ∧ info.pseudoHeaderSeen then
    {info with parsingError := ascii "Pseudo headers forbidden in trailers." }
  else info.withMsg {info.msg with version := (1,1), ingressHeaderSize := decodedSize}

def onHeaders (info : HeaderDecodeInfo) (fields : List HPACKHeader) : HeaderDecodeInfo :=
  fields.foldl (fun info field => (onHeader parseURL info field).2) info

end

end HeaderDecodeInfo

end QuicWestwood.HTTP
