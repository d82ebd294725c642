import QuicWestwood.Http2Codec
import QuicWestwood.Run
import QuicWestwood.Settle

/-! `onIngress` parses as many frames as the bytes received allow. A DATA frame that is not there as a whole is
parsed in pieces. `Connection` is the codec with the bytes that are left and the callbacks made so far. -/
namespace QuicWestwood.HTTP2
open ByteCodec HTTP HPACK

namespace HTTP2Codec

variable (c : HTTP2Codec)

/-! ## DATA frames in pieces -/

/-- `parseDataFrameData` behind the length of the padding; what is parsed comes with its size. -/
def parseDataRest (padding : ℕ) (bytes : Bytes) : Parsed × ℕ :=
  let toClone := min (c.pendingDataFrameBytes-c.pendingDataFramePaddingBytes) bytes.length
  let outData := bytes.take toClone
  let c := {c with pendingDataFrameBytes := c.pendingDataFrameBytes-toClone}
  let toSkip := min c.pendingDataFramePaddingBytes (bytes.length-toClone)
  match skipPadding (bytes.drop toClone) toSkip with
  | .error code => (c.fail code,toClone)
  | .ok () =>
    let c := {c with
      pendingDataFrameBytes := c.pendingDataFrameBytes-toSkip
      pendingDataFramePaddingBytes := c.pendingDataFramePaddingBytes-toSkip}
    let calls :=
      if 0<padding ∨ outData≠[] then c.deliver c.curHeader.stream (.onBody c.curHeader.stream outData padding) else []
    (if 0 < c.pendingDataFrameBytes then ⟨c,calls,none⟩ else c.handleEndStream.prepend calls,toClone+toSkip)

def parseDataFrameData (bytes : Bytes) : Parsed × ℕ :=
  if bytes=[] then (⟨c,[],none⟩,0)
  else if c.pendingDataFrameBytes=c.curHeader.length ∧ c.pendingDataFramePaddingBytes=0 then
    if c.curHeader.padded ∧ bytes.length=1 then (⟨c,[],none⟩,0)
    else
      match parseDataBegin c.curHeader bytes with
      | .error code => (c.fail code,0)
      | .ok padding =>
        if 0<padding then
          let (p,parsed) := {c with
            pendingDataFramePaddingBytes := padding-1
            pendingDataFrameBytes := c.pendingDataFrameBytes-1}.parseDataRest padding (bytes.drop 1)
          (p,parsed+1)
        else c.parseDataRest 0 bytes
  else c.parseDataRest 0 bytes

/-! ## The loop -/

def maxRecvFrameSize : ℕ := (c.egressSettings.getSetting .maxFrameSize).getD 16384

def parseConnectionPreface (bytes : Bytes) : Parsed :=
  let c := {c with frameState := .expectFirstSettings}
  if bytes=kConnectionPreface then ⟨c,[],none⟩ else c.failWith (ascii "missing connection preface") .protocolError

def notSettings (h : FrameHeader) : Bytes :=
  ascii "GOAWAY error: got invalid connection preface frame type=" ++ h.type.text++ascii "(" ++ number h.type.toCode.toNat ++
    ascii ") for streamID=" ++ number h.stream

def beginFrame (h : FrameHeader) : HTTP2Codec :=
  if h.type = .data then
    {c with
      curHeader := h
      frameState := .dataFrameData
      pendingDataFrameBytes := h.length
      pendingDataFramePaddingBytes := 0}
  else {c with curHeader := h, frameState := .frameData}

def startFrame (h : FrameHeader) : Parsed :=
  let notFirst := c.frameState = .expectFirstSettings ∧ h.type≠.settings
  {codec := {c.beginFrame h with
     goawayErrorMessage := if notFirst then notSettings h else c.goawayErrorMessage}
   calls := [.onFrameHeader h.stream h.flags h.length h.type.toCode]
   stop :=
     if c.maxRecvFrameSize<h.length then some (.connectionError .frameSizeError)
     else if notFirst then some (.connectionError .protocolError)
     else none}

def inFrame : Bool := c.frameState = .frameData || c.frameState = .dataFrameData

def parsesPiece (bytes : Bytes) : Bool :=
  c.frameState = .dataFrameData && !bytes.isEmpty &&
    (bytes.length < c.curHeader.length || c.pendingDataFrameBytes < c.curHeader.length)

section
variable (parseURL : Bytes → Bool) (numIncomingStreams : ℕ)

def parseWholeFrame (bytes : Bytes) : Parsed :=
  let p := c.parseFrame parseURL numIncomingStreams (bytes.take c.curHeader.length)
  {p with codec := {p.codec with frameState := .frameHeader}}

def parsePiece (bytes : Bytes) : Parsed × ℕ :=
  let (p,parsed) := c.parseDataFrameData bytes
  ({p with codec := if p.codec.pendingDataFrameBytes=0 then {p.codec with frameState := .frameHeader} else p.codec},
    parsed)

/-- One turn of the loop of `onIngress`, with the number of bytes parsed; `none` leaves the loop. -/
def advance (bytes : Bytes) : Option (Parsed × ℕ) :=
  match c.frameState with
  | .upstreamConnectionPreface =>
    if kConnectionPreface.length≤bytes.length then
      some (c.parseConnectionPreface (bytes.take kConnectionPreface.length),kConnectionPreface.length)
    else none
  | .frameHeader | .expectFirstSettings =>
    if kFrameHeaderSize≤bytes.length then some (c.startFrame (parseFrameHeader bytes),kFrameHeaderSize) else none
  | .frameData | .dataFrameData =>
    if c.parsesPiece bytes then
      let (p,parsed) := c.parsePiece bytes
      -- only the length of the padding is there
      if parsed=0 ∧ p.stop=none then none else some (p,parsed)
    else if c.curHeader.length≤bytes.length then
      some (c.parseWholeFrame parseURL numIncomingStreams bytes,c.curHeader.length)
    else none

end

end HTTP2Codec

structure Connection where
  codec : HTTP2Codec
  trace : List Callback := []
  buffer : Bytes := []
  stop : Option Stop := none

namespace Connection

/-- `checkConnectionError`: the error is reported for the connection. -/
def errorCalls (c : HTTP2Codec) : Option Stop → List Callback
  | some (.connectionError code) =>
    let errorDescription := if c.goawayErrorMessage=[] then ascii "Connection error" else c.goawayErrorMessage
    [.onError 0 ⟨.ingressAndEgress,errorDescription,some code,0,none⟩ false]
  | _ => []

section
variable (parseURL : Bytes → Bool)

def parseNext (numIncomingStreams : ℕ) (s : Connection) : Option Connection :=
  if s.stop.isSome then none
  else
    (s.codec.advance parseURL numIncomingStreams s.buffer).map fun (p,parsed) =>
      ⟨p.codec,s.trace++p.calls++errorCalls p.codec p.stop,s.buffer.drop parsed,p.stop⟩

def turns (s : Connection) : ℕ :=
  if s.stop.isSome then 0
  else 2*s.buffer.length+1+if s.codec.frameState = .frameData ∨ s.codec.frameState = .dataFrameData then 1 else 0

def receive (bytes : Bytes) (s : Connection) : Connection := {s with buffer := s.buffer++bytes}

/-- `onIngress` with the bytes of earlier calls that are not parsed yet. The callback answers
`numIncomingStreams()` from what it has been told. -/
def onIngress (numIncomingStreams : List Callback → ℕ) (s : Connection) (bytes : Bytes) : Connection :=
  Settle.settle (fun s => s.parseNext parseURL (numIncomingStreams s.trace)) turns (s.receive bytes)

end

end Connection

/-! ## The calls of the session -/

inductive EgressCall where
  | createStream
  | enableDoubleGoawayDrain
  | generateGoaway (lastStream : ℕ) (statusCode : ErrorCode)
  | generateRstStream (stream : ℕ)
  | generateEOM (stream : ℕ)
  /-- The header of a request that asks for a websocket. -/
  | generateUpgradeHeader (stream : ℕ)
  deriving DecidableEq

namespace HTTP2Codec

def kMaxStreamID : ℕ := 2^31-1

def maxStreamID : ℕ := 2^64-1

def isWaitingToDrain (c : HTTP2Codec) : Bool := c.sessionClosing = .open || c.sessionClosing = .firstGoawaySent

def isReusable (c : HTTP2Codec) : Bool :=
  (c.sessionClosing = .open || c.sessionClosing = .openWithGracefulDrainEnabled ||
    (c.transportDirection = .downstream && c.isWaitingToDrain)) &&
  c.ingressGoawayAck = 2^32-1 && c.nextEgressStreamID ≤ 2^31-1-2

def createStream (c : HTTP2Codec) : HTTP2Codec := {c with nextEgressStreamID := c.nextEgressStreamID+2}

def enableDoubleGoawayDrain (c : HTTP2Codec) : HTTP2Codec :=
  if c.sessionClosing = .open then {c with sessionClosing := .openWithGracefulDrainEnabled} else c

def generateGoaway (c : HTTP2Codec) (lastStream : ℕ) (statusCode : ErrorCode) : HTTP2Codec :=
  if c.sessionClosing = .closed then c
  else
    let lastStream :=
      if lastStream=maxStreamID then
        if statusCode≠.noError ∨ ¬c.isReusable ∨ c.isWaitingToDrain then c.lastStreamID else kMaxStreamID
      else lastStream
    {c with
      egressGoawayAck := lastStream
      sessionClosing :=
        if c.sessionClosing≠.firstGoawaySent ∧ lastStream=kMaxStreamID ∧ statusCode = .noError then .firstGoawaySent
        else .closed}

/-- Sending a RST_STREAM takes back the end of the stream that the current frame carries. -/
def generateRstStream (c : HTTP2Codec) (stream : ℕ) : HTTP2Codec :=
  if c.isStreamIngressEgressAllowed stream then
    let c := {c with upgradedStreams := c.upgradedStreams.filter (·≠stream)}
    if stream=c.curHeader.stream then
      {c with
        curHeader := {c.curHeader with flags := c.curHeader.flags &&& ~~~0x1}
        pendingEndStreamHandling := false
        ingressWebsocketUpgrade := false}
    else c
  else c

def generateEOM (c : HTTP2Codec) (stream : ℕ) : HTTP2Codec :=
  {c with upgradedStreams := c.upgradedStreams.filter (·≠stream)}

def generateUpgradeHeader (c : HTTP2Codec) (stream : ℕ) : HTTP2Codec :=
  if c.isStreamIngressEgressAllowed stream then
    {c with upgradedStreams := c.upgradedStreams.filter (·≠stream)++[stream]}
  else c

def egress (c : HTTP2Codec) : EgressCall → HTTP2Codec
  | .createStream => c.createStream
  | .enableDoubleGoawayDrain => c.enableDoubleGoawayDrain
  | .generateGoaway lastStream statusCode => c.generateGoaway lastStream statusCode
  | .generateRstStream stream => c.generateRstStream stream
  | .generateEOM stream => c.generateEOM stream
  | .generateUpgradeHeader stream => c.generateUpgradeHeader stream

def sendSetting (c : HTTP2Codec) : Setting → HTTP2Codec
  | (.headerTableSize,value) => {c with pendingTableMaxSize := some (c.pendingTableMaxSize.getD value)}
  | (.maxHeaderListSize,value) => {c with headerCodec := {c.headerCodec with maxUncompressed := value}}
  | _ => c

def start (direction : TransportDirection) (settings : HTTPSettings) (validate strict : Bool) : HTTP2Codec :=
  settings.foldl sendSetting
    {init direction with egressSettings := settings, validateHeaders := validate, strictValidation := strict}

end HTTP2Codec

/-! ## Runs -/

/-- Bytes that arrive, a turn of the loop with the answer of `numIncomingStreams()`, or a call of
the session. -/
inductive Action where
  | receive (bytes : Bytes)
  | parse (numIncomingStreams : ℕ)
  | egress (call : EgressCall)

namespace Connection

def act (parseURL : Bytes → Bool) (s : Connection) : Action → Connection
  | .receive bytes => s.receive bytes
  | .parse numIncomingStreams => (s.parseNext parseURL numIncomingStreams).getD s
  | .egress call => {s with codec := s.codec.egress call}

end Connection

/-! ## What a turn can do -/

namespace HTTP2Codec

/-- The turns of the loop: the preface, a frame header, a piece of a DATA frame, a whole frame. -/
inductive Turn (parseURL : Bytes → Bool) (numIncomingStreams : ℕ) (c : HTTP2Codec) (bytes : Bytes) : Parsed → ℕ → Prop
  | preface (hstate : c.frameState = .upstreamConnectionPreface) (hlen : kConnectionPreface.length≤bytes.length) :
    Turn parseURL numIncomingStreams c bytes (c.parseConnectionPreface (bytes.take kConnectionPreface.length))
      kConnectionPreface.length
  | header (hstate : c.frameState = .frameHeader ∨ c.frameState = .expectFirstSettings)
      (hlen : kFrameHeaderSize≤bytes.length) :
    Turn parseURL numIncomingStreams c bytes (c.startFrame (parseFrameHeader bytes)) kFrameHeaderSize
  | piece (hpiece : c.parsesPiece bytes = true) (hprogress : (c.parsePiece bytes).2 = 0 → (c.parsePiece bytes).1.stop≠none) :
    Turn parseURL numIncomingStreams c bytes (c.parsePiece bytes).1 (c.parsePiece bytes).2
  | whole (hstate : c.frameState = .frameData ∨ c.frameState = .dataFrameData) (hpiece : c.parsesPiece bytes = false)
      (hlen : c.curHeader.length≤bytes.length) :
    Turn parseURL numIncomingStreams c bytes (c.parseWholeFrame parseURL numIncomingStreams bytes) c.curHeader.length

lemma parsesPiece_iff {c : HTTP2Codec} {bytes : Bytes} : c.parsesPiece bytes = true ↔
    c.frameState = .dataFrameData ∧ bytes≠[] ∧
      (bytes.length < c.curHeader.length ∨ c.pendingDataFrameBytes < c.curHeader.length) := by
  simp [parsesPiece,and_assoc]

section
variable {parseURL : Bytes → Bool} {numIncomingStreams : ℕ} {c : HTTP2Codec} {bytes : Bytes} {p : Parsed} {n : ℕ}

theorem turn_of_advance (h : c.advance parseURL numIncomingStreams bytes = some (p,n)) :
    Turn parseURL numIncomingStreams c bytes p n := by
  unfold advance at h
  have hframe (hstate : c.frameState = .frameData ∨ c.frameState = .dataFrameData)
      (h : (if c.parsesPiece bytes then
          if (c.parsePiece bytes).2 = 0 ∧ (c.parsePiece bytes).1.stop = none then none else some (c.parsePiece bytes)
        else if c.curHeader.length≤bytes.length then
          some (c.parseWholeFrame parseURL numIncomingStreams bytes,c.curHeader.length)
        else none) = some (p,n)) : Turn parseURL numIncomingStreams c bytes p n := by
    by_cases hpiece : c.parsesPiece bytes = true
    · rw [if_pos hpiece] at h
      split_ifs at h with hwait
      obtain ⟨rfl,rfl⟩ := Prod.mk.inj (Option.some.inj h)
      exact .piece hpiece fun hzero hnone => hwait ⟨hzero,hnone⟩
    · rw [if_neg hpiece] at h
      split_ifs at h with hlen
      obtain ⟨rfl,rfl⟩ := Prod.mk.inj (Option.some.inj h)
      exact .whole hstate (by simpa using hpiece) hlen
  split at h
  next hstate =>
    split_ifs at h with hlen
    obtain ⟨rfl,rfl⟩ := Prod.mk.inj (Option.some.inj h)
    exact .preface hstate hlen
  next hstate =>
    split_ifs at h with hlen
    obtain ⟨rfl,rfl⟩ := Prod.mk.inj (Option.some.inj h)
    exact .header (.inl hstate) hlen
  next hstate =>
    split_ifs at h with hlen
    obtain ⟨rfl,rfl⟩ := Prod.mk.inj (Option.some.inj h)
    exact .header (.inr hstate) hlen
  next hstate => exact hframe (.inl hstate) h
  next hstate => exact hframe (.inr hstate) h

@[simp] lemma parseConnectionPreface_frameState :
    (c.parseConnectionPreface bytes).codec.frameState = .expectFirstSettings := by
  unfold parseConnectionPreface
  dsimp only
  split_ifs <;> rfl

end

end HTTP2Codec

namespace Connection
variable {parseURL : Bytes → Bool} {numIncomingStreams : ℕ} {s t : Connection}

lemma turn_of_parseNext (h : s.parseNext parseURL numIncomingStreams = some t) :
    s.stop = none ∧ ∃ p n,HTTP2Codec.Turn parseURL numIncomingStreams s.codec s.buffer p n ∧
      t = ⟨p.codec,s.trace++p.calls++errorCalls p.codec p.stop,s.buffer.drop n,p.stop⟩ := by
  unfold parseNext at h
  split_ifs at h with hstop
  obtain ⟨⟨p,n⟩,hadv,rfl⟩ := Option.map_eq_some_iff.mp h
  exact ⟨by simpa using hstop,p,n,HTTP2Codec.turn_of_advance hadv,rfl⟩

lemma turns_lt (h : s.parseNext parseURL numIncomingStreams = some t) : t.turns < s.turns := by
  obtain ⟨hstop,p,n,hturn,rfl⟩ := turn_of_parseNext h
  simp only [turns,hstop,Option.isSome_none,Bool.false_eq_true,if_false]
  by_cases hp : p.stop.isSome=true
  · rw [if_pos hp]
    omega
  · rw [if_neg hp,List.length_drop]
    cases hturn with
    | preface hstate hlen =>
      have hpos : 0<kConnectionPreface.length := by decide +kernel
      simp only [HTTP2Codec.parseConnectionPreface_frameState,hstate,reduceCtorEq,or_self,if_false]
      omega
    | header hstate hlen =>
      have hsize : kFrameHeaderSize=9 := rfl
      split_ifs <;> omega
    | piece hpiece hprogress =>
      obtain ⟨hstate,hne,-⟩ := HTTP2Codec.parsesPiece_iff.mp hpiece
      have hpos : (s.codec.parsePiece s.buffer).2≠0 := by
        intro hzero
        exact hp (by simpa [Option.isSome_iff_ne_none] using hprogress hzero)
      have hlen : 0 < s.buffer.length := List.length_pos_iff.mpr hne
      simp only [hstate,reduceCtorEq,false_or,if_true]
      split_ifs <;> omega
    | whole hstate hpiece hlen =>
      simp only [HTTP2Codec.parseWholeFrame,hstate,reduceCtorEq,or_self,if_false,if_true]
      omega

theorem lowers_turns (parseURL : Bytes → Bool) (numIncomingStreams : List Callback → ℕ) :
    Settle.Lowers (fun s : Connection => s.parseNext parseURL (numIncomingStreams s.trace)) turns :=
  fun _ _ h => turns_lt h

/-- A call of `onIngress` is a run: the bytes arrive, and turns follow until no more can be done. -/
theorem onIngress_eq_run (parseURL : Bytes → Bool) (numIncomingStreams : List Callback → ℕ) (s : Connection)
    (bytes : Bytes) :
    let t := s.onIngress parseURL numIncomingStreams bytes
    (∃ nums : List ℕ,t = Run.run (act parseURL) s (.receive bytes::nums.map .parse)) ∧
      t.parseNext parseURL (numIncomingStreams t.trace) = none := by
  have hlow := lowers_turns parseURL numIncomingStreams
  refine ⟨Settle.settle_induction hlow (P := fun t e => ∃ nums : List ℕ,
    e = Run.run (act parseURL) t (nums.map .parse)) (fun t _ => ⟨[],rfl⟩) ?_ _,Settle.step_settle hlow _⟩
  rintro t u hstep ⟨nums,he⟩
  refine ⟨numIncomingStreams t.trace::nums,?_⟩
  rw [he,List.map_cons,Run.run_cons,act,hstep,Option.getD_some]

end Connection

end QuicWestwood.HTTP2
