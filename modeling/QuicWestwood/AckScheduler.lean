import QuicWestwood.AckFrameDecode

/-! Each endpoint tells its peer in the transport parameters how many receive timestamps it wants in an ACK and
in which unit. `writeNextAcks` picks the ACK frame to send from that and from the endpoint's own settings; the
read codec has parameters of its own. Settings and transport parameters that play no part in this are left out.
-/
namespace QuicWestwood
open ByteCodec

def kMaxAckDelayExponent : ℕ := 20
def kMaxReceivedPktsTimestampsStored : ℕ := 10

inductive TransportParameterId
  | ackDelayExponent
  | maxDatagramFrameSize
  | minAckDelay
  | ackReceiveTimestampsEnabled
  | maxReceiveTimestampsPerAck
  | receiveTimestampsExponent
  | streamGroupsEnabled
  | knobFramesSupported
  deriving DecidableEq

def TransportParameterId.code : TransportParameterId → ℕ
  | .ackDelayExponent => 0x000a
  | .maxDatagramFrameSize => 0x0020
  | .minAckDelay => 0xff04de1a
  | .ackReceiveTimestampsEnabled => 0xff0a001
  | .maxReceiveTimestampsPerAck => 0xff0a002
  | .receiveTimestampsExponent => 0xff0a003
  | .streamGroupsEnabled => 0x0000ff99
  | .knobFramesSupported => 0x00005178

structure TransportParameter where
  parameter : TransportParameterId
  value : Bytes
  deriving DecidableEq

def transportParameterError (message : String) : Failure :=
  .quicTransportException {message, code := .transportParameterError}

def encodeIntegerParameter (id : TransportParameterId) (value : ℕ) : Except Failure TransportParameter :=
  match encodeQuicInteger value with
  | .ok data => .ok ⟨id,data⟩
  | .error _ => .error (transportParameterError "Invalid integer parameter")

def getIntegerParameter (id : TransportParameterId) (parameters : List TransportParameter) :
    Except Failure (Option ℕ) :=
  match parameters.find? fun p => p.parameter = id with
  | none => .ok none
  | some p =>
    match decodeQuicInteger p.value with
    | none => .error (transportParameterError
        s!"Failed to decode integer from TransportParameterId: {id.code}")
    | some (value,_) => .ok (some value)

structure TransportSettings where
  ackDelayExponent : ℕ := kDefaultAckDelayExponent
  readEcnOnIngress : Bool := false
  datagramEnabled : Bool := false
  advertisedMaxStreamGroups : ℕ := 0
  minAckDelay : Option ℕ := none
  advertisedKnobFrameSupport : Bool := true
  maybeAckReceiveTimestampsConfigSentToPeer : Option AckReceiveTimestampsConfig := none
  maxReceiveTimestampsPerAckStored : ℕ := kMaxReceivedPktsTimestampsStored

/-- The integer parameters that `getSupportedExtTransportParams` encodes, in its order;
with datagrams enabled the maximal frame size is read. -/
def supportedExtParams (ts : TransportSettings) : List (TransportParameterId × ℕ) :=
  List.flatten [if ts.datagramEnabled then [(.maxDatagramFrameSize,65535)] else [],
    if 0<ts.advertisedMaxStreamGroups then [(.streamGroupsEnabled,ts.advertisedMaxStreamGroups)]
      else [],
    match ts.maybeAckReceiveTimestampsConfigSentToPeer with
      | none => [(.ackReceiveTimestampsEnabled,0)]
      | some config =>
        [(.ackReceiveTimestampsEnabled,1),
          (.maxReceiveTimestampsPerAck,config.maxReceiveTimestampsPerAck),
          (.receiveTimestampsExponent,config.receiveTimestampsExponent)],
    match ts.minAckDelay with
      | none => []
      | some delay => [(.minAckDelay,delay)],
    if ts.advertisedKnobFrameSupport then [(.knobFramesSupported,1)] else []]

def getSupportedExtTransportParams (ts : TransportSettings) : Except Failure (List TransportParameter) :=
  (supportedExtParams ts).mapM fun p => encodeIntegerParameter p.1 p.2

/-- The part of a connection state that decides how its ACK frames are written and how
those of the peer are read. `codecParameters` are those of the read codec. -/
structure Endpoint where
  connectionTime : ℤ
  transportSettings : TransportSettings := {}
  transportParametersEncoded : Bool := false
  peerAckDelayExponent : ℕ := kDefaultAckDelayExponent
  maybePeerAckReceiveTimestampsConfig : Option AckReceiveTimestampsConfig := none
  codecParameters : CodecParameters := {}

namespace Endpoint

def setCodecParameters (c : Endpoint) : Endpoint :=
  {c with
    codecParameters :=
      {peerAckDelayExponent := UInt8.ofNat c.peerAckDelayExponent
       maybeAckReceiveTimestampsConfig :=
         c.transportSettings.maybeAckReceiveTimestampsConfigSentToPeer}}

/-- The constructor of `QuicClientTransport`, which runs before there are any settings. -/
def newClient (now : ℤ) : Endpoint := setCodecParameters {connectionTime := now}

/-- Once the parameters are on the wire, only congestion control settings still change. -/
def setTransportSettings (c : Endpoint) (settings : TransportSettings) : Endpoint :=
  if c.transportParametersEncoded then c else {c with transportSettings := settings}

def encodeTransportParameters (c : Endpoint) : Except Failure (List TransportParameter × Endpoint) := do
  let customTransportParams ← getSupportedExtTransportParams c.transportSettings
  let exponent ← encodeIntegerParameter .ackDelayExponent c.transportSettings.ackDelayExponent
  return (exponent::customTransportParams,{c with transportParametersEncoded := true})

def startCryptoHandshake (c : Endpoint) : Except Failure (List TransportParameter × Endpoint) :=
  c.encodeTransportParameters

/-- The first packet makes a server encode its parameters and create its read codec. -/
def onServerReadDataFromOpen (c : Endpoint) : Except Failure (List TransportParameter × Endpoint) := do
  let (params,c) ← c.encodeTransportParameters
  return (params,c.setCodecParameters)

/-- What `undoAllClientStateForRetry` keeps of this part of the state. -/
def undoForRetry (c : Endpoint) (now : ℤ) : Endpoint :=
  {connectionTime := now
   transportSettings := c.transportSettings
   codecParameters := c.setCodecParameters.codecParameters}

/-- The count and the exponent of the peer are cut to 8 bits. -/
def peerConfig (c : Endpoint) (maxReceiveTimestampsPerAck receiveTimestampsExponent : ℕ) :
    AckReceiveTimestampsConfig where
  maxReceiveTimestampsPerAck := min (maxReceiveTimestampsPerAck % 2^8)
    (c.transportSettings.maxReceiveTimestampsPerAckStored % 2^8)
  receiveTimestampsExponent := max (receiveTimestampsExponent % 2^8) 0

/-- The common part of `processServerInitialParams` and `processClientInitialParams`. -/
def processInitialParams (c : Endpoint) (parameters : List TransportParameter) : Except Failure Endpoint := do
  let ackDelayExponent ← getIntegerParameter .ackDelayExponent parameters
  let isAckReceiveTimestampsEnabled ← getIntegerParameter .ackReceiveTimestampsEnabled parameters
  let maxReceiveTimestampsPerAck ← getIntegerParameter .maxReceiveTimestampsPerAck parameters
  let receiveTimestampsExponent ← getIntegerParameter .receiveTimestampsExponent parameters
  if kMaxAckDelayExponent < ackDelayExponent.getD 0 then
    throw (transportParameterError "ack_delay_exponent too large")
  let c := {c with peerAckDelayExponent := ackDelayExponent.getD kDefaultAckDelayExponent}
  match isAckReceiveTimestampsEnabled, maxReceiveTimestampsPerAck, receiveTimestampsExponent with
  | some 1, some count, some exponent =>
    return {c with maybePeerAckReceiveTimestampsConfig := some (c.peerConfig count exponent)}
  | _, _, _ => return c

def processServerInitialParams : Endpoint → List TransportParameter → Except Failure Endpoint :=
  processInitialParams

def processClientInitialParams : Endpoint → List TransportParameter → Except Failure Endpoint :=
  processInitialParams

end Endpoint

structure CreationTimes where
  client : ℤ := 0
  clientAfterRetry : ℤ := 0
  server : ℤ := 0

def clientHello (settings : TransportSettings) (retried : Bool) (times : CreationTimes) :
    Except Failure (List TransportParameter × Endpoint) := do
  let (params,client) ←
    ((Endpoint.newClient times.client).setTransportSettings settings).startCryptoHandshake
  if retried then (client.undoForRetry times.clientAfterRetry).startCryptoHandshake
  else return (params,client)

/-- A handshake until each endpoint has received the parameters of the other. -/
def connect (clientSettings serverSettings : TransportSettings) (retried : Bool) (times : CreationTimes) :
    Except Failure (Endpoint × Endpoint) := do
  let (clientParams,client) ← clientHello clientSettings retried times
  let server : Endpoint := {connectionTime := times.server}
  let (serverParams,server) ← (server.setTransportSettings serverSettings).onServerReadDataFromOpen
  let server ← server.processClientInitialParams clientParams
  let client ← client.processServerInitialParams serverParams
  return (client,server)

/-- The kinds of ACK frame: ECN counts take priority over receive timestamps, which are sent
if both endpoints have a configuration and the peer asks for at least one. -/
def writeSupportedAckFrame (conn : Endpoint) (metaData : WriteAckFrameMetaData) :
    Writer (Option WriteAckFrameResult) :=
  if conn.transportSettings.readEcnOnIngress then writeAckFrame metaData .ackEcn
  else
    match conn.transportSettings.maybeAckReceiveTimestampsConfigSentToPeer,
        conn.maybePeerAckReceiveTimestampsConfig with
    | some config, some peer =>
      if 0<peer.maxReceiveTimestampsPerAck then
        writeAckFrameWithReceivedTimestamps metaData config peer.maxReceiveTimestampsPerAck
      else writeAckFrame metaData .ack
    | _, _ => writeAckFrame metaData .ack

def ackDelayExponentToUse (conn : Endpoint) : HeaderForm → ℕ
  | .long => kDefaultAckDelayExponent
  | .short => conn.transportSettings.ackDelayExponent % 2^8

def writeNextAcks (conn : Endpoint) (s : AckState) (header : HeaderForm) (ackingTime : ℤ) :
    Writer (Option ℕ) :=
  match s.acks.intervals.getLast?, s.largestRecvdPacketTime with
  | some largest, some receivedTime => do
    let ackDelay := if receivedTime<ackingTime then (ackingTime-receivedTime).tdiv 1000 else 0
    let ackWriteResult ← writeSupportedAckFrame conn
      ⟨s,ackDelay,ackDelayExponentToUse conn header,conn.connectionTime⟩
    return ackWriteResult.map fun _ => largest.stop
  | _, _ => throw .optionalEmptyException

/-! ## What the handshake settles -/

lemma encodeIntegerParameter_eq_ok {id : TransportParameterId} {value : ℕ} {p : TransportParameter} :
    encodeIntegerParameter id value = .ok p ↔ value≤kEightByteLimit ∧ p = ⟨id,quicInteger value⟩ := by
  unfold encodeIntegerParameter
  rcases le_or_gt value kEightByteLimit with h | h
  · rw [(quicInteger_spec h).1]
    simp [h,eq_comm]
  · rw [encodeQuicInteger_eq_error h]
    simp [h]

lemma getIntegerParameter_mapM {l : List (TransportParameterId × ℕ)} {params : List TransportParameter}
    (h : (l.mapM fun p => encodeIntegerParameter p.1 p.2) = .ok params) (id : TransportParameterId) :
    getIntegerParameter id params = .ok ((l.find? fun p => p.1 = id).map Prod.snd) := by
  induction l generalizing params with
  | nil =>
    rw [List.mapM_nil] at h
    obtain rfl := Except.ok.inj h
    rfl
  | cons p l ih =>
    simp only [List.mapM_cons,bind_eq_ok,encodeIntegerParameter_eq_ok] at h
    obtain ⟨_,⟨hle,rfl⟩,rest,hrest,hparams⟩ := h
    obtain rfl := Except.ok.inj hparams
    have hrec := ih hrest
    unfold getIntegerParameter at hrec ⊢
    by_cases hid : p.1=id
    · have hread := (quicInteger_spec hle).2.1 []
      rw [List.append_nil] at hread
      simp [hid,hread]
    · simpa [hid] using hrec

namespace Endpoint
variable {c c' : Endpoint} {params : List TransportParameter} {config : AckReceiveTimestampsConfig}

def sentParams (ts : TransportSettings) : List (TransportParameterId × ℕ) :=
  (.ackDelayExponent,ts.ackDelayExponent)::supportedExtParams ts

lemma encodeTransportParameters_ok (h : c.encodeTransportParameters = .ok (params,c')) :
    ((sentParams c.transportSettings).mapM fun p => encodeIntegerParameter p.1 p.2) = .ok params ∧
      c' = {c with transportParametersEncoded := true} := by
  simp only [encodeTransportParameters,bind_eq_ok] at h
  obtain ⟨custom,hcustom,exponent,hexponent,hresult⟩ := h
  obtain ⟨rfl,rfl⟩ := Prod.mk.inj (Except.ok.inj hresult)
  refine ⟨?_,rfl⟩
  rw [getSupportedExtTransportParams] at hcustom
  rw [sentParams,List.mapM_cons,hexponent,ok_bind,hcustom]
  rfl

lemma find?_sentParams {ts : TransportSettings}
    (h : ts.maybeAckReceiveTimestampsConfigSentToPeer = some config) :
    ((sentParams ts).find? fun p => p.1 = .ackDelayExponent) = some (.ackDelayExponent,ts.ackDelayExponent) ∧
      ((sentParams ts).find? fun p => p.1 = .ackReceiveTimestampsEnabled) =
        some (.ackReceiveTimestampsEnabled,1) ∧
      ((sentParams ts).find? fun p => p.1 = .maxReceiveTimestampsPerAck) =
        some (.maxReceiveTimestampsPerAck,config.maxReceiveTimestampsPerAck) ∧
      ((sentParams ts).find? fun p => p.1 = .receiveTimestampsExponent) =
        some (.receiveTimestampsExponent,config.receiveTimestampsExponent) := by
  simp only [sentParams,supportedExtParams,h]
  cases ts.datagramEnabled <;> by_cases hgroups : 0 < ts.advertisedMaxStreamGroups <;> simp [hgroups]

lemma processInitialParams_ok {ts : TransportSettings}
    (hts : ts.maybeAckReceiveTimestampsConfigSentToPeer = some config)
    (hparams : ((sentParams ts).mapM fun p => encodeIntegerParameter p.1 p.2) = .ok params)
    (h : c.processInitialParams params = .ok c') :
    c' = {c with
      peerAckDelayExponent := ts.ackDelayExponent
      maybePeerAckReceiveTimestampsConfig :=
        some (c.peerConfig config.maxReceiveTimestampsPerAck config.receiveTimestampsExponent)} := by
  have hget := getIntegerParameter_mapM hparams
  obtain ⟨h₁,h₂,h₃,h₄⟩ := find?_sentParams hts
  simp only [processInitialParams,hget,h₁,h₂,h₃,h₄,ok_bind,Option.map_some,Option.getD_some] at h
  split at h
  · cases h
  · exact (Except.ok.inj h).symm

end Endpoint

section Connect
variable {clientSettings serverSettings : TransportSettings} {retried : Bool} {times : CreationTimes}
  {client server : Endpoint}

lemma clientHello_ok {params : List TransportParameter}
    (h : clientHello clientSettings retried times = .ok (params,client)) :
    ((Endpoint.sentParams clientSettings).mapM fun p => encodeIntegerParameter p.1 p.2) = .ok params ∧
      client.transportSettings = clientSettings ∧
      client.connectionTime = (if retried then times.clientAfterRetry else times.client) ∧
      client.codecParameters = {maybeAckReceiveTimestampsConfig :=
        if retried then clientSettings.maybeAckReceiveTimestampsConfigSentToPeer else none} := by
  simp only [clientHello,bind_eq_ok] at h
  obtain ⟨⟨params₁,client₁⟩,hfirst,h⟩ := h
  obtain ⟨hparams,rfl⟩ := Endpoint.encodeTransportParameters_ok hfirst
  cases retried with
  | false =>
    obtain ⟨rfl,rfl⟩ := Prod.mk.inj (Except.ok.inj h)
    exact ⟨hparams,rfl,rfl,rfl⟩
  | true =>
    obtain ⟨hparams',rfl⟩ := Endpoint.encodeTransportParameters_ok h
    exact ⟨hparams',rfl,rfl,rfl⟩

/-- After the handshake a server reads with its own configuration, but a client does so only
after a Retry: its codec parameters were set before its settings. -/
theorem connect_ok {A B : AckReceiveTimestampsConfig}
    (hA : clientSettings.maybeAckReceiveTimestampsConfigSentToPeer = some A)
    (hB : serverSettings.maybeAckReceiveTimestampsConfigSentToPeer = some B)
    (h : connect clientSettings serverSettings retried times = .ok (client,server)) :
    (client.transportSettings=clientSettings ∧
      client.connectionTime = (if retried then times.clientAfterRetry else times.client) ∧
      client.maybePeerAckReceiveTimestampsConfig =
        some (client.peerConfig B.maxReceiveTimestampsPerAck B.receiveTimestampsExponent) ∧
      client.codecParameters = {maybeAckReceiveTimestampsConfig := if retried then some A else none}) ∧
    server.transportSettings = serverSettings ∧ server.connectionTime=times.server ∧
      server.maybePeerAckReceiveTimestampsConfig =
        some (server.peerConfig A.maxReceiveTimestampsPerAck A.receiveTimestampsExponent) ∧
      server.codecParameters = {maybeAckReceiveTimestampsConfig := some B} := by
  simp only [connect,bind_eq_ok] at h
  obtain ⟨⟨clientParams,client₁⟩,hclient,⟨serverParams,server₁⟩,hserver,server₂,hserver₂,client₂,
    hclient₂,hresult⟩ := h
  obtain ⟨rfl,rfl⟩ := Prod.mk.inj (Except.ok.inj hresult)
  obtain ⟨hclientParams,hsettings,htime,hcodec⟩ := clientHello_ok hclient
  simp only [Endpoint.onServerReadDataFromOpen,bind_eq_ok] at hserver
  obtain ⟨⟨params,server₀⟩,hencode,hserver⟩ := hserver
  obtain ⟨hserverParams,rfl⟩ := Endpoint.encodeTransportParameters_ok hencode
  obtain ⟨rfl,rfl⟩ := Prod.mk.inj (Except.ok.inj hserver)
  obtain rfl := Endpoint.processInitialParams_ok hA hclientParams hserver₂
  obtain rfl := Endpoint.processInitialParams_ok hB hserverParams hclient₂
  refine ⟨⟨hsettings,htime,rfl,?_⟩,rfl,rfl,rfl,?_⟩
  · rw [← hA]
    exact hcodec
  · rw [← hB]
    rfl

end Connect

end QuicWestwood
