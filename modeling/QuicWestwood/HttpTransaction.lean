import QuicWestwood.FlowControlFilter
import QuicWestwood.Http2Framer

/-! A flow-controlled transaction takes the events of its message, hands them to its handler or keeps them while
ingress is paused, and tells the transport which body bytes are processed. A handler may call back into the
transaction, so a call ends where a callback starts; what is left to do when the callback returns is kept on a
stack. The sending side is reduced to its state and to whether its window is closed, and may change at any time.
Timers, byte events, messages of exceptions and extra transactions are left out. -/
namespace QuicWestwood.HTTP
open HTTP2

/-! ## State machines -/

inductive IngressState
  | start | nonFinalHeadersReceived | finalHeadersReceived | regularBodyReceived | chunkHeaderReceived
  | chunkBodyReceived | chunkCompleted | trailersReceived | upgradeComplete | eomQueued | receivingDone
  deriving DecidableEq

inductive IngressEvent
  | onNonFinalHeaders | onFinalHeaders | onDatagram | onBody | onChunkHeader | onChunkComplete | onTrailers
  | onUpgrade | onEOM | eomFlushed
  deriving DecidableEq

def IngressState.transit : IngressState → IngressEvent → Option IngressState
  | .start, .onFinalHeaders => some .finalHeadersReceived
  | .start, .onNonFinalHeaders => some .nonFinalHeadersReceived
  | .nonFinalHeadersReceived, .onNonFinalHeaders => some .nonFinalHeadersReceived
  | .nonFinalHeadersReceived, .onFinalHeaders => some .finalHeadersReceived
  | .nonFinalHeadersReceived, .onUpgrade => some .upgradeComplete
  | .finalHeadersReceived, .onBody => some .regularBodyReceived
  | .finalHeadersReceived, .onDatagram => some .finalHeadersReceived
  | .finalHeadersReceived, .onChunkHeader => some .chunkHeaderReceived
  | .finalHeadersReceived, .onTrailers => some .trailersReceived
  | .finalHeadersReceived, .onUpgrade => some .upgradeComplete
  | .finalHeadersReceived, .onEOM => some .eomQueued
  | .regularBodyReceived, .onBody => some .regularBodyReceived
  | .regularBodyReceived, .onDatagram => some .regularBodyReceived
  | .regularBodyReceived, .onTrailers => some .trailersReceived
  | .regularBodyReceived, .onEOM => some .eomQueued
  | .chunkHeaderReceived, .onBody => some .chunkBodyReceived
  | .chunkBodyReceived, .onBody => some .chunkBodyReceived
  | .chunkBodyReceived, .onChunkComplete => some .chunkCompleted
  | .chunkCompleted, .onChunkHeader => some .chunkHeaderReceived
  | .chunkCompleted, .onTrailers => some .trailersReceived
  | .chunkCompleted, .onEOM => some .eomQueued
  | .trailersReceived, .onEOM => some .eomQueued
  | .upgradeComplete, .onBody => some .upgradeComplete
  | .upgradeComplete, .onEOM => some .eomQueued
  | .eomQueued, .eomFlushed => some .receivingDone
  | _, _ => none

inductive EgressState
  | start | headersSent | datagramSent | regularBodySent | chunkHeaderSent | chunkBodySent
  | chunkTerminatorSent | trailersSent | eomQueued | sendingDone
  deriving DecidableEq

/-! ## Events and calls -/

inductive Direction
  | ingressAndEgress | egress | ingress
  deriving DecidableEq

inductive ProxygenError
  | streamAbort | writeTimeout | timeout | parseBody | ingressStateTransition | other
  deriving DecidableEq

structure HTTPException where
  direction : Direction
  proxygenError : Option ProxygenError := none
  codecStatusCode : Option ErrorCode := none
  /-- as `processIngressError` checks in debug builds -/
  bothWays : proxygenError = some .streamAbort ∨ codecStatusCode.isSome → direction = .ingressAndEgress := by simp
  deriving DecidableEq

def stateMachineError : HTTPException where
  direction := .ingressAndEgress
  proxygenError := some .ingressStateTransition
  codecStatusCode := some .internalError

inductive HTTPEvent
  | headersComplete | body (length : ℕ) | chunkHeader | chunkComplete | trailersComplete | messageComplete
  | upgrade | error (e : HTTPException)
  deriving DecidableEq

def HTTPEvent.bodyLength : HTTPEvent → ℕ
  | body length => length
  | _ => 0

inductive TransportCall
  | notifyIngressBodyProcessed (bytes : ℕ)
  | sendWindowUpdate (bytes : ℤ)
  | sendAbort (statusCode : ErrorCode)
  | pauseIngress
  | resumeIngress
  | detach
  deriving DecidableEq

/-- What is left to do when a callback of the handler returns. -/
inductive Frame
  /-- the rest of `processIngressBody` -/
  | body (length : ℕ)
  /-- the same, and the rest of the loop in `resumeIngress` -/
  | deferredBody (length : ℕ)
  | deferred
  deriving DecidableEq

def Frame.bodyLength : Frame → ℕ
  | body length | deferredBody length => length
  | deferred => 0

structure HTTPTransaction where
  isUpstream : Bool
  handler : Bool := true
  ingressState : IngressState := .start
  egressState : EgressState := .start
  /-- `sendWindow_.getSize() <= 0` -/
  sendWindowClosed : Bool := false
  recvWindow : Window
  recvToAck : ℤ := 0
  deferredIngress : Option (List HTTPEvent) := none
  expectedIngressContentLengthRemaining : Option ℕ := none
  ingressPaused : Bool := false
  inResume : Bool := false
  aborted : Bool := false
  deleting : Bool := false
  ingressErrorSeen : Bool := false
  deferredNoError : Bool := false
  stack : List Frame := []
  /-- the transport calls of the current step -/
  calls : List TransportCall := []
  deriving DecidableEq

namespace HTTPTransaction

def isIngressEOMQueued (t : HTTPTransaction) : Bool := t.ingressState = .eomQueued

def isIngressComplete (t : HTTPTransaction) : Bool := t.ingressState = .receivingDone

def isIngressEOMSeen (t : HTTPTransaction) : Bool := t.isIngressEOMQueued || t.isIngressComplete

def isEgressComplete (t : HTTPTransaction) : Bool := t.egressState = .sendingDone

def isExpectingWindowUpdate (t : HTTPTransaction) : Bool := !t.isEgressComplete && t.sendWindowClosed

def events (t : HTTPTransaction) : List HTTPEvent := t.deferredIngress.getD []

def mustQueueIngress (t : HTTPTransaction) : Bool := t.ingressPaused || t.events≠[]

def emit (t : HTTPTransaction) (c : TransportCall) : HTTPTransaction := {t with calls := t.calls++[c]}

def defer (t : HTTPTransaction) (e : HTTPEvent) : HTTPTransaction :=
  {t with deferredIngress := some (t.events++[e])}

def push (t : HTTPTransaction) (f : Frame) : HTTPTransaction := {t with stack := f::t.stack}

/-! ## Errors -/

def markIngressComplete (t : HTTPTransaction) : HTTPTransaction :=
  {t with ingressState := .receivingDone, deferredIngress := none}

def markEgressComplete (t : HTTPTransaction) : HTTPTransaction := {t with egressState := .sendingDone}

def sendAbortImpl (t : HTTPTransaction) (statusCode : ErrorCode) : HTTPTransaction :=
  let t := t.markIngressComplete.markEgressComplete
  if t.aborted then t else {t with aborted := true}.emit (.sendAbort statusCode)

def getDefaultAbortErrorCode (isUpstream : Bool) : ErrorCode :=
  if isUpstream then .cancel else .internalError

def sendAbort (t : HTTPTransaction) (statusCode : ErrorCode) : HTTPTransaction :=
  if statusCode = .noError then
    let canSendNoError := !t.isUpstream && (t.egressState = .eomQueued || t.egressState = .sendingDone)
    let t := {t with deferredNoError := canSendNoError && t.egressState = .eomQueued}
    if t.deferredNoError then t
    else if canSendNoError then t.sendAbortImpl .noError
    else t.sendAbortImpl (getDefaultAbortErrorCode t.isUpstream)
  else t.sendAbortImpl statusCode

def maybeSendDeferredNoError (t : HTTPTransaction) : HTTPTransaction :=
  if t.deferredNoError then {t with deferredNoError := false}.sendAbortImpl .noError else t

def invariantViolation (t : HTTPTransaction) : HTTPTransaction :=
  t.sendAbort (getDefaultAbortErrorCode t.isUpstream)

/-- The answers of the functions that process an event: the new state, and whether a callback of
the handler has started. -/
abbrev Processed := HTTPTransaction × Bool

def processIngressError (t : HTTPTransaction) (error : HTTPException) : Processed :=
  let wasAborted := t.aborted
  let wasEgressComplete := t.isEgressComplete
  let wasIngressComplete := t.isIngressComplete
  let notify := t.handler
  let blocked := error.direction = .ingress && t.isIngressEOMSeen && t.isExpectingWindowUpdate
  let direction := if blocked then .ingressAndEgress else error.direction
  let t := if blocked then t.sendAbort .flowControlError else t
  let t :=
    if error.proxygenError = some .streamAbort then {t with aborted := true}
    else
      match error.codecStatusCode with
      | some code => t.sendAbort code
      | none => t
  match direction with
  | .ingressAndEgress =>
    (t.markEgressComplete.markIngressComplete,notify && !(wasEgressComplete && wasIngressComplete &&
        (error.proxygenError≠some .writeTimeout || wasAborted)))
  | .egress =>
    let t := t.markEgressComplete
    let t := if !wasEgressComplete && t.isIngressEOMSeen && t.ingressErrorSeen then t.markIngressComplete else t
    (t,notify && !wasEgressComplete)
  | .ingress =>
    if t.isIngressEOMSeen then ({t with ingressErrorSeen := true},false)
    else (t.markIngressComplete,notify && !wasIngressComplete)

def onError (t : HTTPTransaction) (error : HTTPException) : HTTPTransaction :=
  -- a reset without an error waits for the queued end of the message
  if t.isUpstream && error.codecStatusCode = some .noError && t.isIngressEOMQueued then t.defer (.error error)
  else (t.processIngressError error).1

def abortAndDeliverError (t : HTTPTransaction) (codecError : ErrorCode) : HTTPTransaction :=
  t.onError {direction := .ingressAndEgress, codecStatusCode := some codecError}

def validateIngressStateTransition (t : HTTPTransaction) (event : IngressEvent)
    (next : HTTPTransaction → HTTPTransaction) : HTTPTransaction :=
  match t.ingressState.transit event with
  | none => t.onError stateMachineError
  | some state => next {t with ingressState := state}

/-! ## Windows -/

def flushWindowUpdate (t : HTTPTransaction) : HTTPTransaction :=
  if 0<t.recvToAck ∧ !t.isIngressEOMSeen ∧ (!t.isUpstream ∨ t.egressState≠.start ∨ t.ingressState≠.start) then
    {t with recvToAck := 0}.emit (.sendWindowUpdate t.recvToAck)
  else t

def setReceiveWindow (t : HTTPTransaction) (capacity : UInt32) : HTTPTransaction :=
  let delta := int32 (capacity.toNat-t.recvWindow.capacity)
  if delta<0 then t
  else
    match t.recvWindow.setCapacity capacity.toNat with
    | none => t
    | some recvWindow => {t with recvWindow, recvToAck := int32 (t.recvToAck+delta)}.flushWindowUpdate

/-! ## Ingress -/

def handled (t : HTTPTransaction) : Processed := (t,t.handler && !t.isIngressComplete && !t.aborted)

/-- `processIngressBody` up to the callback. -/
def processIngressBody (t : HTTPTransaction) (length : ℕ) : Processed :=
  if t.aborted then (t,false)
  else (t.emit (.notifyIngressBodyProcessed length),t.handler && !t.isIngressComplete)

/-- `processIngressBody` with the frame for its callback. -/
def handOver (t : HTTPTransaction) (length : ℕ) (f : Frame) : Processed :=
  let r := t.processIngressBody length
  if r.2 then (r.1.push f,true) else r

/-- `processIngressBody` after the callback. -/
def bodyProcessed (t : HTTPTransaction) (length : ℕ) (draining : Bool) : HTTPTransaction :=
  if t.isIngressEOMSeen then t
  else
    let t := {t with recvToAck := int32 (t.recvToAck+length)}
    if 0<t.recvToAck ∧ t.recvWindow.capacity/(if draining then 1 else 2) ≤ t.recvToAck then t.flushWindowUpdate
    else t

def processIngressEOM (t : HTTPTransaction) : Processed :=
  if t.aborted then (t,false)
  else
    match t.ingressState.transit .eomFlushed with
    | none => t.processIngressError stateMachineError
    | some state =>
      if t.handler then ({t with ingressState := state},!t.isIngressComplete)
      else ({t with ingressState := state}.markEgressComplete,false)

/-- Keep an event, or go on with `process`. -/
def queueOr (t : HTTPTransaction) (e : HTTPEvent) (process : HTTPTransaction → HTTPTransaction) :
    HTTPTransaction :=
  if t.mustQueueIngress then t.defer e else process t

def onIngress (t : HTTPTransaction) (event : IngressEvent) (e : HTTPEvent) : HTTPTransaction :=
  t.validateIngressStateTransition event fun t => t.queueOr e fun t => t.handled.1

/-- `contentLength` is the length that the message announces, if it has a say. -/
def onIngressHeadersComplete (t : HTTPTransaction) (isFinal : Bool) (contentLength : Option ℕ) :
    HTTPTransaction :=
  t.validateIngressStateTransition (if isFinal then .onFinalHeaders else .onNonFinalHeaders) fun t =>
    let t :=
      match contentLength with
      | none => t
      | some length => {t with expectedIngressContentLengthRemaining := some length}
    t.queueOr .headersComplete fun t => t.handled.1

def contentLengthMismatch : HTTPException := {direction := .ingress, proxygenError := some .parseBody}

def updateContentLengthRemaining (t : HTTPTransaction) (length : ℕ) : Option HTTPTransaction :=
  match t.expectedIngressContentLengthRemaining with
  | none => some t
  | some remaining =>
    if length ≤ remaining then some {t with expectedIngressContentLengthRemaining := some (remaining-length)}
    else none

def deliverBody (t : HTTPTransaction) (length : ℕ) : HTTPTransaction :=
  match t.recvWindow.free length with
  | none => t.invariantViolation
  | some recvWindow => ({t with recvWindow}.handOver length (.body length)).1

/-- The body of an allowed event: count it against the window, then keep it or deliver it. -/
def receiveBody (t : HTTPTransaction) (length : ℕ) (padding : UInt16) : HTTPTransaction :=
  match t.recvWindow.reserve ((length+padding.toNat) % 2^32) with
  | none => t.abortAndDeliverError .flowControlError
  | some reserved =>
    match reserved.free padding.toNat with
    | none => {t with recvWindow := reserved}.invariantViolation
    | some recvWindow =>
      {t with recvWindow, recvToAck := int32 (t.recvToAck+padding.toNat)}.queueOr (.body length)
        fun t => t.deliverBody length

def onIngressBody (t : HTTPTransaction) (length : ℕ) (padding : UInt16) : HTTPTransaction :=
  if t.isIngressEOMSeen then t.abortAndDeliverError .streamClosed
  else if length=0 then t
  else t.validateIngressStateTransition .onBody fun t =>
    match t.updateContentLengthRemaining length with
    | none => if t.handler then t.onError contentLengthMismatch else t
    | some t => t.receiveBody length padding

def onIngressEOM (t : HTTPTransaction) : HTTPTransaction :=
  if t.isIngressEOMSeen then t.abortAndDeliverError .streamClosed
  else if 0 < t.expectedIngressContentLengthRemaining.getD 0 then
    if t.handler then t.onError contentLengthMismatch else t
  else t.validateIngressStateTransition .onEOM fun t => t.queueOr .messageComplete fun t => t.processIngressEOM.1

/-! ## Pausing -/

def pauseIngress (t : HTTPTransaction) : HTTPTransaction :=
  if t.ingressPaused then t else {t with ingressPaused := true}.emit .pauseIngress

/-- The body is moved out of the event that stays at the front of the queue. -/
def takeBody (t : HTTPTransaction) : HTTPTransaction :=
  {t with deferredIngress := t.deferredIngress.map fun es => .body 0::es.tail}

def popDeferred (t : HTTPTransaction) : HTTPTransaction :=
  {t with deferredIngress := t.deferredIngress.map List.tail}

def passOn (r : Processed) : Processed := if r.2 then (r.1.push .deferred,true) else r

def processDeferred (t : HTTPTransaction) : HTTPEvent → Processed
  | .headersComplete | .chunkHeader | .chunkComplete | .trailersComplete | .upgrade => passOn t.handled
  | .body length =>
    match t.takeBody.recvWindow.free length with
    -- leaves `resumeIngress`
    | none => ({t.takeBody.invariantViolation.popDeferred with inResume := false},true)
    | some recvWindow => {t.takeBody with recvWindow}.handOver length (.deferredBody length)
  | .messageComplete => passOn t.processIngressEOM
  | .error e => passOn (t.processIngressError e)

/-- The loop over the deferred events, up to the next callback. -/
def resumeLoop : List HTTPEvent → HTTPTransaction → HTTPTransaction
  | [], t => {t with inResume := false}
  | e::es, t =>
    if t.ingressPaused || t.deferredIngress.isNone then {t with inResume := false}
    else
      let r := t.processDeferred e
      if r.2 then r.1 else resumeLoop es r.1.popDeferred

def resumeIngress (t : HTTPTransaction) : HTTPTransaction :=
  if !t.ingressPaused || t.isIngressComplete then t
  else
    let t := {t with ingressPaused := false}.emit .resumeIngress
    if t.inResume then t else resumeLoop t.events {t with inResume := true}

def onIngressTimeout (t : HTTPTransaction) : HTTPTransaction :=
  let t := t.pauseIngress
  if t.handler then
    if t.isExpectingWindowUpdate then
      t.onError {
        direction := .ingressAndEgress, proxygenError := some .writeTimeout, codecStatusCode := some .protocolError}
    else t.onError {direction := .ingress, proxygenError := some .timeout}
  else t.markIngressComplete.markEgressComplete

/-- Nothing happens while a function of the transaction is running. -/
def onDelayedDestroy (t : HTTPTransaction) (isEnqueued : Bool) (pendingByteEvents : ℕ) : HTTPTransaction :=
  if t.stack≠[] ∨ !t.isEgressComplete ∨ !t.isIngressComplete ∨ isEnqueued ∨ 0<pendingByteEvents ∨ t.deleting then t
  else
    let t := {t with deleting := true, handler := false}
    let t := if 0<t.recvWindow.outstanding then
      t.emit (.notifyIngressBodyProcessed t.recvWindow.outstanding.toNat) else t
    t.emit .detach

/-! ## Steps -/

inductive Call
  | onIngressHeadersComplete (isFinal : Bool) (contentLength : Option ℕ)
  /-- the body and the padding of a DATA frame -/
  | onIngressBody (length : Fin (2^24)) (padding : UInt16)
  | onIngressChunkHeader
  | onIngressChunkComplete
  | onIngressTrailers
  | onIngressUpgrade
  | onIngressEOM
  | onError (error : HTTPException)
  | onIngressTimeout
  | pauseIngress
  | resumeIngress
  | sendAbort (statusCode : ErrorCode)
  | setReceiveWindow (capacity : UInt32)
  | flushWindowUpdate
  | setHandler (handler : Bool)
  /-- the sending side moves on -/
  | egress (state : EgressState) (sendWindowClosed : Bool)
  | maybeSendDeferredNoError
  | onDelayedDestroy (isEnqueued : Bool) (pendingByteEvents : ℕ)
  deriving DecidableEq

def call (t : HTTPTransaction) : Call → HTTPTransaction
  | .onIngressHeadersComplete isFinal contentLength => t.onIngressHeadersComplete isFinal contentLength
  | .onIngressBody length padding => t.onIngressBody length padding
  | .onIngressChunkHeader => t.onIngress .onChunkHeader .chunkHeader
  | .onIngressChunkComplete => t.onIngress .onChunkComplete .chunkComplete
  | .onIngressTrailers => t.onIngress .onTrailers .trailersComplete
  | .onIngressUpgrade => t.onIngress .onUpgrade .upgrade
  | .onIngressEOM => t.onIngressEOM
  | .onError error => t.onError error
  | .onIngressTimeout => t.onIngressTimeout
  | .pauseIngress => t.pauseIngress
  | .resumeIngress => t.resumeIngress
  | .sendAbort statusCode => t.sendAbort statusCode
  | .setReceiveWindow capacity => t.setReceiveWindow capacity
  | .flushWindowUpdate => t.flushWindowUpdate
  | .setHandler handler => {t with handler}
  | .egress egressState sendWindowClosed => {t with egressState, sendWindowClosed}
  | .maybeSendDeferredNoError => t.maybeSendDeferredNoError
  | .onDelayedDestroy isEnqueued pendingByteEvents => t.onDelayedDestroy isEnqueued pendingByteEvents

inductive Step
  | call (c : Call)
  /-- the callback that started last returns; `draining` is the answer of the transport -/
  | callbackReturns (draining : Bool)
  deriving DecidableEq

def continueWith (t : HTTPTransaction) (draining : Bool) : Frame → HTTPTransaction
  | .body length => t.bodyProcessed length draining
  | .deferredBody length =>
    let t := (t.bodyProcessed length draining).popDeferred
    resumeLoop t.events t
  | .deferred => resumeLoop t.popDeferred.events t.popDeferred

def step (t : HTTPTransaction) : Step → HTTPTransaction
  | .call c => {t with calls := []}.call c
  | .callbackReturns draining =>
    match t.stack with
    | [] => {t with calls := []}
    | f::stack => {t with calls := [], stack}.continueWith draining f

end HTTPTransaction

end QuicWestwood.HTTP
