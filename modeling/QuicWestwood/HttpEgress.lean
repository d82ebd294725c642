import QuicWestwood.HttpTransaction

/-! Body and end of a message wait in the transaction until the session finds it in the egress queue and calls
`onWriteReady`. Every call of the transport or of the handler may call back into the transaction, so what a
function has left to do lies on an agenda; its first task runs next, and while that task is a callback other
calls may come first. Rate limits, delegated bodies, messages that end with their headers, timers and byte
events are left out. -/
namespace QuicWestwood.HTTP
open HTTP2

inductive EgressEvent
  | sendHeaders | sendDatagram | sendBody | sendChunkHeader | sendChunkTerminator | sendTrailers | sendEOM
  | eomFlushed
  deriving DecidableEq

def EgressState.transit : EgressState → EgressEvent → Option EgressState
  | .start, .sendHeaders => some .headersSent
  | .headersSent, .sendHeaders => some .headersSent
  | .headersSent, .sendBody => some .regularBodySent
  | .headersSent, .sendTrailers => some .trailersSent
  | .headersSent, .sendChunkHeader => some .chunkHeaderSent
  | .headersSent, .sendEOM => some .eomQueued
  | .regularBodySent, .sendBody => some .regularBodySent
  | .regularBodySent, .sendTrailers => some .trailersSent
  | .regularBodySent, .sendEOM => some .eomQueued
  | .chunkHeaderSent, .sendBody => some .chunkBodySent
  | .chunkBodySent, .sendBody => some .chunkBodySent
  | .chunkBodySent, .sendChunkTerminator => some .chunkTerminatorSent
  | .chunkTerminatorSent, .sendChunkHeader => some .chunkHeaderSent
  | .chunkTerminatorSent, .sendTrailers => some .trailersSent
  | .chunkTerminatorSent, .sendEOM => some .eomQueued
  | .trailersSent, .sendEOM => some .eomQueued
  | .headersSent, .sendDatagram => some .datagramSent
  | .datagramSent, .sendDatagram => some .datagramSent
  | .datagramSent, .sendTrailers => some .trailersSent
  | .datagramSent, .sendEOM => some .eomQueued
  | .eomQueued, .eomFlushed => some .sendingDone
  | _, _ => none

structure Chunk where
  length : ℕ
  headerSent : Bool := false
  deriving DecidableEq

inductive EgressTask
  /-- a call of the transport or of the handler, until it returns -/
  | callback
  | notifyTransportPendingEgress
  | updateHandlerPauseState
  /-- `markEgressComplete` behind its call of the transport -/
  | egressComplete
  /-- `sendAbortImpl` behind `markEgressComplete` -/
  | abort
  /-- `sendEOMNow` behind `sendEOM` of the transport -/
  | eomSent
  /-- `sendBodyNow` behind `notifyEgressBodyBuffered` -/
  | bodyBuffered (length : ℕ) (sendEom : Bool)
  /-- `sendBodyNow` behind `sendBody` of the transport -/
  | bodySent (sendEom : Bool)
  /-- the end of `sendBodyNow` -/
  | noErrorIfComplete
  /-- the loop of `sendDeferredBody` behind `sendChunkHeader` of the transport -/
  | chunkBody (canSend : ℕ)
  /-- behind `sendBodyNow` -/
  | chunkSent (canSend : ℕ)
  /-- behind `sendChunkTerminator` of the transport -/
  | chunkPop (canSend : ℕ)
  /-- `onWriteReady` returns; it began when `passed` body bytes and ends had been passed on -/
  | writeReadyDone (passed : ℕ)
  deriving DecidableEq

structure Egress where
  isUpstream : Bool
  useFlowControl : Bool
  supportsParallelRequests : Bool
  handler : Bool := true
  egressBufferLimit : ℕ
  sendWindow : Window
  egressState : EgressState := .start
  deferredEgressBody : ℕ := 0
  chunkHeaders : List Chunk := []
  trailers : Bool := false
  isEnqueued : Bool := false
  egressPaused : Bool := false
  handlerEgressPaused : Bool := false
  /-- the last response is not a final one -/
  extraResponseExpected : Bool := true
  ingressErrorSeen : Bool := false
  aborted : Bool := false
  deferredNoError : Bool := false
  /-- body bytes and ends of messages passed to the transport -/
  passed : ℕ := 0
  agenda : List EgressTask := []
  deriving DecidableEq

namespace Egress

def isEgressEOMQueued (s : Egress) : Bool := s.egressState = .eomQueued

def isEgressComplete (s : Egress) : Bool := s.egressState = .sendingDone

def isEgressEOMSeen (s : Egress) : Bool := s.isEgressEOMQueued || s.isEgressComplete

def hasPendingEOM (s : Egress) : Bool := s.isEgressEOMQueued && s.deferredEgressBody = 0

def isExpectingWindowUpdate (s : Egress) : Bool :=
  !s.isEgressComplete && s.useFlowControl && s.sendWindow.getSize ≤ 0

def canSendHeaders (s : Egress) : Bool :=
  s.egressState = .start ||
    (!s.isUpstream && (s.egressState.transit .sendHeaders).isSome && s.extraResponseExpected)

def push (s : Egress) (tasks : List EgressTask) : Egress := {s with agenda := tasks++s.agenda}

/-! ## The end of egress -/

def egressComplete (s : Egress) : Egress :=
  {s with deferredEgressBody := 0, isEnqueued := false, egressState := .sendingDone}

def markEgressComplete (s : Egress) : Egress :=
  if 0 < s.deferredEgressBody then s.push [.callback,.egressComplete] else s.egressComplete

def sendAbortImpl (s : Egress) : Egress := (s.push [.abort]).markEgressComplete

def sendAbort (s : Egress) (statusCode : ErrorCode) : Egress :=
  if statusCode = .noError then
    let canSendNoError := !s.isUpstream && (s.egressState = .eomQueued || s.egressState = .sendingDone)
    let s := {s with deferredNoError := canSendNoError && s.egressState = .eomQueued}
    if s.deferredNoError then s else s.sendAbortImpl
  else s.sendAbortImpl

def maybeSendDeferredNoError (s : Egress) : Egress :=
  if s.deferredNoError then {s with deferredNoError := false}.sendAbortImpl else s

def invariantViolation (s : Egress) : Egress := (s.push [.callback]).sendAbortImpl

def validateEgressStateTransition (s : Egress) (event : EgressEvent) (next : Egress → Egress) : Egress :=
  match s.egressState.transit event with
  | none => s.invariantViolation
  | some state => next {s with egressState := state}

/-! ## The queue -/

def notifyTransportPendingEgress (s : Egress) : Egress :=
  if (0 < s.deferredEgressBody ∨ s.isEgressEOMQueued) ∧ (!s.useFlowControl ∨ 0 < s.sendWindow.getSize) then
    if s.isEnqueued then s.push [.updateHandlerPauseState]
    else {s with isEnqueued := true}.push [.callback,.updateHandlerPauseState]
  else {s with isEnqueued := false}.push [.updateHandlerPauseState]

def updateHandlerPauseState (s : Egress) : Egress :=
  if s.isEgressEOMSeen then s
  else
    let flowControlPaused := s.useFlowControl && s.sendWindow.getSize-s.deferredEgressBody ≤ 0
    let bufferFull := s.egressBufferLimit < s.deferredEgressBody
    let handlerShouldBePaused := s.egressPaused || flowControlPaused || bufferFull
    if s.handler && handlerShouldBePaused != s.handlerEgressPaused then
      if handlerShouldBePaused && s.canSendHeaders then s
      else {s with handlerEgressPaused := handlerShouldBePaused}.push [.callback]
    else s

/-! ## Writing -/

def sendEOMNow (s : Egress) : Egress :=
  s.validateEgressStateTransition .eomFlushed fun s => {s with passed := s.passed+1}.push [.callback,.eomSent]

/-- The send window, if there is flow control; `none` if the CHECK fails. -/
def reserve (s : Egress) (length : ℕ) : Option Window :=
  if s.useFlowControl then s.sendWindow.reserve length else some s.sendWindow

def fail (s : Egress) : Egress := {s with agenda := []}

def split (s : Egress) (n : ℕ) : Egress := {s with deferredEgressBody := s.deferredEgressBody-n}

def sendBodyNow (s : Egress) (length : ℕ) (sendEom : Bool) : Egress :=
  match s.reserve length with
  | none => s.fail
  | some sendWindow => {s with sendWindow}.push [.callback,.bodyBuffered length sendEom]

/-- `sendBodyNow` behind `notifyEgressBodyBuffered`. -/
def bodyBuffered (s : Egress) (length : ℕ) (sendEom : Bool) : Egress :=
  if sendEom && !s.trailers then
    s.validateEgressStateTransition .eomFlushed fun s =>
      {s with passed := s.passed+(length+1)}.push [.callback,.bodySent sendEom]
  else if s.ingressErrorSeen && s.isExpectingWindowUpdate then
    -- `onError` aborts with a flow control error and tells the handler
    (s.push [.callback]).sendAbort .flowControlError
  else {s with passed := s.passed+length}.push [.callback,.bodySent sendEom]

def bodySent (s : Egress) (sendEom : Bool) : Egress :=
  let s := s.push [.noErrorIfComplete]
  if sendEom && s.trailers then s.sendEOMNow else s

def chunkBody (s : Egress) (canSend : ℕ) : Egress :=
  match s.chunkHeaders with
  | [] => s
  | chunk::chunkHeaders =>
    let s := {s with chunkHeaders := {chunk with headerSent := true}::chunkHeaders}
    let curLen := min chunk.length canSend
    -- `split` throws if there is not enough
    if s.deferredEgressBody < curLen then s.fail
    else ((s.split curLen).push [.chunkSent canSend]).sendBodyNow curLen false

/-- The head of the loop over the chunks, and what comes behind it. -/
def chunkLoop (s : Egress) (canSend : ℕ) : Egress :=
  match s.chunkHeaders with
  | [] => if s.hasPendingEOM then s.sendEOMNow else s
  | chunk::_ =>
    if canSend=0 then if s.hasPendingEOM then s.sendEOMNow else s
    else if chunk.headerSent then s.chunkBody canSend
    else s.push [.callback,.chunkBody canSend]

def chunkSent (s : Egress) (canSend : ℕ) : Egress :=
  match s.chunkHeaders with
  | [] => s
  | chunk::chunkHeaders =>
    -- the same chunk, so the same length as in `chunkBody`
    let curLen := min chunk.length canSend
    let s := {s with chunkHeaders := {chunk with length := chunk.length-curLen}::chunkHeaders}
    if chunk.length-curLen = 0 then s.push [.callback,.chunkPop (canSend-curLen)]
    else s.chunkLoop (canSend-curLen)

def chunkPop (s : Egress) (canSend : ℕ) : Egress := {s with chunkHeaders := s.chunkHeaders.tail}.chunkLoop canSend

def sendDeferredBody (s : Egress) (maxEgress : ℕ) : Egress :=
  let sendWindow := if s.useFlowControl then min maxEgress s.sendWindow.getSize.toNat else maxEgress
  if ¬((0 < s.deferredEgressBody ∨ s.isEgressEOMQueued) ∧ 0 < sendWindow) then s.invariantViolation
  else
    let canSend := min sendWindow s.deferredEgressBody
    let s := s.push [.notifyTransportPendingEgress,.callback]
    if s.chunkHeaders=[] then
      if 0 < s.deferredEgressBody then
        let s := s.split canSend
        s.sendBodyNow canSend s.hasPendingEOM
      else s
    else s.chunkLoop canSend

def onWriteReady (s : Egress) (maxEgress : ℕ) : Egress :=
  (s.push [.writeReadyDone s.passed]).sendDeferredBody maxEgress

/-! ## Calls -/

/-- `none` is a call without a body. -/
def sendBody (s : Egress) (body : Option ℕ) : Egress :=
  s.validateEgressStateTransition .sendBody fun s =>
    match body with
    | none => s.push [.notifyTransportPendingEgress]
    | some length =>
      {s with deferredEgressBody := s.deferredEgressBody+length}.push [.callback,.notifyTransportPendingEgress]

def sendHeaders (s : Egress) (isFinal : Bool) : Egress :=
  s.validateEgressStateTransition .sendHeaders fun s =>
    {s with extraResponseExpected := !isFinal}.push [.callback]

def sendChunkHeader (s : Egress) (length : ℕ) : Egress :=
  s.validateEgressStateTransition .sendChunkHeader fun s =>
    if s.supportsParallelRequests then s else {s with chunkHeaders := s.chunkHeaders++[{length}]}

def sendChunkTerminator (s : Egress) : Egress := s.validateEgressStateTransition .sendChunkTerminator id

def sendTrailers (s : Egress) : Egress :=
  s.validateEgressStateTransition .sendTrailers fun s => {s with trailers := true}

def sendEOM (s : Egress) : Egress :=
  s.validateEgressStateTransition .sendEOM fun s =>
    if s.deferredEgressBody=0 ∧ s.chunkHeaders=[] then
      if s.isEnqueued then s else (s.push [.callback]).sendEOMNow
    else s.push [.notifyTransportPendingEgress]

def setEgressPaused (s : Egress) (egressPaused : Bool) : Egress :=
  if s.egressPaused=egressPaused then s else {s with egressPaused}.push [.updateHandlerPauseState]

def changeWindow (s : Egress) (window : Option Window) : Egress :=
  if s.useFlowControl then
    match window with
    | some sendWindow => {s with sendWindow}.push [.notifyTransportPendingEgress]
    | none => (s.push [.callback]).sendAbort .flowControlError
  else s

def onIngressWindowUpdate (s : Egress) (amount : UInt32) : Egress := s.changeWindow (s.sendWindow.free amount.toNat)

def onIngressSetSendWindow (s : Egress) (newWindowSize : UInt32) : Egress :=
  s.changeWindow (s.sendWindow.setCapacity newWindowSize.toNat)

/-- What the handler, or the session in the handler's name, may call at any time. -/
inductive Call
  | sendHeaders (isFinal : Bool)
  | sendBody (body : Option ℕ)
  | sendChunkHeader (length : ℕ)
  | sendChunkTerminator
  | sendTrailers
  | sendEOM
  | sendAbort (statusCode : ErrorCode)
  | setEgressPaused (egressPaused : Bool)
  deriving DecidableEq

def call (s : Egress) : Call → Egress
  | .sendHeaders isFinal => s.sendHeaders isFinal
  | .sendBody body => s.sendBody body
  | .sendChunkHeader length => s.sendChunkHeader length
  | .sendChunkTerminator => s.sendChunkTerminator
  | .sendTrailers => s.sendTrailers
  | .sendEOM => s.sendEOM
  | .sendAbort statusCode => s.sendAbort statusCode
  | .setEgressPaused egressPaused => s.setEgressPaused egressPaused

def start (isUpstream useFlowControl supportsParallelRequests handler : Bool) (egressBufferLimit : ℕ)
    (initial : Fin (2^31)) : Egress :=
  {isUpstream, useFlowControl, supportsParallelRequests, handler, egressBufferLimit, sendWindow := ⟨initial,0⟩}

/-! ## Steps -/

def run (s : Egress) : EgressTask → Egress
  | .callback => s
  | .notifyTransportPendingEgress => s.notifyTransportPendingEgress
  | .updateHandlerPauseState => s.updateHandlerPauseState
  | .egressComplete => s.egressComplete
  | .abort => if s.aborted then s else {s with aborted := true}.push [.callback]
  | .eomSent => {s with trailers := false}.maybeSendDeferredNoError
  | .bodyBuffered length sendEom => s.bodyBuffered length sendEom
  | .bodySent sendEom => s.bodySent sendEom
  | .noErrorIfComplete => if s.isEgressComplete then s.maybeSendDeferredNoError else s
  | .chunkBody canSend => s.chunkBody canSend
  | .chunkSent canSend => s.chunkSent canSend
  | .chunkPop canSend => s.chunkPop canSend
  | .writeReadyDone _ => s

inductive Step
  /-- at top level, or from a callback -/
  | call (c : Call)
  /-- the next task of the agenda; a callback returns -/
  | advance
  /-- by the session at top level, for a transaction in the queue -/
  | onWriteReady (maxEgress : ℕ)
  | onIngressWindowUpdate (amount : UInt32)
  | onIngressSetSendWindow (newWindowSize : UInt32)
  | ingressError
  deriving DecidableEq

def step (s : Egress) : Step → Egress
  | .call c => if s.agenda=[] ∨ s.agenda.head? = some .callback then s.call c else s
  | .advance =>
    match s.agenda with
    | [] => s
    | task::agenda => {s with agenda}.run task
  | .onWriteReady maxEgress =>
    if s.agenda=[] ∧ s.isEnqueued ∧ 0 < maxEgress then s.onWriteReady maxEgress else s
  | .onIngressWindowUpdate amount => if s.agenda=[] then s.onIngressWindowUpdate amount else s
  | .onIngressSetSendWindow newWindowSize => if s.agenda=[] then s.onIngressSetSendWindow newWindowSize else s
  | .ingressError => if s.agenda=[] then {s with ingressErrorSeen := true} else s

end Egress

end QuicWestwood.HTTP
