import QuicWestwood.StreamSend

/-! Received segments are merged into `readBuffer`, whose entries should never overlap or touch; reads take
bytes from its front. The sets of readable and peekable streams are not part of this model. -/
namespace QuicWestwood
open ByteCodec

/-! ## Merging a segment -/

namespace StreamBuffer

def append (buffer : StreamBuffer) (data : Bytes) : StreamBuffer := {buffer with data := buffer.data++data}

end StreamBuffer

/-- The state of the merge loop. `front` is what lies before `startOverlap`, or everything passed if that is
not set; `overlap` holds the entries from `startOverlap` to `endOverlap` and those passed since. If
`inserted`, `current` is the entry of the buffer after `front`. -/
structure MergeState where
  front : List StreamBuffer
  current : StreamBuffer
  inserted : Bool := false
  overlap : Option (List StreamBuffer × List StreamBuffer) := none

namespace MergeState

/-- `it` becomes the last of the overlapping entries. -/
def extendOverlap (s : MergeState) (it : StreamBuffer) : MergeState :=
  match s.overlap with
  | none => {s with overlap := some ([it],[])}
  | some (overlapping,passed) => {s with overlap := some (overlapping++passed++[it],[])}

/-- The buffer after the loop; `rest` are the entries it has not passed. -/
def finish (s : MergeState) (rest : List StreamBuffer) : List StreamBuffer :=
  match s.overlap with
  | some (_,passed) => s.front++s.current::(passed++rest)
  | none =>
    if s.inserted then s.front++s.current::rest
    else
      match (s.front++rest).getLast? with
      | none => []
      | some last => if last.endOffset < s.current.offset then s.front++rest++[s.current] else s.front++rest

/-- The loop over the entries from the first one that ends at or after the segment's offset. -/
def merge (s : MergeState) : List StreamBuffer → List StreamBuffer
  | [] => s.finish []
  | it::rest =>
    let currentEnd := s.current.endOffset
    let itEnd := it.endOffset
    if s.current.offset=it.offset ∧ currentEnd=itEnd then
      -- exact overlap
      s.finish (it::rest)
    else if it.offset ≤ s.current.offset ∧ currentEnd ≤ itEnd then
      -- subset overlap
      s.finish (it::rest)
    else if s.current.offset ≤ it.offset ∧ it.offset ≤ currentEnd ∧ currentEnd ≤ itEnd then
      -- left overlap
      ({s with current := s.current.append (it.data.drop (currentEnd-it.offset))}.extendOverlap it).finish rest
    else if s.current.offset < it.offset ∧ currentEnd < it.offset then
      -- left, no overlap
      {s with overlap := some (s.overlap.getD ([],[]))}.finish (it::rest)
    else if s.current.offset ≤ it.offset ∧ it.offset < currentEnd then
      -- complete overlap
      (s.extendOverlap it).merge rest
    else if it.offset ≤ s.current.offset ∧ s.current.offset ≤ itEnd ∧ itEnd < currentEnd then
      -- right overlap: the entry takes over
      let left := if s.inserted then [{s.current with data := []}] else []
      let passed := (s.overlap.getD ([],[])).1++(s.overlap.getD ([],[])).2
      merge
        {front := s.front++left++passed
         current := it.append (s.current.data.drop (itEnd-s.current.offset))
         inserted := true
         overlap := some ([],[])} rest
    else
      match s.overlap with
      | none => merge {s with front := s.front++[it]} rest
      | some (overlapping,passed) => merge {s with overlap := some (overlapping,passed++[it])} rest

end MergeState

def StreamBuffer.trimTo (buffer : StreamBuffer) (currentReadOffset : ℕ) : StreamBuffer :=
  if buffer.offset < currentReadOffset then
    {data := buffer.data.drop (currentReadOffset-buffer.offset), offset := currentReadOffset, eof := buffer.eof}
  else buffer

def mergeIntoReadBuffer (readBuffer : List StreamBuffer) (current : StreamBuffer) : List StreamBuffer :=
  if current.data=[] then readBuffer
  else if readBuffer=[] then [current]
  else
    MergeState.merge
      {front := readBuffer.takeWhile fun entry => entry.endOffset < current.offset
       current := current}
      (readBuffer.dropWhile fun entry => entry.endOffset < current.offset)

/-- The part of `appendDataToReadBufferCommon` that changes the buffer. -/
def insertIntoReadBuffer (readBuffer : List StreamBuffer) (currentReadOffset : ℕ) (buffer : StreamBuffer) :
    List StreamBuffer := mergeIntoReadBuffer readBuffer (buffer.trimTo currentReadOffset)

/-- What the read loop has done: the bytes taken, the offset reached, and the buffer that is left. -/
structure ReadState where
  data : Bytes := []
  currentReadOffset : ℕ
  readBuffer : List StreamBuffer

/-! ## Receiving -/

def ReadStreamFrame.endOffset (frame : ReadStreamFrame) : ℕ := frame.offset+frame.data.length

namespace QuicStreamState

/-- The final size after a segment, or the message of the exception. -/
def checkFinalSize (stream : QuicStreamState) (buffer : StreamBuffer) : Except String (Option ℕ) :=
  if buffer.eof then
    if ∃ finalReadOffset ∈ stream.finalReadOffset,finalReadOffset≠buffer.endOffset then .error "Invalid EOF"
    else if buffer.endOffset < stream.maxOffsetObserved then .error "EOF in middle of stream"
    else .ok (some buffer.endOffset)
  else if ∃ finalReadOffset ∈ stream.finalReadOffset,finalReadOffset<buffer.endOffset then
    .error "Invalid data after EOF"
  else .ok stream.finalReadOffset

def received (stream : QuicStreamState) (buffer : StreamBuffer) : QuicStreamState :=
  {stream with
    maxOffsetObserved := max stream.maxOffsetObserved buffer.endOffset
    readBuffer := insertIntoReadBuffer stream.readBuffer stream.currentReadOffset buffer}

def afterRead (stream : QuicStreamState) (r : ReadState) : QuicStreamState :=
  {stream with currentReadOffset := r.currentReadOffset, readBuffer := r.readBuffer}

def isAllDataReceived (stream : QuicStreamState) : Bool :=
  match stream.finalReadOffset with
  | none => false
  | some finalReadOffset =>
    decide (finalReadOffset ≤ stream.currentReadOffset) ||
      match stream.readBuffer with
      | [entry] => stream.currentReadOffset = entry.offset && entry.endOffset = finalReadOffset
      | _ => false

end QuicStreamState

/-- The code with which an exception closes the connection, if it is one of the transport. -/
def Failure.transportError : Failure → Option TransportErrorCode
  | .quicTransportException exception => some exception.code
  | _ => none

namespace ConnStream

def finalSizeViolation (message : String) : Failure :=
  .quicTransportException {message, code := .finalSizeError}

def setFinalReadOffset (s : ConnStream) (finalReadOffset : Option ℕ) : ConnStream :=
  {s with stream := {s.stream with finalReadOffset}}

def appendDataToReadBuffer (s : ConnStream) (buffer : StreamBuffer) : Outcome Failure ConnStream :=
  if buffer.eof=false ∧ buffer.data=[] then .done s
  else
    match s.stream.checkFinalSize buffer with
    | .error message => .fail (finalSizeViolation message) s
    | .ok finalReadOffset =>
      ((s.setFinalReadOffset finalReadOffset).updateFlowControlOnStreamData s.stream.maxOffsetObserved
        buffer.endOffset).andThen fun s => .done {s with stream := s.stream.received buffer}

def addClosed (s : ConnStream) : ConnStream :=
  {s with conn := {s.conn with closedStreams := s.conn.closedStreams.insert s.stream.id}}

/-- `recvState = Closed`, and the stream is handed over for removal if it is terminal. -/
def closeReceive (s : ConnStream) : ConnStream :=
  let s := {s with stream := {s.stream with recvState := .Closed}}
  if s.stream.inTerminalStates then s.addClosed else s

def receiveReadStreamFrameSMHandler (s : ConnStream) (frame : ReadStreamFrame) : Outcome Failure ConnStream :=
  match s.stream.recvState with
  | .Open => (s.appendDataToReadBuffer ⟨frame.data,frame.offset,frame.fin⟩).andThen fun s =>
    .done (if s.stream.isAllDataReceived then s.closeReceive else s)
  | .Closed => if isSendingStream s.conn.nodeType s.stream.id then .fail .checkFailed s else .done s
  | .Invalid => .fail (invalidTransition "Invalid") s

/-- What a reset of the peer leaves of the receiving side. -/
def dropReceived (s : ConnStream) (frame : RstStreamFrame) : ConnStream :=
  {s with stream := {s.stream with
   readBuffer := []
   finalReadOffset := some frame.offset
   streamReadError := some frame.errorCode}}

def skipTo (s : ConnStream) (offset : ℕ) : ConnStream :=
  {s with stream := {s.stream with currentReadOffset := offset, maxOffsetObserved := offset}}

def onResetQuicStream (s : ConnStream) (frame : RstStreamFrame) (now : ℤ) : Outcome Failure ConnStream :=
  match s.stream.finalReadOffset.filter (·≠frame.offset) with
  | some finalReadOffset =>
    .fail (finalSizeViolation s!"Read offset mismatch, {finalReadOffset} != {frame.offset}") s
  | none =>
    if frame.offset < s.stream.maxOffsetObserved then .fail (finalSizeViolation "Reset in middle of stream") s
    else
      (s.updateFlowControlOnStreamData s.stream.maxOffsetObserved frame.offset).andThen fun s =>
        let s := s.dropReceived frame
        if frame.offset < s.stream.currentReadOffset then .done s
        else (s.skipTo frame.offset).updateFlowControlOnRead s.stream.currentReadOffset now

def receiveRstStreamSMHandler (s : ConnStream) (rst : RstStreamFrame) (now : ℤ) : Outcome Failure ConnStream :=
  match s.stream.recvState with
  | .Closed => s.onResetQuicStream rst now
  | .Open => s.closeReceive.onResetQuicStream rst now
  | .Invalid => .fail (invalidTransition "Invalid") s

/-! ## Reading -/

/-- The loop of `readDataInOrderFromReadBuffer`; `amount = 0` reads as much as there is. -/
def readFrom (amount remaining : ℕ) (data : Bytes) (currentReadOffset : ℕ) :
    List StreamBuffer → Except Failure ReadState
  | [] => .ok ⟨data,currentReadOffset,[]⟩
  | curr::rest =>
    if amount≠0 ∧ remaining=0 then .ok ⟨data,currentReadOffset,curr::rest⟩
    else if currentReadOffset < curr.offset then .ok ⟨data,currentReadOffset,curr::rest⟩
    else if curr.offset≠currentReadOffset then .error .checkFailed
    else
      let toRead := min curr.data.length (if amount=0 then curr.data.length else remaining)
      if toRead < curr.data.length then
        -- `remaining` is used up and the loop ends
        .ok ⟨data++curr.data.take toRead,currentReadOffset+toRead,
          {curr with data := curr.data.drop toRead, offset := curr.offset+toRead}::rest⟩
      else readFrom amount (remaining-toRead) (data++curr.data) (currentReadOffset+toRead) rest

/-- The data read, and whether the end of the stream has been reached. -/
def readDataFromQuicStream (s : ConnStream) (amount : ℕ) (now : ℤ) :
    Outcome Failure (ConnStream × Bytes × Bool) :=
  if ∃ finalReadOffset ∈ s.stream.finalReadOffset,finalReadOffset ≤ s.stream.currentReadOffset then
    -- the FIN takes one offset of its own
    .done (⟨s.conn,if s.stream.finalReadOffset = some s.stream.currentReadOffset then s.stream.advanceRead 1
      else s.stream⟩,[],true)
  else
    match readFrom amount amount [] s.stream.currentReadOffset s.stream.readBuffer with
    | .error e => .fail e (s,[],false)
    | .ok r =>
      let credited := updateFlowControlOnRead ⟨s.conn,s.stream.afterRead r⟩ s.stream.currentReadOffset now
      match credited.thrown with
      | some e => .fail e (credited.state,[],false)
      | none =>
        if s.stream.finalReadOffset = some r.currentReadOffset then
          .done (⟨credited.state.conn,credited.state.stream.advanceRead 1⟩,r.data,true)
        else .done (credited.state,r.data,false)

end ConnStream

/-! ## What the flow controller does to the connection -/

namespace StreamConnection

def observed (conn : StreamConnection) (length : ℕ) : StreamConnection :=
  {conn with flowControlState := {conn.flowControlState with
   sumMaxObservedOffset := conn.flowControlState.sumMaxObservedOffset+length}}

def credited (conn : StreamConnection) (length windowSize : ℕ) (queued : Bool) (updates : List StreamId) :
    StreamConnection :=
  {conn with
    flowControlState := {conn.flowControlState with
      sumCurReadOffset := conn.flowControlState.sumCurReadOffset+length
      windowSize := windowSize}
    connWindowUpdate := queued
    windowUpdates := updates}

/-- The clock has moved on since the last window update, as the tuning of the window requires. -/
def ClockAhead (conn : StreamConnection) (now : ℤ) : Prop :=
  conn.transportSettings.autotuneReceiveConnFlowControl = true →
    ∀ last ∈ conn.flowControlState.timeOfLastFlowControlUpdate,last < now

lemma maybeIncreaseConnectionFlowControlWindow_cases (conn : StreamConnection) (now : ℤ) :
    (∃ windowSize,conn.maybeIncreaseConnectionFlowControlWindow now =
      .done {conn with flowControlState := {conn.flowControlState with windowSize}}) ∨
    (∃ last ∈ conn.flowControlState.timeOfLastFlowControlUpdate,now≤last) ∧
      (conn.maybeIncreaseConnectionFlowControlWindow now).thrown = some .checkFailed := by
  unfold maybeIncreaseConnectionFlowControlWindow maybeIncreaseFlowControlWindow
  cases htime : conn.flowControlState.timeOfLastFlowControlUpdate with
  | none => exact .inl ⟨_,rfl⟩
  | some last =>
    dsimp only
    split_ifs with hsrtt hlate hshort
    · exact .inl ⟨_,rfl⟩
    · exact .inr ⟨⟨last,rfl,hlate⟩,rfl⟩
    · exact .inl ⟨_,rfl⟩
    · exact .inl ⟨_,rfl⟩

lemma maybeSendConnWindowUpdate_cases (conn : StreamConnection) (now : ℤ) :
    (∃ windowSize queued,conn.maybeSendConnWindowUpdate now = .done {conn with
        flowControlState := {conn.flowControlState with windowSize}, connWindowUpdate := queued}) ∨
    ¬conn.ClockAhead now ∧ (conn.maybeSendConnWindowUpdate now).thrown = some .checkFailed := by
  unfold maybeSendConnWindowUpdate
  split
  · exact .inl ⟨_,_,rfl⟩
  · split
    · exact .inl ⟨_,_,rfl⟩
    · split
      · rename_i htuned
        rcases maybeIncreaseConnectionFlowControlWindow_cases {conn with connWindowUpdate := true} now with
          ⟨windowSize,heq⟩ | ⟨⟨last,hlast,hle⟩,hthrown⟩
        · exact .inl ⟨windowSize,true,heq⟩
        · exact .inr ⟨fun hclock => absurd (hclock htuned last hlast) (not_lt.mpr hle),hthrown⟩
      · exact .inl ⟨_,_,rfl⟩

end StreamConnection

namespace ConnStream

lemma updateFlowControlOnRead_cases (s : ConnStream) (lastReadOffset : ℕ) (now : ℤ) :
    (∃ windowSize queued updates,s.updateFlowControlOnRead lastReadOffset now =
      .done ⟨s.conn.credited (s.stream.currentReadOffset-lastReadOffset) windowSize queued updates,s.stream⟩) ∨
    (¬s.conn.ClockAhead now ∨
      kU64 ≤ s.conn.flowControlState.sumCurReadOffset+(s.stream.currentReadOffset-lastReadOffset)) ∧
      ∃ e,e.transportError=none ∧ (s.updateFlowControlOnRead lastReadOffset now).thrown = some e := by
  unfold updateFlowControlOnRead incrementWithOverFlowCheck
  split
  · rename_i e hover
    split_ifs at hover with hlt
    obtain rfl := Except.error.inj hover
    exact .inr ⟨.inr (by omega),_,rfl,rfl⟩
  · rename_i sum hsum
    split_ifs at hsum
    obtain rfl := Except.ok.inj hsum
    set read := s.conn.credited (s.stream.currentReadOffset-lastReadOffset) s.conn.flowControlState.windowSize
      s.conn.connWindowUpdate s.conn.windowUpdates
    show (∃ windowSize queued updates,(Outcome.within _ (read.maybeSendConnWindowUpdate now)).andThen _ = _) ∨
      _ ∧ ∃ e,_ ∧ ((Outcome.within _ (read.maybeSendConnWindowUpdate now)).andThen _).thrown = _
    rcases read.maybeSendConnWindowUpdate_cases now with ⟨windowSize,queued,heq⟩ | ⟨hclock,hthrown⟩
    · obtain ⟨updates,hupdates,-⟩ := maybeSendStreamWindowUpdate_spec
        ⟨{read with flowControlState := {read.flowControlState with windowSize}, connWindowUpdate := queued},
          s.stream⟩ now
      rw [heq]
      exact .inl ⟨windowSize,queued,updates,congrArg Outcome.done hupdates⟩
    · refine .inr ⟨.inl hclock,.checkFailed,rfl,?_⟩
      rw [Outcome.andThen_of_some (by exact hthrown)]
      exact hthrown

lemma updateFlowControlOnRead_eq {s : ConnStream} {now : ℤ} (hclock : s.conn.ClockAhead now) {lastReadOffset : ℕ}
    (hsum : s.conn.flowControlState.sumCurReadOffset+(s.stream.currentReadOffset-lastReadOffset) < kU64) :
    ∃ windowSize queued updates,s.updateFlowControlOnRead lastReadOffset now =
      .done ⟨s.conn.credited (s.stream.currentReadOffset-lastReadOffset) windowSize queued updates,s.stream⟩ := by
  refine (s.updateFlowControlOnRead_cases lastReadOffset now).resolve_right fun hfails => ?_
  rcases hfails.1 with hlate | hover
  · exact hlate hclock
  · omega

lemma updateFlowControlOnStreamData_cases (s : ConnStream) (previousMaxOffsetObserved bufferEndOffset : ℕ) :
    (bufferEndOffset ≤ s.stream.flowControlState.advertisedMaxOffset ∧
      s.conn.flowControlState.sumMaxObservedOffset+(bufferEndOffset-previousMaxOffsetObserved) ≤
        s.conn.flowControlState.advertisedMaxOffset ∧
      s.updateFlowControlOnStreamData previousMaxOffsetObserved bufferEndOffset =
        .done {s with conn := s.conn.observed (bufferEndOffset-previousMaxOffsetObserved)}) ∨
    ∃ e,e.transportError≠some .finalSizeError ∧
      s.updateFlowControlOnStreamData previousMaxOffsetObserved bufferEndOffset = .fail e s := by
  have hmax : max previousMaxOffsetObserved bufferEndOffset-previousMaxOffsetObserved =
      bufferEndOffset-previousMaxOffsetObserved := by omega
  unfold updateFlowControlOnStreamData
  rw [hmax]
  split_ifs with hstream
  · exact .inr ⟨_,by simp [Failure.transportError,flowControlViolation],rfl⟩
  · unfold incrementWithOverFlowCheck
    split_ifs with hover
    · exact .inr ⟨_,by decide,rfl⟩
    · dsimp only
      split_ifs with hconn
      · exact .inr ⟨_,by decide,rfl⟩
      · exact .inl ⟨by omega,by omega,rfl⟩

lemma updateFlowControlOnStreamData_of_le {s : ConnStream} {previousMaxOffsetObserved bufferEndOffset : ℕ}
    (hstream : bufferEndOffset ≤ s.stream.flowControlState.advertisedMaxOffset)
    (hconn : s.conn.flowControlState.sumMaxObservedOffset+(bufferEndOffset-previousMaxOffsetObserved) ≤
      s.conn.flowControlState.advertisedMaxOffset)
    (hlimit : s.conn.flowControlState.advertisedMaxOffset<kU64) :
    s.updateFlowControlOnStreamData previousMaxOffsetObserved bufferEndOffset =
      .done {s with conn := s.conn.observed (bufferEndOffset-previousMaxOffsetObserved)} := by
  have hmax : max previousMaxOffsetObserved bufferEndOffset-previousMaxOffsetObserved =
      bufferEndOffset-previousMaxOffsetObserved := by omega
  have hinc : incrementWithOverFlowCheck s.conn.flowControlState.sumMaxObservedOffset
      (bufferEndOffset-previousMaxOffsetObserved) =
      .ok (s.conn.flowControlState.sumMaxObservedOffset+(bufferEndOffset-previousMaxOffsetObserved)) :=
    if_neg (by omega)
  unfold updateFlowControlOnStreamData
  rw [hmax,if_neg (by omega),hinc]
  exact if_neg (by omega)

end ConnStream

end QuicWestwood
