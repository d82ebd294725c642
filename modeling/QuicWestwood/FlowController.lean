import QuicWestwood.StreamTypes

/-! How far the peer may send is raised in two steps: an update is queued when enough of the window has been
read, and the limit follows when the update is written into a packet. -/
namespace QuicWestwood

def calculateNewWindowUpdate (curReadOffset curAdvertisedOffset windowSize : ℕ) (srtt : ℤ)
    (transportSettings : FlowControlSettings) (lastSendTime : Option ℤ) (updateTime : ℤ) : Option ℕ :=
  let nextAdvertisedOffset := (curReadOffset+windowSize) % kU64
  let enoughTimeElapsed := match lastSendTime with
    | none => false
    | some last => last < updateTime ∧
        updateTime-last > transportSettings.flowControlRttFrequency*srtt*1000
  if nextAdvertisedOffset=curAdvertisedOffset then none
  else if !transportSettings.disableFlowControlTimeBasedUpdates && enoughTimeElapsed &&
      !transportSettings.autotuneReceiveConnFlowControl then some nextAdvertisedOffset
  else if subU64 curAdvertisedOffset curReadOffset*transportSettings.flowControlWindowFrequency % kU64 <
      windowSize then some nextAdvertisedOffset
  else none

def flowControlStateOverflow : Failure :=
  .quicInternalException "flow control state overflow" .internalError

def incrementWithOverFlowCheck (num diff : ℕ) : Except Failure ℕ :=
  if num > kU64-1-diff then .error flowControlStateOverflow else .ok (num+diff)

def decrementWithOverFlowCheck (num diff : ℕ) : Except Failure ℕ :=
  if num<diff then .error flowControlStateOverflow else .ok (num-diff)

def calculateMaximumData (stream : QuicStreamState) : ℕ :=
  max ((stream.currentReadOffset+stream.flowControlState.windowSize) % kU64)
    stream.flowControlState.advertisedMaxOffset

def maybeIncreaseFlowControlWindow (timeOfLastFlowControlUpdate : Option ℤ) (updateTime srtt : ℤ)
    (windowSize : ℕ) : Except Failure ℕ :=
  match timeOfLastFlowControlUpdate with
  | none => .ok windowSize
  | some last =>
    if srtt=0 then .ok windowSize
    else if updateTime≤last then .error .checkFailed
    else if (updateTime-last).tdiv 1000 < 2*srtt then .ok (windowSize*2 % kU64)
    else .ok windowSize

namespace StreamConnection

def queueWindowUpdate (conn : StreamConnection) (id : StreamId) : StreamConnection :=
  {conn with windowUpdates := conn.windowUpdates.insert id}

def removeWindowUpdate (conn : StreamConnection) (id : StreamId) : StreamConnection :=
  {conn with windowUpdates := conn.windowUpdates.filter (·≠id)}

def maybeIncreaseConnectionFlowControlWindow (conn : StreamConnection) (updateTime : ℤ) :
    Outcome Failure StreamConnection :=
  match maybeIncreaseFlowControlWindow conn.flowControlState.timeOfLastFlowControlUpdate updateTime conn.srtt
      conn.flowControlState.windowSize with
  | .ok windowSize => .done {conn with flowControlState := {conn.flowControlState with windowSize}}
  | .error e => .fail e conn

def maybeSendConnWindowUpdate (conn : StreamConnection) (updateTime : ℤ) : Outcome Failure StreamConnection :=
  if conn.connWindowUpdate then .done conn
  else
    match calculateNewWindowUpdate conn.flowControlState.sumCurReadOffset conn.flowControlState.advertisedMaxOffset
        conn.flowControlState.windowSize conn.srtt conn.transportSettings
        conn.flowControlState.timeOfLastFlowControlUpdate updateTime with
    | none => .done conn
    | some _ =>
      if conn.transportSettings.autotuneReceiveConnFlowControl then
        {conn with connWindowUpdate := true}.maybeIncreaseConnectionFlowControlWindow updateTime
      else .done {conn with connWindowUpdate := true}

def handleConnBlocked (conn : StreamConnection) : StreamConnection := {conn with connWindowUpdate := true}

def onConnWindowUpdateSent (conn : StreamConnection) (maximumDataSent : ℕ) (sentTime : ℤ) : StreamConnection :=
  {conn with
    flowControlState := {conn.flowControlState with
      advertisedMaxOffset := maximumDataSent
      timeOfLastFlowControlUpdate := some sentTime}
    connWindowUpdate := false}

def onConnWindowUpdateLost (conn : StreamConnection) : StreamConnection := {conn with connWindowUpdate := true}

def generateMaxDataFrame (conn : StreamConnection) : ℕ :=
  max ((conn.flowControlState.sumCurReadOffset+conn.flowControlState.windowSize) % kU64)
    conn.flowControlState.advertisedMaxOffset

end StreamConnection

namespace ConnStream

def maybeSendStreamWindowUpdate (s : ConnStream) (updateTime : ℤ) : ConnStream :=
  if !s.stream.shouldSendFlowControl then s
  else if s.conn.windowUpdates.contains s.stream.id then s
  else
    match calculateNewWindowUpdate s.stream.currentReadOffset s.stream.flowControlState.advertisedMaxOffset
        s.stream.flowControlState.windowSize s.conn.srtt s.conn.transportSettings
        s.stream.flowControlState.timeOfLastFlowControlUpdate updateTime with
    | none => s
    | some _ => {s with conn := s.conn.queueWindowUpdate s.stream.id}

def flowControlViolation (message : String) : Failure :=
  .quicTransportException {message, code := .flowControlError}

def updateFlowControlOnStreamData (s : ConnStream) (previousMaxOffsetObserved bufferEndOffset : ℕ) :
    Outcome Failure ConnStream :=
  if s.stream.flowControlState.advertisedMaxOffset<bufferEndOffset then
    .fail (flowControlViolation s!"Stream flow control violation on stream {s.stream.id}") s
  else
    match incrementWithOverFlowCheck s.conn.flowControlState.sumMaxObservedOffset
        (max previousMaxOffsetObserved bufferEndOffset-previousMaxOffsetObserved) with
    | .error e => .fail e s
    | .ok connMaxObservedOffset =>
      if connMaxObservedOffset > s.conn.flowControlState.advertisedMaxOffset then
        .fail (flowControlViolation "Connection flow control violation") s
      else
        .done {s with conn := {s.conn with flowControlState := {s.conn.flowControlState with
          sumMaxObservedOffset := connMaxObservedOffset}}}

def updateFlowControlOnRead (s : ConnStream) (lastReadOffset : ℕ) (readTime : ℤ) : Outcome Failure ConnStream :=
  match incrementWithOverFlowCheck s.conn.flowControlState.sumCurReadOffset
      (s.stream.currentReadOffset-lastReadOffset) with
  | .error e => .fail e s
  | .ok sumCurReadOffset =>
    (Outcome.within (fun conn => {s with conn})
      ({s.conn with flowControlState := {s.conn.flowControlState with sumCurReadOffset}}.maybeSendConnWindowUpdate
        readTime)).andThen fun s => .done (s.maybeSendStreamWindowUpdate readTime)

def updateFlowControlOnResetStream (s : ConnStream) : Outcome Failure ConnStream :=
  match decrementWithOverFlowCheck s.conn.flowControlState.sumCurStreamBufferLen
      (s.stream.pendingWrites.length+s.stream.writeBufMeta.length) with
  | .error e => .fail e s
  | .ok sumCurStreamBufferLen =>
    .done {s with conn := {s.conn with flowControlState := {s.conn.flowControlState with
      sumCurStreamBufferLen}}}

/-- `now` is the reading of the clock in this call. -/
def handleStreamBlocked (s : ConnStream) (now : ℤ) : Outcome Failure ConnStream :=
  if s.conn.transportSettings.autotuneReceiveStreamFlowControl then
    match maybeIncreaseFlowControlWindow s.stream.flowControlState.timeOfLastFlowControlUpdate now s.conn.srtt
        s.stream.flowControlState.windowSize with
    | .error e => .fail e s
    | .ok windowSize =>
      .done ⟨s.conn.queueWindowUpdate s.stream.id,
        {s.stream with flowControlState := {s.stream.flowControlState with windowSize}}⟩
  else .done {s with conn := s.conn.queueWindowUpdate s.stream.id}

def onStreamWindowUpdateSent (s : ConnStream) (maximumDataSent : ℕ) (sentTime : ℤ) : ConnStream :=
  ⟨s.conn.removeWindowUpdate s.stream.id,{s.stream with flowControlState := {s.stream.flowControlState with
        advertisedMaxOffset := maximumDataSent
        timeOfLastFlowControlUpdate := some sentTime}}⟩

def onStreamWindowUpdateLost (s : ConnStream) : ConnStream :=
  if !s.stream.shouldSendFlowControl then s
  else {s with conn := s.conn.queueWindowUpdate s.stream.id}

def generateMaxStreamDataFrame (s : ConnStream) : ℕ := calculateMaximumData s.stream

end ConnStream

/-! ## What a read does -/

def StreamConnection.afterRead (conn : StreamConnection) (length : ℕ) (queued : Bool) (updates : List StreamId) :
    StreamConnection :=
  {conn with
    flowControlState := {conn.flowControlState with
      sumCurReadOffset := conn.flowControlState.sumCurReadOffset+length}
    connWindowUpdate := queued
    windowUpdates := updates}

lemma maybeSendConnWindowUpdate_spec (conn : StreamConnection) (time : ℤ)
    (htuning : conn.transportSettings.autotuneReceiveConnFlowControl=false) :
    ∃ queued,conn.maybeSendConnWindowUpdate time = .done {conn with connWindowUpdate := queued} ∧
      (conn.connWindowUpdate=true → queued=true) ∧
      (queued=true ∨ calculateNewWindowUpdate conn.flowControlState.sumCurReadOffset
        conn.flowControlState.advertisedMaxOffset conn.flowControlState.windowSize conn.srtt
        conn.transportSettings conn.flowControlState.timeOfLastFlowControlUpdate time = none) := by
  unfold StreamConnection.maybeSendConnWindowUpdate
  by_cases hqueued : conn.connWindowUpdate=true
  · exact ⟨true,by rw [if_pos hqueued,← hqueued],fun _ => rfl,.inl rfl⟩
  · rw [if_neg hqueued]
    split
    · rename_i hnone
      exact ⟨conn.connWindowUpdate,rfl,id,.inr hnone⟩
    · exact ⟨true,if_neg (by rw [htuning]; decide),fun _ => rfl,.inl rfl⟩

lemma maybeSendStreamWindowUpdate_spec (s : ConnStream) (time : ℤ) :
    ∃ updates,s.maybeSendStreamWindowUpdate time = {s with conn := {s.conn with windowUpdates := updates}} ∧
      (∀ id ∈ s.conn.windowUpdates,id ∈ updates) ∧ (s.stream.recvState = .Open → s.stream.id ∈ updates ∨
        calculateNewWindowUpdate s.stream.currentReadOffset s.stream.flowControlState.advertisedMaxOffset
          s.stream.flowControlState.windowSize s.conn.srtt s.conn.transportSettings
          s.stream.flowControlState.timeOfLastFlowControlUpdate time = none) := by
  unfold ConnStream.maybeSendStreamWindowUpdate
  split_ifs with hclosed hqueued
  · refine ⟨_,rfl,fun _ => id,fun hopen => ?_⟩
    simp [QuicStreamState.shouldSendFlowControl,hopen] at hclosed
  · exact ⟨_,rfl,fun _ => id,fun _ => .inl (by simpa using hqueued)⟩
  · split
    · rename_i hnone
      exact ⟨_,rfl,fun _ => id,fun _ => .inr hnone⟩
    · refine ⟨_,rfl,fun id hid => ?_,fun _ => .inl ?_⟩
      · exact List.mem_insert_of_mem hid
      · exact List.mem_insert_self

lemma updateFlowControlOnRead_spec (s : ConnStream) (lastReadOffset : ℕ) (time : ℤ) {length : ℕ}
    (hlength : s.stream.currentReadOffset-lastReadOffset = length)
    (htuning : s.conn.transportSettings.autotuneReceiveConnFlowControl=false)
    (hsum : s.conn.flowControlState.sumCurReadOffset+length < kU64) :
    ∃ queued updates,s.updateFlowControlOnRead lastReadOffset time =
        .done ⟨s.conn.afterRead length queued updates,s.stream⟩ ∧
      (s.conn.connWindowUpdate=true → queued=true) ∧
      (queued=true ∨ calculateNewWindowUpdate (s.conn.flowControlState.sumCurReadOffset+length)
        s.conn.flowControlState.advertisedMaxOffset s.conn.flowControlState.windowSize s.conn.srtt
        s.conn.transportSettings s.conn.flowControlState.timeOfLastFlowControlUpdate time = none) ∧
      (∀ id ∈ s.conn.windowUpdates,id ∈ updates) ∧ (s.stream.recvState = .Open → s.stream.id ∈ updates ∨
        calculateNewWindowUpdate s.stream.currentReadOffset s.stream.flowControlState.advertisedMaxOffset
          s.stream.flowControlState.windowSize s.conn.srtt s.conn.transportSettings
          s.stream.flowControlState.timeOfLastFlowControlUpdate time = none) := by
  have hinc : incrementWithOverFlowCheck s.conn.flowControlState.sumCurReadOffset
      (s.stream.currentReadOffset-lastReadOffset) = .ok (s.conn.flowControlState.sumCurReadOffset+length) := by
    rw [hlength]
    exact if_neg (by omega)
  obtain ⟨queued,hsend,hmono,hconn⟩ := maybeSendConnWindowUpdate_spec
    (s.conn.afterRead length s.conn.connWindowUpdate s.conn.windowUpdates) time htuning
  obtain ⟨updates,hupdates,hmem,hstream⟩ := maybeSendStreamWindowUpdate_spec
    ⟨s.conn.afterRead length queued s.conn.windowUpdates,s.stream⟩ time
  refine ⟨queued,updates,?_,hmono,hconn,hmem,hstream⟩
  unfold ConnStream.updateFlowControlOnRead
  rw [hinc]
  show (Outcome.within _ ((s.conn.afterRead length s.conn.connWindowUpdate
    s.conn.windowUpdates).maybeSendConnWindowUpdate time)).andThen _ = _
  rw [hsend]
  exact congrArg Outcome.done hupdates

end QuicWestwood
