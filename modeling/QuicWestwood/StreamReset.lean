import QuicWestwood.Run
import QuicWestwood.StreamSend
import QuicWestwood.Sweep

/-! Writes and frames of a stream in any order, and then the reset of its sending side. The final size should be
the number of bytes that have left; `appendPendingStreamReset` finds it from offsets of which `resetQuicStream`
has already cleared one. -/
namespace QuicWestwood
open ByteCodec

/-- The length of the frame and whether it carries the FIN. `space` is the room in the packet after
the frame's header; the headers of frames with real data and of those a backend sends are
computed alike. -/
def writeStreamFrameHeader (writeBufferLen flowControlLen space : ℕ) (fin : Bool) :
    Except Failure (Option (ℕ × Bool)) :=
  if writeBufferLen=0 ∧ fin=false then
    .error (.quicInternalException "No data or fin supplied when writing stream." .internalError)
  else
    let dataLen := min (min writeBufferLen flowControlLen) space
    let shouldSetFin := fin && dataLen = writeBufferLen
    if dataLen=0 ∧ shouldSetFin=false then .ok none else .ok (some (dataLen,shouldSetFin))

namespace QuicStreamState

def writeStreamFrame (stream : QuicStreamState) (connWritableBytes space : ℕ) :
    Except Failure (Option (ℕ × Bool)) :=
  let flowControlLen := min stream.getSendStreamFlowControlBytesWire connWritableBytes
  let bufferLen := stream.pendingWrites.length
  let canWriteFin := stream.finalWriteOffset.isSome && decide (bufferLen≤flowControlLen) &&
    stream.writeBufMeta.offset = 0
  writeStreamFrameHeader bufferLen flowControlLen space canWriteFin

def writeDSRStreamFrame (stream : QuicStreamState) (connWritableBytes space : ℕ) :
    Except Failure (Option (ℕ × Bool)) :=
  let streamFlowControlLen := min stream.getSendStreamFlowControlBytesWire
    (subU64 stream.flowControlState.peerAdvertisedMaxOffset stream.writeBufMeta.offset)
  let flowControlLen := min streamFlowControlLen connWritableBytes
  let canWriteFin := stream.finalWriteOffset.isSome && decide (stream.writeBufMeta.length≤flowControlLen)
  writeStreamFrameHeader stream.writeBufMeta.length flowControlLen space canWriteFin

end QuicStreamState

structure Sender extends ConnStream where
  wire : ℕ

inductive SendEvent
  | write (data : Bytes) (eof : Bool)
  | writeBufMeta (length : ℕ) (eof : Bool)
  /-- A packet with `space` for data and a connection that lets `connWritableBytes` through. -/
  | send (connWritableBytes space : ℕ)
  | sendBufMeta (connWritableBytes space : ℕ)
  | windowUpdate (maximumData : UInt64)
  deriving DecidableEq

namespace Sender

def frameWritten (s : Sender) (written : Except Failure QuicStreamState) (length : ℕ) :
    Except Failure Sender := do
  let stream ← written
  let t ← ConnStream.updateFlowControlOnWriteToSocket ⟨s.conn,stream⟩ length
  pure ⟨t,s.wire+length⟩

def sendData (s : Sender) (connWritableBytes space : ℕ) : Except Failure Sender := do
  let writable ← s.stream.hasWritableData
  if writable && 0 < connWritableBytes then
    match ← s.stream.writeStreamFrame connWritableBytes space with
    | none => pure s
    | some (length,fin) => s.frameWritten (s.stream.handleNewStreamDataWritten length fin) length
  else pure s

/-- Real data goes first: nothing is sent from the meta data while real bytes are pending. -/
def sendMeta (s : Sender) (connWritableBytes space : ℕ) : Except Failure Sender := do
  let writable ← s.stream.hasWritableBufMeta
  if s.stream.pendingWrites=[] ∧ writable ∧ 0 < s.stream.writeBufMeta.length ∧ 0 < connWritableBytes then
    match ← s.stream.writeDSRStreamFrame connWritableBytes space with
    | none => pure s
    | some (length,fin) => s.frameWritten (s.stream.handleNewStreamBufMetaWritten length fin) length
  else pure s

/-- The application can only write to a stream that is open and has no end yet. -/
def perform (s : Sender) : SendEvent → Except Failure Sender
  | .write data eof =>
    if s.stream.writable then (⟨·,s.wire⟩) <$> s.writeDataToQuicStream data eof else pure s
  | .writeBufMeta length eof =>
    if s.stream.writable then (⟨·,s.wire⟩) <$> s.writeBufMetaToQuicStream length eof else pure s
  | .send connWritableBytes space => s.sendData connWritableBytes space
  | .sendBufMeta connWritableBytes space => s.sendMeta connWritableBytes space
  | .windowUpdate maximumData =>
    pure {s with stream := s.stream.handleStreamWindowUpdate maximumData.toNat}

structure Fresh (s : Sender) : Prop where
  opened : s.stream.sendState = .Open
  pending : s.stream.pendingWrites=[]
  bufMeta : s.stream.writeBufMeta = {}
  offset : s.stream.currentWriteOffset=0
  final : s.stream.finalWriteOffset=none
  wire : s.wire=0
  limit : s.stream.flowControlState.peerAdvertisedMaxOffset < 2^64
  noReset : s.conn.resets.any (·.streamId = s.stream.id) = false

/-- The offsets and lengths of the stream in terms of the bytes on the wire; `fin` says whether the
FIN has been sent, which takes one offset more. -/
structure Accounted (s : Sender) (fin : Bool) : Prop where
  opened : s.stream.sendState = .Open
  real : s.stream.writeBufMeta.offset=0 ∨ s.stream.pendingWrites≠[] →
    s.stream.currentWriteOffset = s.wire+fin.toNat
  bufMeta : s.stream.writeBufMeta.offset≠0 →
    s.stream.writeBufMeta.offset = s.wire+s.stream.pendingWrites.length+fin.toNat
  noMeta : s.stream.writeBufMeta.offset=0 → s.stream.writeBufMeta.length=0
  final : ∀ f ∈ s.stream.finalWriteOffset,
    f = s.wire+s.stream.pendingWrites.length+s.stream.writeBufMeta.length
  finished : fin=true → s.stream.finalWriteOffset.isSome ∧ s.stream.pendingWrites=[] ∧
    s.stream.writeBufMeta.length = 0
  buffered : s.stream.pendingWrites.length+s.stream.writeBufMeta.length ≤
    s.conn.flowControlState.sumCurStreamBufferLen
  sent : s.wire ≤ s.stream.flowControlState.peerAdvertisedMaxOffset
  limit : s.stream.flowControlState.peerAdvertisedMaxOffset < 2^64
  noReset : s.conn.resets.any (·.streamId = s.stream.id) = false

lemma Fresh.accounted {s : Sender} (h : s.Fresh) : s.Accounted false :=
  {h with
    real := by simp [h.offset,h.wire]
    bufMeta := by simp [h.bufMeta]
    noMeta := by simp [h.bufMeta]
    final := by simp [h.final]
    finished := nofun
    buffered := by simp [h.pending,h.bufMeta]
    sent := by simp [h.wire]}

variable {s : Sender} {fin : Bool}

lemma ends_check (condition : Bool) : Ends (check condition) (fun _ => True) fun _ => condition = true := by
  cases condition
  · trivial
  · rfl

lemma ends_increment (num diff : ℕ) :
    Ends (incrementWithOverFlowCheck num diff) (fun _ => True) (· = num+diff) := by
  unfold incrementWithOverFlowCheck
  split_ifs
  · trivial
  · rfl

lemma ends_writeToStream (t : ConnStream) (length : ℕ) :
    Ends (t.updateFlowControlOnWriteToStream length) (fun _ => True) fun u =>
      ∃ flow,u = ⟨{t.conn with flowControlState := flow},t.stream⟩ ∧
        flow.sumCurStreamBufferLen = t.conn.flowControlState.sumCurStreamBufferLen+length := by
  refine (ends_increment _ length).bind ?_
  rintro _ rfl
  exact ⟨_,rfl,rfl⟩

lemma ends_frameWritten {written : Except Failure QuicStreamState} {length : ℕ} {P : QuicStreamState → Prop}
    (hwritten : Ends written (fun _ => True) P) :
    Ends (s.frameWritten written length) (fun _ => True) fun t => ∃ stream flow,
      t = ⟨⟨{s.conn with flowControlState := flow},stream⟩,s.wire+length⟩ ∧ P stream ∧
        flow.sumCurStreamBufferLen = s.conn.flowControlState.sumCurStreamBufferLen-length := by
  refine hwritten.bind fun stream hstream => ?_
  refine Ends.bind (P := fun u : ConnStream => ∃ flow,u = ⟨{s.conn with flowControlState := flow},stream⟩ ∧
    flow.sumCurStreamBufferLen = s.conn.flowControlState.sumCurStreamBufferLen-length) ?_ ?_
  · refine (ends_increment _ length).bind ?_
    rintro _ rfl
    exact ⟨_,rfl,rfl⟩
  · rintro _ ⟨flow,rfl,hsum⟩
    exact ⟨stream,flow,rfl,hstream,hsum⟩

lemma ends_frameHeader (writeBufferLen flowControlLen space : ℕ) (canWriteFin : Bool) :
    Ends (writeStreamFrameHeader writeBufferLen flowControlLen space canWriteFin) (fun _ => True) fun frame =>
      ∀ length fin,frame = some (length,fin) → length≤writeBufferLen ∧ length≤flowControlLen ∧
        (fin=true → canWriteFin=true ∧ length=writeBufferLen) := by
  unfold writeStreamFrameHeader
  simp only
  split_ifs with hempty hnone
  · trivial
  · exact nofun
  · rintro length fin ⟨⟩
    refine ⟨(min_le_left _ _).trans (min_le_left _ _),(min_le_left _ _).trans (min_le_right _ _),fun hfin => ?_⟩
    simpa using hfin

namespace Accounted

section
variable (h : s.Accounted fin) (hwritable : s.stream.writable)
include h hwritable

lemma fin_of_writable :
    fin = false ∧ s.stream.finalWriteOffset=none := by
  obtain ⟨-,hfinal⟩ : s.stream.sendState = .Open ∧ s.stream.finalWriteOffset=none := by
    simpa [QuicStreamState.writable] using hwritable
  refine ⟨?_,hfinal⟩
  cases fin with
  | false => rfl
  | true => simpa [hfinal] using (h.finished rfl).1

lemma ends_write (data : Bytes) (eof : Bool) :
    Ends (s.writeDataToQuicStream data eof) (fun _ => True) fun t => Accounted ⟨t,s.wire⟩ fin := by
  obtain ⟨rfl,hfinal⟩ := h.fin_of_writable hwritable
  refine (ends_check _).bind fun _ hmeta => (ends_check _).bind fun _ _ => ?_
  refine (ends_writeToStream _ _).imp ?_
  rintro _ ⟨flow,rfl,hsum⟩
  rw [decide_eq_true_eq] at hmeta
  have hreal := h.real (.inl hmeta)
  have hlen := h.noMeta hmeta
  have hbuffered := h.buffered
  refine {h with
    real := fun _ => hreal
    bufMeta := fun hne => absurd hmeta hne
    final := fun f hf => ?_
    finished := nofun
    buffered := ?_}
  · cases eof <;> simp [hfinal] at hf ⊢
    rw [Bool.toNat_false] at hreal
    omega
  · simp only [hsum,List.length_append]
    omega

lemma ends_writeBufMeta (length : ℕ) (eof : Bool) :
    Ends (s.writeBufMetaToQuicStream length eof) (fun _ => True) fun t => Accounted ⟨t,s.wire⟩ fin := by
  obtain ⟨rfl,hfinal⟩ := h.fin_of_writable hwritable
  have hbuffered := h.buffered
  refine (ends_check _).bind fun _ hreal => (ends_check _).bind fun _ _ => ?_
  refine (ends_writeToStream _ _).imp ?_
  rintro _ ⟨flow,rfl,hsum⟩
  rw [decide_eq_true_eq] at hreal
  -- where the meta data starts, or goes on
  have hstart : (if s.stream.writeBufMeta.offset=0 then
      s.stream.currentWriteOffset+s.stream.pendingWrites.length else s.stream.writeBufMeta.offset) =
        s.wire+s.stream.pendingWrites.length ∧ s.wire+s.stream.pendingWrites.length≠0 := by
    split_ifs with hmeta
    · rw [h.real (.inl hmeta)] at hreal ⊢
      exact ⟨rfl,hreal.ne'⟩
    · exact ⟨h.bufMeta hmeta,h.bufMeta hmeta ▸ hmeta⟩
  simp only [hstart.1]
  refine {h with
    real := fun hor => h.real (.inr (hor.resolve_left hstart.2))
    bufMeta := fun _ => rfl
    noMeta := fun hzero => absurd hzero hstart.2
    final := fun f hf => ?_
    finished := nofun
    buffered := ?_}
  · cases eof <;> simp [hfinal] at hf ⊢
    exact hf.symm
  · dsimp only at hsum ⊢
    omega

end

lemma flowControlBytes_eq (h : s.Accounted false) : s.stream.getSendStreamFlowControlBytesWire =
    s.stream.flowControlState.peerAdvertisedMaxOffset-s.wire := by
  have hnext : s.stream.nextOffsetToWrite=s.wire := by
    unfold QuicStreamState.nextOffsetToWrite
    split_ifs with hmeta hpending
    · exact h.real (.inl hmeta)
    · exact h.real (.inr hpending)
    · rw [h.bufMeta hmeta,not_not.mp hpending]
      rfl
  unfold QuicStreamState.getSendStreamFlowControlBytesWire
  rw [hnext]
  exact subU64_of_le h.sent h.limit

lemma ends_dataWritten (h : s.Accounted false) {length : ℕ} {frameFin : Bool}
    (hpending : s.stream.writeBufMeta.offset=0 ∨ s.stream.pendingWrites≠[])
    (hlength : length ≤ s.stream.pendingWrites.length)
    (hlimit : length ≤ s.stream.flowControlState.peerAdvertisedMaxOffset-s.wire)
    (hfin : frameFin=true → s.stream.finalWriteOffset.isSome ∧ s.stream.writeBufMeta.offset=0 ∧
      length = s.stream.pendingWrites.length) :
    Ends (s.frameWritten (s.stream.handleNewStreamDataWritten length frameFin) length) (fun _ => True)
      fun t => t.Accounted frameFin := by
  have hbuffered := h.buffered
  have hsent := h.sent
  have hwritten : Ends (s.stream.handleNewStreamDataWritten length frameFin) (fun _ => True) fun stream =>
      ∃ buffer,stream = {s.stream with
        currentWriteOffset := s.stream.currentWriteOffset+length+if frameFin then 1 else 0
        pendingWrites := s.stream.pendingWrites.drop length
        retransmissionBuffer := buffer} :=
    (ends_check _).bind fun _ _ => ⟨_,rfl⟩
  refine (ends_frameWritten hwritten).imp ?_
  rintro _ ⟨_,flow,rfl,⟨buffer,rfl⟩,hsum⟩
  refine {h with
    real := fun _ => ?_
    bufMeta := fun hmeta => ?_
    final := fun f hf => ?_
    finished := fun hframe => ?_
    buffered := ?_
    sent := by dsimp only; omega}
  · show s.stream.currentWriteOffset+length+(if frameFin then 1 else 0) = _
    rw [h.real hpending]
    cases frameFin <;> simp
  · have hnofin : frameFin=false := by
      by_contra hne
      exact hmeta (hfin (by simpa using hne)).2.1
    have hoffset := h.bufMeta hmeta
    simp only [hnofin,List.length_drop,Bool.toNat_false] at hoffset ⊢
    omega
  · have hfinal := h.final f hf
    simp only [List.length_drop]
    omega
  · obtain ⟨hsome,hmeta,hall⟩ := hfin hframe
    exact ⟨hsome,by simp [hall],h.noMeta hmeta⟩
  · simp only [hsum,List.length_drop]
    omega

lemma ends_metaWritten (h : s.Accounted false) {length : ℕ} {frameFin : Bool}
    (hpending : s.stream.pendingWrites=[])
    (hlimit : length ≤ s.stream.flowControlState.peerAdvertisedMaxOffset-s.wire)
    (hfin : frameFin=true → s.stream.finalWriteOffset.isSome) :
    Ends (s.frameWritten (s.stream.handleNewStreamBufMetaWritten length frameFin) length) (fun _ => True)
      fun t => t.Accounted frameFin := by
  have hbuffered := h.buffered
  have hsent := h.sent
  have hwritten : Ends (s.stream.handleNewStreamBufMetaWritten length frameFin) (fun _ => True) fun stream =>
      0 < s.stream.writeBufMeta.offset ∧ length ≤ s.stream.writeBufMeta.length ∧
      (frameFin=true → length=s.stream.writeBufMeta.length) ∧ ∃ buffer eof,stream = {s.stream with
        writeBufMeta := ⟨s.stream.writeBufMeta.length-length,
          s.stream.writeBufMeta.offset+length+frameFin.toNat,eof⟩
        retransmissionBufMetas := buffer} := by
    refine (ends_check _).bind fun _ hpos => Ends.bind (P := fun r : WriteBufferMeta × WriteBufferMeta =>
      length ≤ s.stream.writeBufMeta.length ∧ r.2 = ⟨s.stream.writeBufMeta.length-length,
        s.stream.writeBufMeta.offset+length,s.stream.writeBufMeta.eof⟩) ?_ ?_
    · exact (ends_check _).bind fun _ hle => ⟨by simpa using hle,rfl⟩
    rintro ⟨split,rest⟩ ⟨hle,rfl⟩
    refine Ends.bind (P := fun r : WriteBufferMeta => (frameFin=true → length=s.stream.writeBufMeta.length) ∧
      r = ⟨s.stream.writeBufMeta.length-length,s.stream.writeBufMeta.offset+length+frameFin.toNat,
        s.stream.writeBufMeta.eof⟩) ?_ ?_
    · cases frameFin with
      | false => exact And.intro nofun rfl
      | true =>
        refine (ends_check _).bind fun _ hzero => ?_
        rw [decide_eq_true_eq] at hzero
        dsimp only at hzero
        split
        · trivial
        · refine (ends_check _).bind fun _ _ => ?_
          exact ⟨fun _ => by omega,rfl⟩
    · rintro r ⟨hall,rfl⟩
      exact (ends_check _).bind fun _ _ => ⟨by simpa using hpos,hle,hall,_,_,rfl⟩
  refine (ends_frameWritten hwritten).imp ?_
  rintro _ ⟨_,flow,rfl,⟨hmeta,hle,hall,buffer,eof,rfl⟩,hsum⟩
  have hoffset := h.bufMeta hmeta.ne'
  rw [hpending,List.length_nil,Bool.toNat_false] at hoffset
  refine {h with
    real := ?_
    bufMeta := fun _ => by simp [hpending,hoffset]
    noMeta := by dsimp only; omega
    final := fun f hf => ?_
    finished := fun hframe => ⟨hfin hframe,hpending,by simp [hall hframe]⟩
    buffered := by dsimp only; omega
    sent := by dsimp only; omega}
  · rintro (hzero | hne)
    · dsimp only at hzero
      omega
    · exact absurd hpending hne
  · have hfinal := h.final f hf
    dsimp only
    omega

lemma ends_sendData (h : s.Accounted fin) (connWritableBytes space : ℕ) :
    Ends (s.sendData connWritableBytes space) (fun _ => True) fun t => ∃ fin',t.Accounted fin' := by
  refine Ends.bind (P := fun writable => writable = true → fin=false ∧
    (s.stream.writeBufMeta.offset=0 ∨ s.stream.pendingWrites≠[])) ?_ ?_
  · unfold QuicStreamState.hasWritableData
    split
    · rename_i hpending
      refine (ends_check _).bind fun _ _ _ => ⟨?_,.inr hpending⟩
      cases fin with
      | false => rfl
      | true => exact absurd (h.finished rfl).2.1 hpending
    · rename_i hpending
      rw [not_not] at hpending
      split
      · rename_i f hf
        intro hwritable
        obtain ⟨hmeta,hle⟩ : s.stream.writeBufMeta.offset=0 ∧ s.stream.currentWriteOffset≤f := by
          simpa using hwritable
        have hfinal := h.final f hf
        rw [h.real (.inl hmeta)] at hle
        rw [hpending,h.noMeta hmeta,List.length_nil] at hfinal
        cases fin with
        | false => exact ⟨rfl,.inl hmeta⟩
        | true => exact absurd hle (by simp [hfinal])
      · exact nofun
  · intro writable hwritable
    split
    · rename_i hsend
      obtain ⟨rfl,hpending⟩ := hwritable (by simp at hsend; exact hsend.1)
      refine (ends_frameHeader _ _ _ _).bind fun frame hframe => ?_
      split
      · exact ⟨_,h⟩
      · rename_i length frameFin
        obtain ⟨hlength,hflow,hfin⟩ := hframe length frameFin rfl
        rw [h.flowControlBytes_eq] at hflow
        refine (h.ends_dataWritten hpending hlength (hflow.trans (min_le_left _ _)) fun hset => ?_).imp
          fun t ht => ⟨frameFin,ht⟩
        obtain ⟨hcan,hall⟩ := hfin hset
        simp only [Bool.and_eq_true,decide_eq_true_eq] at hcan
        exact ⟨hcan.1.1,hcan.2,hall⟩
    · exact ⟨_,h⟩

lemma ends_sendMeta (h : s.Accounted fin) (connWritableBytes space : ℕ) :
    Ends (s.sendMeta connWritableBytes space) (fun _ => True) fun t => ∃ fin',t.Accounted fin' := by
  refine Ends.bind (P := fun _ => True) (.of_forall (fun _ _ => trivial) fun _ _ => trivial) ?_
  intro writable _
  split
  · rename_i hsend
    obtain ⟨hpending,-,hlen,-⟩ := hsend
    obtain rfl : fin=false := by
      cases fin with
      | false => rfl
      | true => exact absurd (h.finished rfl).2.2 hlen.ne'
    refine (ends_frameHeader _ _ _ _).bind fun frame hframe => ?_
    split
    · exact ⟨_,h⟩
    · rename_i length frameFin
      obtain ⟨-,hflow,hfin⟩ := hframe length frameFin rfl
      rw [h.flowControlBytes_eq] at hflow
      refine (h.ends_metaWritten hpending (hflow.trans ((min_le_left _ _).trans (min_le_left _ _)))
        fun hset => ?_).imp fun t ht => ⟨frameFin,ht⟩
      have hcan := (hfin hset).1
      simp only [Bool.and_eq_true] at hcan
      exact hcan.1
  · exact ⟨_,h⟩

lemma windowUpdate (h : s.Accounted fin) (maximumData : UInt64) :
    Accounted {s with stream := s.stream.handleStreamWindowUpdate maximumData.toNat} fin := by
  unfold QuicStreamState.handleStreamWindowUpdate
  split
  · rename_i hle
    exact {h with sent := h.sent.trans hle, limit := maximumData.toNat_lt}
  · exact h

lemma ends_perform (h : s.Accounted fin) (e : SendEvent) :
    Ends (s.perform e) (fun _ => True) fun t => ∃ fin',t.Accounted fin' := by
  cases e with
  | write data eof =>
    show Ends (if _ then _ else _) _ _
    split
    · rename_i hwritable
      exact Ends.map ((h.ends_write hwritable data eof).imp fun t ht => ⟨fin,ht⟩)
    · exact ⟨fin,h⟩
  | writeBufMeta length eof =>
    show Ends (if _ then _ else _) _ _
    split
    · rename_i hwritable
      exact Ends.map ((h.ends_writeBufMeta hwritable length eof).imp fun t ht => ⟨fin,ht⟩)
    · exact ⟨fin,h⟩
  | send connWritableBytes space => exact h.ends_sendData connWritableBytes space
  | sendBufMeta connWritableBytes space => exact h.ends_sendMeta connWritableBytes space
  | windowUpdate maximumData => exact ⟨fin,h.windowUpdate maximumData⟩

end Accounted

/-- The final size in the frame that a reset queues. The pending bytes are gone when
`writeBufMeta.offset` is compared with the current offset, so meta data counts as sent. -/
lemma Accounted.sendRst (h : s.Accounted fin) (errorCode : ℕ) :
    ∃ t,s.sendRstSMHandler errorCode = .done t ∧ t.conn.resets = s.conn.resets ++
      [⟨s.stream.id,errorCode,if s.stream.writeBufMeta.offset=0 then s.wire
        else s.wire+s.stream.pendingWrites.length⟩] := by
  have hflow : s.updateFlowControlOnResetStream = .done {s.toConnStream with
      conn := {s.conn with flowControlState := {s.conn.flowControlState with
        sumCurStreamBufferLen := s.conn.flowControlState.sumCurStreamBufferLen -
          (s.stream.pendingWrites.length+s.stream.writeBufMeta.length)}}} := by
    unfold ConnStream.updateFlowControlOnResetStream decrementWithOverFlowCheck
    rw [if_neg (not_lt.mpr h.buffered)]
  unfold ConnStream.sendRstSMHandler ConnStream.resetQuicStream
  simp only [h.opened,hflow,Outcome.done_andThen]
  refine ⟨_,rfl,?_⟩
  unfold ConnStream.appendPendingStreamReset
  simp only [h.noReset,Bool.false_eq_true,if_false,List.length_nil,Nat.add_zero]
  have hwritten : (if s.stream.writeBufMeta.offset≠0 ∧
      s.stream.currentWriteOffset≠s.stream.writeBufMeta.offset then s.stream.writeBufMeta.offset
      else s.stream.currentWriteOffset) = (if s.stream.writeBufMeta.offset=0 then s.wire
        else s.wire+s.stream.pendingWrites.length)+fin.toNat := by
    by_cases hmeta : s.stream.writeBufMeta.offset=0
    · rw [if_neg fun hboth => hboth.1 hmeta,if_pos hmeta]
      exact h.real (.inl hmeta)
    · rw [if_neg hmeta,← h.bufMeta hmeta]
      split_ifs with hboth
      · rfl
      · exact not_not.mp fun hne => hboth ⟨hmeta,hne⟩
  rw [hwritten]
  congr 3
  split
  · rename_i f hf
    have hfinal := h.final f hf
    cases fin with
    | false => split_ifs <;> exact min_eq_left (by simp; omega)
    | true =>
      obtain ⟨-,hpending,hlen⟩ := h.finished rfl
      simp only [hpending,hlen,List.length_nil,Nat.add_zero,ite_self] at hfinal ⊢
      rw [hfinal]
      exact min_eq_right (Nat.le_add_right _ _)
  · rename_i hnone
    cases fin with
    | false => rfl
    | true => simpa [hnone] using (h.finished rfl).1

/-- A reset queues the number of bytes sent as the final size, and the peer allows that many. -/
def ResetsAtWire (s : Sender) (errorCode : ℕ) : Prop :=
  ∃ t,s.sendRstSMHandler errorCode = .done t ∧
    t.conn.resets = s.conn.resets++[⟨s.stream.id,errorCode,s.wire⟩] ∧
    s.wire ≤ s.stream.flowControlState.peerAdvertisedMaxOffset

lemma Accounted.resetsAtWire_iff (h : s.Accounted fin) (errorCode : ℕ) :
    s.ResetsAtWire errorCode ↔ s.stream.writeBufMeta.offset=0 ∨ s.stream.pendingWrites=[] := by
  obtain ⟨t,hreset,hresets⟩ := h.sendRst errorCode
  constructor
  · rintro ⟨u,hu,hqueued,-⟩
    obtain rfl : t=u := congrArg Outcome.state (hreset.symm.trans hu)
    rw [hresets] at hqueued
    by_contra hne
    obtain ⟨hmeta,hpending⟩ := not_or.mp hne
    simp [hmeta] at hqueued
    exact hpending hqueued
  · rintro hor
    refine ⟨t,hreset,?_,h.sent⟩
    rw [hresets]
    rcases hor with hmeta | hpending
    · rw [if_pos hmeta]
    · simp [hpending]

lemma ends_run {events : List SendEvent} (h : s.Fresh) :
    Ends (runFallible perform s events) (fun _ => True) fun t => ∃ fin,t.Accounted fin :=
  ends_runFallible ⟨false,h.accounted⟩ fun _ ⟨_,ht⟩ e _ => ht.ends_perform e

def unwritten (limit : ℕ) : Sender :=
  {conn := {}
   stream := {id := 1, flowControlState := {peerAdvertisedMaxOffset := limit}}
   wire := 0}

lemma unwritten_fresh (limit : ℕ) (h : limit < 2^64) : (unwritten limit).Fresh :=
  ⟨rfl,rfl,rfl,rfl,rfl,rfl,h,rfl⟩

end Sender

end QuicWestwood
