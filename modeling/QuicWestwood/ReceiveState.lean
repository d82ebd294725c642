import QuicWestwood.ReadBuffer

/-! What each of the three calls on the receiving side does when it returns and when it throws, and the
invariant that they keep. Frames may carry anything here. -/
namespace QuicWestwood
open ByteCodec

/-- A FIN or a reset at `size` does not fit what is known of the stream. -/
def SizeMismatch (established : Option ℕ) (highest size : ℕ) : Prop :=
  (∃ finalSize ∈ established,finalSize≠size) ∨ size<highest

instance (established : Option ℕ) (highest size : ℕ) : Decidable (SizeMismatch established highest size) :=
  inferInstanceAs (Decidable (_ ∨ _))

namespace QuicStreamState

lemma checkFinalSize_ok {stream : QuicStreamState} {buffer : StreamBuffer} {final : Option ℕ}
    (h : stream.checkFinalSize buffer = .ok final) :
    (buffer.eof=true ∧ final = some buffer.endOffset ∧
      ¬SizeMismatch stream.finalReadOffset stream.maxOffsetObserved buffer.endOffset) ∨
    (buffer.eof=false ∧ final=stream.finalReadOffset ∧ ∀ f ∈ stream.finalReadOffset,buffer.endOffset ≤ f) := by
  unfold checkFinalSize at h
  split_ifs at h with heof hinvalid hmiddle hafter
  · refine .inl ⟨heof,(Except.ok.inj h).symm,?_⟩
    rintro (hmismatch | hlt)
    · exact hinvalid hmismatch
    · exact hmiddle hlt
  · refine .inr ⟨by simpa using heof,(Except.ok.inj h).symm,fun f hf => ?_⟩
    exact not_lt.mp fun hlt => hafter ⟨f,hf,hlt⟩

lemma checkFinalSize_error {stream : QuicStreamState} {buffer : StreamBuffer} {message : String}
    (h : stream.checkFinalSize buffer = .error message) :
    (buffer.eof=true ∧ SizeMismatch stream.finalReadOffset stream.maxOffsetObserved buffer.endOffset) ∨
    (buffer.eof=false ∧ ∃ f ∈ stream.finalReadOffset,f<buffer.endOffset) := by
  unfold checkFinalSize at h
  split_ifs at h with heof hinvalid hmiddle hafter
  · exact .inl ⟨heof,.inl hinvalid⟩
  · exact .inl ⟨heof,.inr hmiddle⟩
  · exact .inr ⟨by simpa using heof,hafter⟩

/-- The entries lie between the read offset and the highest offset; only the FIN is behind that. -/
structure WellFormed (stream : QuicStreamState) : Prop where
  sorted : SortedBuffer stream.readBuffer
  ahead : ∀ e ∈ stream.readBuffer,stream.currentReadOffset ≤ e.offset
  inside : ∀ e ∈ stream.readBuffer,e.endOffset ≤ stream.maxOffsetObserved
  final : ∀ f ∈ stream.finalReadOffset,stream.maxOffsetObserved ≤ f
  position : stream.currentReadOffset ≤ stream.maxOffsetObserved ∨
    stream.finalReadOffset = some stream.maxOffsetObserved ∧
      stream.currentReadOffset = stream.maxOffsetObserved+1

namespace WellFormed
variable {stream : QuicStreamState}

section
variable (h : stream.WellFormed)
include h

lemma covers_lt {x : ℕ} (hx : Covers stream.readBuffer x) : x < stream.maxOffsetObserved := by
  obtain ⟨e,he,-,hlt⟩ := hx
  exact hlt.trans_le (h.inside e he)

lemma readBuffer_eq_nil (hcur : stream.maxOffsetObserved ≤ stream.currentReadOffset) :
    stream.readBuffer = [] := by
  refine List.eq_nil_iff_forall_not_mem.mpr fun e he => ?_
  have := StreamBuffer.lt_endOffset (h.sorted.nonempty e he)
  have := h.ahead e he
  have := h.inside e he
  omega

lemma received {buffer : StreamBuffer} {finalReadOffset : Option ℕ}
    (hcheck : stream.checkFinalSize buffer = .ok finalReadOffset) :
    ({stream with finalReadOffset}.received buffer).WellFormed := by
  have hmerges := insertIntoReadBuffer_merges h.sorted stream.currentReadOffset buffer
  refine ⟨hmerges.sorted,hmerges.le_offset _ fun e he => ?_,hmerges.endOffset_le _ fun x hx => ?_,?_,?_⟩
  · rcases List.mem_cons.mp he with rfl | he
    · exact StreamBuffer.le_trimTo_offset _ _
    · exact h.ahead e he
  · rw [← List.singleton_append,covers_append,covers_trimTo] at hx
    show x < max stream.maxOffsetObserved buffer.endOffset
    rcases hx with hx | hx
    · exact lt_max_of_lt_right hx.2.2
    · exact lt_max_of_lt_left (h.covers_lt hx)
  · show ∀ f ∈ finalReadOffset,max stream.maxOffsetObserved buffer.endOffset ≤ f
    intro f hf
    rcases checkFinalSize_ok hcheck with ⟨-,rfl,hfits⟩ | ⟨-,rfl,hle⟩
    · obtain rfl := Option.mem_some_iff.mp hf
      exact max_le (not_lt.mp fun hlt => hfits (.inr hlt)) le_rfl
    · exact max_le (h.final f hf) (hle f hf)
  · show stream.currentReadOffset ≤ max stream.maxOffsetObserved buffer.endOffset ∨
      finalReadOffset = some (max stream.maxOffsetObserved buffer.endOffset) ∧
        stream.currentReadOffset = max stream.maxOffsetObserved buffer.endOffset+1
    rcases h.position with hcur | ⟨hfinal,hcur⟩
    · exact .inl (le_max_of_le_left hcur)
    · right
      rcases checkFinalSize_ok hcheck with ⟨-,rfl,hfits⟩ | ⟨-,rfl,hle⟩
      · have hend : stream.maxOffsetObserved=buffer.endOffset := by
          by_contra hne
          exact hfits (.inl ⟨_,hfinal,hne⟩)
        rw [← hend,max_self]
        exact ⟨rfl,hcur⟩
      · rw [max_eq_left (hle _ hfinal)]
        exact ⟨hfinal,hcur⟩

lemma takes_le {amount : ℕ} {r : ReadState}
    (htakes : Takes amount stream.currentReadOffset stream.readBuffer r)
    (hcur : stream.currentReadOffset ≤ stream.maxOffsetObserved) :
    r.currentReadOffset ≤ stream.maxOffsetObserved := by
  have hoff := htakes.offset
  rcases Nat.eq_zero_or_pos r.data.length with hzero | hpos
  · omega
  · have hlast := htakes.data _ _ (List.getElem?_eq_getElem (show r.data.length-1 < r.data.length by omega))
    have := h.covers_lt (covers_iff_holds.mpr ⟨_,hlast⟩)
    omega

lemma currentReadOffset_le
    (hend : ¬∃ f ∈ stream.finalReadOffset,f ≤ stream.currentReadOffset) :
    stream.currentReadOffset ≤ stream.maxOffsetObserved :=
  h.position.resolve_right fun hpos => hend ⟨_,hpos.1,by omega⟩

lemma afterRead {amount : ℕ} {r : ReadState}
    (htakes : Takes amount stream.currentReadOffset stream.readBuffer r)
    (hend : ¬∃ f ∈ stream.finalReadOffset,f ≤ stream.currentReadOffset) : (stream.afterRead r).WellFormed := by
  refine ⟨htakes.sorted,htakes.ahead,fun e he => ?_,h.final,
    .inl (h.takes_le htakes (h.currentReadOffset_le hend))⟩
  have hlt := StreamBuffer.lt_endOffset (htakes.sorted.nonempty e he)
  obtain ⟨v,hv⟩ := covers_iff_holds.mp
    (show Covers r.readBuffer (e.endOffset-1) from ⟨e,he,by omega,by omega⟩)
  have := h.covers_lt (covers_iff_holds.mpr ⟨v,htakes.holds hv⟩)
  show e.endOffset ≤ stream.maxOffsetObserved
  omega

lemma advanceRead (hend : stream.finalReadOffset = some stream.currentReadOffset) :
    (stream.advanceRead 1).WellFormed ∧ stream.currentReadOffset=stream.maxOffsetObserved := by
  have hfinal := h.final _ hend
  have hcur : stream.currentReadOffset=stream.maxOffsetObserved := by
    rcases h.position with hle | ⟨hmax,hcur⟩
    · omega
    · rw [hend] at hmax
      exact Option.some.inj hmax
  have hempty := h.readBuffer_eq_nil hcur.ge
  refine ⟨⟨h.sorted,?_,h.inside,h.final,.inr ⟨hend.trans (congrArg some hcur),congrArg (·+1) hcur⟩⟩,hcur⟩
  show ∀ e ∈ stream.readBuffer,_
  simp [hempty]

lemma final_of_isAllDataReceived (hall : stream.isAllDataReceived=true) :
    stream.finalReadOffset = some stream.maxOffsetObserved := by
  unfold isAllDataReceived at hall
  cases hfinal : stream.finalReadOffset with
  | none =>
    rw [hfinal] at hall
    cases hall
  | some f =>
    rw [hfinal] at hall
    have hle := h.final f hfinal
    rcases Bool.or_eq_true_iff.mp hall with hread | hone
    · have := of_decide_eq_true hread
      rcases h.position with hcur | ⟨hmax,-⟩
      · rw [show f = stream.maxOffsetObserved by omega]
      · rw [← hmax,hfinal]
    · split at hone
      · rename_i e hbuf
        have hend := h.inside e (by rw [hbuf]; simp)
        simp only [Bool.and_eq_true,decide_eq_true_eq] at hone
        rw [show f = stream.maxOffsetObserved by omega]
      · cases hone

lemma withRecvState (recvState : StreamRecvState) :
    {stream with recvState}.WellFormed :=
  ⟨h.sorted,h.ahead,h.inside,h.final,h.position⟩

end

end WellFormed

end QuicStreamState

namespace ConnStream

variable (s : ConnStream)

lemma closeReceive_eq :
    ∃ closedStreams,s.closeReceive = ⟨{s.conn with closedStreams},{s.stream with recvState := .Closed}⟩ := by
  unfold closeReceive
  dsimp only
  split
  · exact ⟨_,rfl⟩
  · exact ⟨_,rfl⟩

lemma closeReceive_stream : s.closeReceive.stream = {s.stream with recvState := .Closed} := by
  obtain ⟨closedStreams,heq⟩ := s.closeReceive_eq
  rw [heq]

lemma closeReceive_flowControlState : s.closeReceive.conn.flowControlState=s.conn.flowControlState := by
  obtain ⟨closedStreams,heq⟩ := s.closeReceive_eq
  rw [heq]

lemma appendDataToReadBuffer_cases (buffer : StreamBuffer) :
    (buffer.eof=false ∧ buffer.data=[] ∧ s.appendDataToReadBuffer buffer = .done s) ∨
    ¬(buffer.eof=false ∧ buffer.data=[]) ∧ ((∃ message,s.stream.checkFinalSize buffer = .error message ∧
        s.appendDataToReadBuffer buffer = .fail (finalSizeViolation message) s) ∨
      ∃ finalReadOffset,s.stream.checkFinalSize buffer = .ok finalReadOffset ∧
        ((∃ e,e.transportError≠some .finalSizeError ∧
          s.appendDataToReadBuffer buffer = .fail e (s.setFinalReadOffset finalReadOffset)) ∨
        s.appendDataToReadBuffer buffer =
          .done ⟨s.conn.observed (buffer.endOffset-s.stream.maxOffsetObserved),
            {s.stream with finalReadOffset}.received buffer⟩)) := by
  unfold appendDataToReadBuffer
  split
  · rename_i hempty
    exact .inl ⟨hempty.1,hempty.2,rfl⟩
  · rename_i hne
    refine .inr ⟨hne,?_⟩
    cases hcheck : s.stream.checkFinalSize buffer with
    | error message => exact .inl ⟨message,rfl,rfl⟩
    | ok finalReadOffset =>
      refine .inr ⟨finalReadOffset,rfl,?_⟩
      dsimp only
      rcases (s.setFinalReadOffset finalReadOffset).updateFlowControlOnStreamData_cases s.stream.maxOffsetObserved
        buffer.endOffset with ⟨-,-,heq⟩ | ⟨e,he,heq⟩
      · rw [heq]
        exact .inr rfl
      · rw [heq]
        exact .inl ⟨e,he,rfl⟩

/-- The stream is closed when its last byte has arrived. -/
def maybeCloseReceive (s : ConnStream) : ConnStream := if s.stream.isAllDataReceived then s.closeReceive else s

lemma receiveReadStreamFrameSMHandler_open {s : ConnStream} (hopen : s.stream.recvState = .Open)
    (frame : ReadStreamFrame) :
    s.receiveReadStreamFrameSMHandler frame =
      (s.appendDataToReadBuffer ⟨frame.data,frame.offset,frame.fin⟩).andThen fun s => .done s.maybeCloseReceive := by
  unfold receiveReadStreamFrameSMHandler
  rw [hopen]
  rfl

/-- The stream after a reset that fits; the flow controller has yet to be told of the bytes skipped. -/
def afterReset (s : ConnStream) (frame : RstStreamFrame) : ConnStream :=
  {s with conn := s.conn.observed (frame.offset-s.stream.maxOffsetObserved)}.dropReceived frame

lemma afterReset_wellFormed {s : ConnStream} (h : s.stream.WellFormed) {frame : RstStreamFrame}
    (hfits : ¬SizeMismatch s.stream.finalReadOffset s.stream.maxOffsetObserved frame.offset)
    (hlt : frame.offset < s.stream.currentReadOffset) :
    (s.afterReset frame).stream.WellFormed ∧ s.stream.maxOffsetObserved=frame.offset := by
  have hle := not_lt.mp fun hlt => hfits (.inr hlt)
  have hcur : s.stream.currentReadOffset = s.stream.maxOffsetObserved+1 := by
    rcases h.position with hcur | ⟨-,hcur⟩
    · omega
    · exact hcur
  have hmax : s.stream.maxOffsetObserved=frame.offset := by omega
  refine ⟨⟨.nil,List.forall_mem_nil _,List.forall_mem_nil _,?_,.inr ⟨congrArg some hmax.symm,hcur⟩⟩,hmax⟩
  intro f hf
  obtain rfl := Option.mem_some_iff.mp hf
  exact hmax.le

lemma skipTo_wellFormed (frame : RstStreamFrame) :
    ((s.afterReset frame).skipTo frame.offset).stream.WellFormed := by
  refine ⟨.nil,List.forall_mem_nil _,List.forall_mem_nil _,?_,.inl le_rfl⟩
  intro f hf
  obtain rfl := Option.mem_some_iff.mp hf
  exact le_rfl

lemma onResetQuicStream_cases (frame : RstStreamFrame) (now : ℤ) :
    (SizeMismatch s.stream.finalReadOffset s.stream.maxOffsetObserved frame.offset ∧
      ∃ message,s.onResetQuicStream frame now = .fail (finalSizeViolation message) s) ∨
    ¬SizeMismatch s.stream.finalReadOffset s.stream.maxOffsetObserved frame.offset ∧
      ((∃ e,e.transportError≠some .finalSizeError ∧ s.onResetQuicStream frame now = .fail e s) ∨
      (frame.offset < s.stream.currentReadOffset ∧
        s.onResetQuicStream frame now = .done (s.afterReset frame)) ∨
      (s.stream.currentReadOffset≤frame.offset ∧ s.onResetQuicStream frame now =
        ((s.afterReset frame).skipTo frame.offset).updateFlowControlOnRead s.stream.currentReadOffset now)) := by
  unfold onResetQuicStream
  split
  · rename_i finalReadOffset hfilter
    rw [Option.filter_eq_some_iff] at hfilter
    exact .inl ⟨.inl ⟨finalReadOffset,hfilter.1,by simpa using hfilter.2⟩,_,rfl⟩
  · rename_i hfilter
    rw [Option.filter_eq_none_iff] at hfilter
    split
    · rename_i hlt
      exact .inl ⟨.inr hlt,_,rfl⟩
    · rename_i hle
      refine .inr ⟨?_,?_⟩
      · rintro (⟨f,hf,hne⟩ | hlt)
        · exact hne (by simpa using hfilter f hf)
        · exact hle hlt
      · rcases s.updateFlowControlOnStreamData_cases s.stream.maxOffsetObserved frame.offset with
          ⟨-,-,heq⟩ | ⟨e,he,heq⟩
        · rw [heq]
          by_cases hread : frame.offset < s.stream.currentReadOffset
          · exact .inr (.inl ⟨hread,if_pos hread⟩)
          · exact .inr (.inr ⟨not_lt.mp hread,if_neg hread⟩)
        · rw [heq]
          exact .inl ⟨e,he,rfl⟩

/-- The stream after a read: the FIN takes one offset when it is reached. -/
def finishRead (stream : QuicStreamState) : QuicStreamState :=
  if stream.finalReadOffset = some stream.currentReadOffset then stream.advanceRead 1 else stream

lemma readDataFromQuicStream_cases (hwf : s.stream.WellFormed) (amount : ℕ) (now : ℤ) :
    ((∃ f ∈ s.stream.finalReadOffset,f ≤ s.stream.currentReadOffset) ∧
      s.readDataFromQuicStream amount now = .done (⟨s.conn,finishRead s.stream⟩,[],true)) ∨
    (¬∃ f ∈ s.stream.finalReadOffset,f ≤ s.stream.currentReadOffset) ∧
      ∃ r,Takes amount s.stream.currentReadOffset s.stream.readBuffer r ∧
        ((∃ e,e.transportError=none ∧ (s.readDataFromQuicStream amount now).thrown = some e) ∨
        ∃ windowSize queued updates,s.readDataFromQuicStream amount now =
          .done (⟨s.conn.credited (r.currentReadOffset-s.stream.currentReadOffset) windowSize queued updates,
              finishRead (s.stream.afterRead r)⟩,
            r.data,decide (s.stream.finalReadOffset = some r.currentReadOffset))) := by
  unfold readDataFromQuicStream
  split
  · rename_i hend
    exact .inl ⟨hend,rfl⟩
  · rename_i hend
    obtain ⟨r,hread,htakes⟩ := readFrom_takes hwf.sorted hwf.ahead amount
    refine .inr ⟨hend,r,htakes,?_⟩
    rw [hread]
    dsimp only
    rcases updateFlowControlOnRead_cases ⟨s.conn,s.stream.afterRead r⟩ s.stream.currentReadOffset now with
      ⟨windowSize,queued,updates,heq⟩ | ⟨-,e,he,hthrown⟩
    · right
      refine ⟨windowSize,queued,updates,?_⟩
      rw [heq]
      show (if s.stream.finalReadOffset = some r.currentReadOffset then _ else _) = _
      unfold finishRead
      by_cases hlast : s.stream.finalReadOffset = some r.currentReadOffset
      · have hafter : (s.stream.afterRead r).finalReadOffset = some (s.stream.afterRead r).currentReadOffset := hlast
        rw [if_pos hlast,if_pos hafter,decide_eq_true hlast]
        rfl
      · have hafter : ¬(s.stream.afterRead r).finalReadOffset = some (s.stream.afterRead r).currentReadOffset := hlast
        rw [if_neg hlast,if_neg hafter,decide_eq_false hlast]
        rfl
    · left
      rw [hthrown]
      exact ⟨e,he,rfl⟩

lemma finishRead_wellFormed {stream : QuicStreamState} (h : stream.WellFormed) :
    (finishRead stream).WellFormed ∧ min (finishRead stream).currentReadOffset stream.maxOffsetObserved =
        min stream.currentReadOffset stream.maxOffsetObserved := by
  unfold finishRead
  split
  · rename_i hend
    obtain ⟨hnext,hcur⟩ := h.advanceRead hend
    refine ⟨hnext,?_⟩
    show min (stream.currentReadOffset+1) _ = _
    omega
  · exact ⟨h,rfl⟩

end ConnStream

end QuicWestwood
