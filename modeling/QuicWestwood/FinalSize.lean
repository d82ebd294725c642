import QuicWestwood.ReceiveState

/-! A FIN or a reset establishes how long a stream is. Here the frames received are judged by what the earlier
ones have established, and the judgement is compared with the exceptions of the handlers. -/
namespace QuicWestwood
open ByteCodec ConnStream

/-- What happens on the receiving side of a stream; `now` is the reading of the clock in the call. -/
inductive StreamInput
  | frame (frame : ReadStreamFrame)
  | rst (frame : RstStreamFrame) (now : ℤ)
  | read (amount : ℕ) (now : ℤ)

def ConnStream.receive (s : ConnStream) : StreamInput → Outcome Failure ConnStream
  | .frame frame => s.receiveReadStreamFrameSMHandler frame
  | .rst frame now => s.receiveRstStreamSMHandler frame now
  | .read amount now => Outcome.within Prod.fst (s.readDataFromQuicStream amount now)

/-- The final size that the frames have established, and the highest offset among them. -/
structure FinalSize where
  established : Option ℕ := none
  highest : ℕ := 0
  deriving DecidableEq

namespace FinalSize

/-- A frame without data and without a FIN says nothing about the stream. -/
def Contradicts (z : FinalSize) : StreamInput → Prop
  | .frame f => (f.fin=true ∧ SizeMismatch z.established z.highest f.endOffset) ∨
      (f.fin=false ∧ f.data≠[] ∧ ∃ finalSize ∈ z.established,finalSize<f.endOffset)
  | .rst f _ => SizeMismatch z.established z.highest f.offset
  | .read _ _ => False

instance (z : FinalSize) : DecidablePred z.Contradicts
  | .frame _ => inferInstanceAs (Decidable (_ ∨ _))
  | .rst _ _ => inferInstanceAs (Decidable (SizeMismatch _ _ _))
  | .read _ _ => inferInstanceAs (Decidable False)

def learn (z : FinalSize) (input : StreamInput) : FinalSize :=
  if z.Contradicts input then z
  else
    match input with
    | .frame f =>
      if f.fin=false ∧ f.data=[] then z
      else ⟨if f.fin then some f.endOffset else z.established,max z.highest f.endOffset⟩
    | .rst f _ => ⟨some f.offset,f.offset⟩
    | .read _ _ => z

def learnAll (inputs : List StreamInput) : FinalSize := inputs.foldl learn {}

/-- The state of a stream agrees with what its frames have established. -/
structure Known (z : FinalSize) (stream : QuicStreamState) : Prop where
  wellFormed : stream.WellFormed
  established : stream.finalReadOffset=z.established
  highest : stream.maxOffsetObserved=z.highest
  closed : stream.recvState = .Closed → z.established = some z.highest

variable {z : FinalSize} {s : ConnStream}

lemma checkFinalSize_error_iff (h : Known z s.stream) {f : ReadStreamFrame} (hne : ¬(f.fin=false ∧ f.data=[])) :
    (∃ message,s.stream.checkFinalSize ⟨f.data,f.offset,f.fin⟩ = .error message) ↔
      z.Contradicts (.frame f) := by
  constructor
  · rintro ⟨message,herror⟩
    rcases QuicStreamState.checkFinalSize_error herror with ⟨heof,hmismatch⟩ | ⟨heof,hbeyond⟩
    · rw [h.established,h.highest] at hmismatch
      exact .inl ⟨heof,hmismatch⟩
    · rw [h.established] at hbeyond
      exact .inr ⟨heof,fun hempty => hne ⟨heof,hempty⟩,hbeyond⟩
  · intro hcontra
    cases hcheck : s.stream.checkFinalSize ⟨f.data,f.offset,f.fin⟩ with
    | error message => exact ⟨message,rfl⟩
    | ok final =>
      exfalso
      rcases QuicStreamState.checkFinalSize_ok hcheck with ⟨heof,-,hfits⟩ | ⟨heof,-,hle⟩
      · rw [h.established,h.highest] at hfits
        rcases hcontra with ⟨-,hmismatch⟩ | ⟨hfin,-⟩
        · exact hfits hmismatch
        · rw [show f.fin = true from heof] at hfin
          cases hfin
      · rw [h.established] at hle
        rcases hcontra with ⟨hfin,-⟩ | ⟨-,-,size,hsize,hlt⟩
        · rw [show f.fin = false from heof] at hfin
          cases hfin
        · exact absurd (hle size hsize) (not_le.mpr hlt)

lemma Known.finishRead {stream : QuicStreamState} (h : Known z stream) : Known z (finishRead stream) := by
  refine ⟨(finishRead_wellFormed h.wellFormed).1,?_,?_,?_⟩
  all_goals
    unfold ConnStream.finishRead
    split
  · exact h.established
  · exact h.established
  · exact h.highest
  · exact h.highest
  · exact h.closed
  · exact h.closed

lemma Known.maybeCloseReceive (h : Known z s.stream) : Known z s.maybeCloseReceive.stream := by
  unfold ConnStream.maybeCloseReceive
  split
  · rename_i hall
    rw [s.closeReceive_stream]
    refine ⟨h.wellFormed.withRecvState _,h.established,h.highest,fun _ => ?_⟩
    rw [← h.established,← h.highest]
    exact h.wellFormed.final_of_isAllDataReceived hall
  · exact h

lemma Known.received (h : Known z s.stream) (hopen : s.stream.recvState = .Open) {f : ReadStreamFrame}
    (hne : ¬(f.fin=false ∧ f.data=[])) {finalReadOffset : Option ℕ}
    (hcheck : s.stream.checkFinalSize ⟨f.data,f.offset,f.fin⟩ = .ok finalReadOffset) :
    Known (z.learn (.frame f)) ({s.stream with finalReadOffset}.received ⟨f.data,f.offset,f.fin⟩) := by
  have hfits : ¬z.Contradicts (.frame f) := by
    rw [← checkFinalSize_error_iff h hne,hcheck]
    rintro ⟨message,herror⟩
    cases herror
  have hlearn : z.learn (.frame f) =
      ⟨if f.fin then some f.endOffset else z.established,max z.highest f.endOffset⟩ := by
    unfold learn
    rw [if_neg hfits]
    exact if_neg hne
  rw [hlearn]
  refine ⟨h.wellFormed.received hcheck,?_,?_,fun hclosed => ?_⟩
  · show finalReadOffset = _
    rcases QuicStreamState.checkFinalSize_ok hcheck with ⟨heof,hfinal,-⟩ | ⟨heof,hfinal,-⟩
    · rw [hfinal,if_pos heof]
      rfl
    · rw [hfinal,if_neg (by rw [show f.fin = false from heof]; decide),h.established]
  · show max s.stream.maxOffsetObserved _ = _
    rw [h.highest]
    rfl
  · change s.stream.recvState = .Closed at hclosed
    rw [hopen] at hclosed
    cases hclosed

lemma learn_of_closed (hclosed : z.established = some z.highest) (f : ReadStreamFrame) :
    z.learn (.frame f) = z := by
  unfold learn
  split_ifs with hcontra
  · rfl
  · dsimp only
    split_ifs with hempty hfin
    · rfl
    · have hend : z.highest=f.endOffset := by
        by_contra hne
        exact hcontra (.inl ⟨hfin,.inl ⟨_,hclosed,hne⟩⟩)
      rw [← hend,← hclosed,max_self]
    · have hend : f.endOffset≤z.highest := by
        by_contra hlt
        simp only [Bool.not_eq_true] at hfin
        exact hcontra (.inr ⟨hfin,fun hdata => hempty ⟨hfin,hdata⟩,_,hclosed,not_le.mp hlt⟩)
      rw [max_eq_left hend]

lemma Known.frame (h : Known z s.stream) (f : ReadStreamFrame)
    (hthrown : (s.receiveReadStreamFrameSMHandler f).thrown = none) :
    Known (z.learn (.frame f)) (s.receiveReadStreamFrameSMHandler f).state.stream := by
  cases hstate : s.stream.recvState with
  | Open =>
    rw [receiveReadStreamFrameSMHandler_open hstate] at hthrown ⊢
    rcases s.appendDataToReadBuffer_cases ⟨f.data,f.offset,f.fin⟩ with
      ⟨hfin,hdata,heq⟩ | ⟨hne,⟨message,-,heq⟩ | ⟨final,hcheck,⟨e,-,heq⟩ | heq⟩⟩
    · have hlearn : z.learn (.frame f) = z := by
        unfold learn
        split_ifs
        · rfl
        · exact if_pos ⟨hfin,hdata⟩
      rw [heq,hlearn]
      exact h.maybeCloseReceive
    · rw [heq] at hthrown
      cases hthrown
    · rw [heq] at hthrown
      cases hthrown
    · rw [heq]
      exact Known.maybeCloseReceive (h.received hstate hne hcheck)
  | Closed =>
    rw [learn_of_closed (h.closed hstate)]
    unfold receiveReadStreamFrameSMHandler at hthrown ⊢
    rw [hstate] at hthrown ⊢
    dsimp only at hthrown ⊢
    split at hthrown
    · cases hthrown
    · rename_i hreceiving
      rw [if_neg hreceiving]
      exact h
  | Invalid =>
    unfold receiveReadStreamFrameSMHandler at hthrown
    rw [hstate] at hthrown
    cases hthrown

lemma known_onReset (hwf : s.stream.WellFormed) (hestablished : s.stream.finalReadOffset=z.established)
    (hhighest : s.stream.maxOffsetObserved=z.highest) {rst : RstStreamFrame} {now : ℤ}
    (hthrown : (s.onResetQuicStream rst now).thrown = none) :
    Known (z.learn (.rst rst now)) (s.onResetQuicStream rst now).state.stream := by
  rcases s.onResetQuicStream_cases rst now with ⟨-,message,heq⟩ | ⟨hfits,⟨e,-,heq⟩ | ⟨hlt,heq⟩ | ⟨-,heq⟩⟩
  · rw [heq] at hthrown
    cases hthrown
  · rw [heq] at hthrown
    cases hthrown
  all_goals
    have hlearn : z.learn (.rst rst now) = ⟨some rst.offset,rst.offset⟩ := by
      rw [hestablished,hhighest] at hfits
      exact if_neg hfits
    rw [hlearn]
  · obtain ⟨hwf,hmax⟩ := afterReset_wellFormed hwf hfits hlt
    rw [heq]
    exact ⟨hwf,rfl,hmax,fun _ => rfl⟩
  · rcases ((s.afterReset rst).skipTo rst.offset).updateFlowControlOnRead_cases s.stream.currentReadOffset now with
      ⟨windowSize,queued,updates,hcredit⟩ | ⟨-,e,-,hcredit⟩
    · rw [heq,hcredit]
      exact ⟨skipTo_wellFormed s rst,rfl,rfl,fun _ => rfl⟩
    · rw [heq,hcredit] at hthrown
      cases hthrown

lemma Known.rst (h : Known z s.stream) {rst : RstStreamFrame} {now : ℤ}
    (hthrown : (s.receiveRstStreamSMHandler rst now).thrown = none) :
    Known (z.learn (.rst rst now)) (s.receiveRstStreamSMHandler rst now).state.stream := by
  unfold receiveRstStreamSMHandler at hthrown ⊢
  split at hthrown
  · exact known_onReset h.wellFormed h.established h.highest hthrown
  · refine known_onReset ?_ ?_ ?_ hthrown
    all_goals rw [s.closeReceive_stream]
    · exact h.wellFormed.withRecvState .Closed
    · exact h.established
    · exact h.highest
  · cases hthrown

lemma Known.read (h : Known z s.stream) {amount : ℕ} {now : ℤ}
    (hthrown : (s.readDataFromQuicStream amount now).thrown = none) :
    Known z (s.readDataFromQuicStream amount now).state.1.stream := by
  rcases s.readDataFromQuicStream_cases h.wellFormed amount now with
    ⟨-,heq⟩ | ⟨hend,r,htakes,⟨e,-,heq⟩ | ⟨windowSize,queued,updates,heq⟩⟩
  · rw [heq]
    exact h.finishRead
  · rw [heq] at hthrown
    cases hthrown
  · rw [heq]
    have hafter : Known z (s.stream.afterRead r) :=
      ⟨h.wellFormed.afterRead htakes hend,h.established,h.highest,h.closed⟩
    exact hafter.finishRead

lemma Known.receive (h : Known z s.stream) (input : StreamInput) (hthrown : (s.receive input).thrown = none) :
    Known (z.learn input) (s.receive input).state.stream := by
  cases input with
  | frame f => exact h.frame f hthrown
  | rst f now => exact h.rst hthrown
  | read amount now => exact h.read hthrown

lemma Known.run (h : Known z s.stream) (inputs : List StreamInput)
    (hthrown : (Outcome.each ConnStream.receive s inputs).thrown = none) :
    Known (inputs.foldl learn z) (Outcome.each ConnStream.receive s inputs).state.stream := by
  induction inputs generalizing z s with
  | nil => exact h
  | cons input inputs ih =>
    rw [Outcome.each] at hthrown ⊢
    cases hfirst : (s.receive input).thrown with
    | none =>
      rw [Outcome.andThen_of_none hfirst] at hthrown ⊢
      exact ih (h.receive input hfirst) hthrown
    | some e =>
      rw [Outcome.andThen_of_some hfirst,hfirst] at hthrown
      cases hthrown

end FinalSize

structure QuicStreamState.Untouched (stream : QuicStreamState) : Prop where
  opened : stream.recvState = .Open
  readBuffer : stream.readBuffer=[]
  currentReadOffset : stream.currentReadOffset=0
  maxOffsetObserved : stream.maxOffsetObserved=0
  finalReadOffset : stream.finalReadOffset=none

lemma QuicStreamState.Untouched.wellFormed {stream : QuicStreamState} (h : stream.Untouched) : stream.WellFormed := by
  constructor
  case sorted => rw [h.readBuffer]; exact .nil
  case ahead => simp [h.readBuffer]
  case inside => simp [h.readBuffer]
  case final => simp [h.finalReadOffset]
  case position => simp [h.currentReadOffset]

namespace FinalSize

/-- The account of the connection and what the stream has received are the same. -/
structure SameReceived (s s' : ConnStream) : Prop where
  flowControlState : s'.conn.flowControlState=s.conn.flowControlState
  maxOffsetObserved : s'.stream.maxOffsetObserved=s.stream.maxOffsetObserved
  currentReadOffset : s'.stream.currentReadOffset=s.stream.currentReadOffset
  readBuffer : s'.stream.readBuffer=s.stream.readBuffer

/-- What a stream does with its next frame, `z` being what the frames before have established. -/
structure Enforced (z : FinalSize) (s : ConnStream) (input : StreamInput) : Prop where
  contradiction : s.stream.recvState = .Open → z.Contradicts input →
    ∃ e,(s.receive input).thrown = some e ∧ e.transportError = some .finalSizeError
  consistent : ¬z.Contradicts input →
    ∀ e,(s.receive input).thrown = some e → e.transportError≠some .finalSizeError
  unchanged : ∀ e,(s.receive input).thrown = some e →
    e.transportError = some .finalSizeError ∨ e.transportError = some .flowControlError →
    SameReceived s (s.receive input).state

variable {z : FinalSize} {s : ConnStream} {input : StreamInput}

lemma Enforced.of_done (hthrown : (s.receive input).thrown = none)
    (hfits : s.stream.recvState = .Open → ¬z.Contradicts input) : Enforced z s input := by
  refine ⟨fun hopen hcontra => absurd hcontra (hfits hopen),fun _ e he => ?_,fun e he => ?_⟩
  · rw [hthrown] at he
    cases he
  · rw [hthrown] at he
    cases he

lemma Enforced.of_other {e : Failure} (hthrown : (s.receive input).thrown = some e)
    (hfits : s.stream.recvState = .Open → ¬z.Contradicts input)
    (hsize : e.transportError≠some .finalSizeError) (hflow : e.transportError≠some .flowControlError) :
    Enforced z s input := by
  refine ⟨fun hopen hcontra => absurd hcontra (hfits hopen),fun _ e' he => ?_,fun e' he hcode => ?_⟩
  · rw [hthrown] at he
    rwa [← Option.some.inj he]
  · rw [hthrown] at he
    rw [← Option.some.inj he] at hcode
    exact absurd hcode (not_or.mpr ⟨hsize,hflow⟩)

lemma Enforced.of_fail {e : Failure} {s' : ConnStream} (heq : s.receive input = .fail e s')
    (hiff : e.transportError = some .finalSizeError ↔ z.Contradicts input)
    (hsame : SameReceived s s') : Enforced z s input := by
  refine ⟨fun _ hcontra => ⟨e,by rw [heq]; rfl,hiff.mpr hcontra⟩,fun hfits e' he => ?_,fun _ _ _ => ?_⟩
  · rw [heq] at he
    rw [← Option.some.inj he]
    exact mt hiff.mp hfits
  · rw [heq]
    exact hsame

lemma Known.enforced_frame (h : Known z s.stream) (f : ReadStreamFrame) : Enforced z s (.frame f) := by
  cases hstate : s.stream.recvState with
  | Open =>
    have hreceive : s.receive (.frame f) =
        (s.appendDataToReadBuffer ⟨f.data,f.offset,f.fin⟩).andThen fun s => .done s.maybeCloseReceive :=
      receiveReadStreamFrameSMHandler_open hstate f
    rcases s.appendDataToReadBuffer_cases ⟨f.data,f.offset,f.fin⟩ with
      ⟨hfin,hdata,heq⟩ | ⟨hne,⟨message,hcheck,heq⟩ | ⟨final,hcheck,⟨e,he,heq⟩ | heq⟩⟩
    · refine .of_done (by rw [hreceive,heq]; rfl) fun _ hcontra => ?_
      rcases hcontra with ⟨hfin',-⟩ | ⟨-,hdata',-⟩
      · rw [show f.fin = false from hfin] at hfin'
        cases hfin'
      · exact hdata' hdata
    · have hfail : s.receive (.frame f) = .fail (finalSizeViolation message) s := by
        rw [hreceive,heq]
        rfl
      exact .of_fail hfail (iff_of_true rfl ((checkFinalSize_error_iff h hne).mp ⟨message,hcheck⟩))
        ⟨rfl,rfl,rfl,rfl⟩
    all_goals
      have hfits : ¬z.Contradicts (.frame f) := by
        rw [← checkFinalSize_error_iff h hne,hcheck]
        rintro ⟨message,herror⟩
        cases herror
    · have hfail : s.receive (.frame f) = .fail e (s.setFinalReadOffset final) := by
        rw [hreceive,heq]
        rfl
      exact .of_fail hfail (iff_of_false he hfits) ⟨rfl,rfl,rfl,rfl⟩
    · exact .of_done (by rw [hreceive,heq]; rfl) fun _ => hfits
  | Closed =>
    have hopen : s.stream.recvState = .Open → ¬z.Contradicts (.frame f) := by
      rw [hstate]
      exact nofun
    have hreceive : s.receive (.frame f) =
        if isSendingStream s.conn.nodeType s.stream.id then .fail .checkFailed s else .done s := by
      show s.receiveReadStreamFrameSMHandler f = _
      unfold receiveReadStreamFrameSMHandler
      rw [hstate]
    split at hreceive
    · exact .of_other (by rw [hreceive]; rfl) hopen (by decide) (by decide)
    · exact .of_done (by rw [hreceive]; rfl) hopen
  | Invalid =>
    have hreceive : s.receive (.frame f) = .fail (invalidTransition "Invalid") s := by
      show s.receiveReadStreamFrameSMHandler f = _
      unfold receiveReadStreamFrameSMHandler
      rw [hstate]
    refine .of_other (by rw [hreceive]; rfl) ?_ (by decide) (by decide)
    rw [hstate]
    exact nofun

/-- The handler of resets moves the stream to `Closed` first, which its exceptions do not undo. -/
lemma enforced_onReset {rst : RstStreamFrame} {now : ℤ} {s' : ConnStream}
    (hreceive : s.receive (.rst rst now) = s'.onResetQuicStream rst now)
    (hestablished : s'.stream.finalReadOffset=z.established) (hhighest : s'.stream.maxOffsetObserved=z.highest)
    (hsame : SameReceived s s') : Enforced z s (.rst rst now) := by
  have hcontra : SizeMismatch s'.stream.finalReadOffset s'.stream.maxOffsetObserved rst.offset ↔
      z.Contradicts (.rst rst now) := by
    rw [hestablished,hhighest]
    rfl
  rcases s'.onResetQuicStream_cases rst now with
    ⟨hmismatch,message,heq⟩ | ⟨hfits,⟨e,he,heq⟩ | ⟨-,heq⟩ | ⟨-,heq⟩⟩
  · exact .of_fail (hreceive.trans heq) (iff_of_true rfl (hcontra.mp hmismatch)) hsame
  all_goals rw [hcontra] at hfits
  · exact .of_fail (hreceive.trans heq) (iff_of_false he hfits) hsame
  · exact .of_done (by rw [hreceive,heq]; rfl) fun _ => hfits
  · rcases ((s'.afterReset rst).skipTo rst.offset).updateFlowControlOnRead_cases s'.stream.currentReadOffset now with
      ⟨windowSize,queued,updates,hcredit⟩ | ⟨-,e,he,hcredit⟩
    · exact .of_done (by rw [hreceive,heq,hcredit]; rfl) fun _ => hfits
    · exact .of_other (by rw [hreceive,heq,hcredit]) (fun _ => hfits) (by rw [he]; decide) (by rw [he]; decide)

lemma Known.enforced_rst (h : Known z s.stream) (rst : RstStreamFrame) (now : ℤ) : Enforced z s (.rst rst now) := by
  cases hstate : s.stream.recvState with
  | Open =>
    have hreceive : s.receive (.rst rst now) = s.closeReceive.onResetQuicStream rst now := by
      show s.receiveRstStreamSMHandler rst now = _
      unfold receiveRstStreamSMHandler
      rw [hstate]
    refine enforced_onReset hreceive ?_ ?_ ⟨s.closeReceive_flowControlState,?_,?_,?_⟩
    all_goals rw [s.closeReceive_stream]
    · exact h.established
    · exact h.highest
  | Closed =>
    have hreceive : s.receive (.rst rst now) = s.onResetQuicStream rst now := by
      show s.receiveRstStreamSMHandler rst now = _
      unfold receiveRstStreamSMHandler
      rw [hstate]
    exact enforced_onReset hreceive h.established h.highest ⟨rfl,rfl,rfl,rfl⟩
  | Invalid =>
    have hreceive : s.receive (.rst rst now) = .fail (invalidTransition "Invalid") s := by
      show s.receiveRstStreamSMHandler rst now = _
      unfold receiveRstStreamSMHandler
      rw [hstate]
    refine .of_other (by rw [hreceive]; rfl) ?_ (by decide) (by decide)
    rw [hstate]
    exact nofun

lemma Known.enforced_read (h : Known z s.stream) (amount : ℕ) (now : ℤ) : Enforced z s (.read amount now) := by
  rcases s.readDataFromQuicStream_cases h.wellFormed amount now with
    ⟨-,heq⟩ | ⟨-,r,-,⟨e,he,heq⟩ | ⟨windowSize,queued,updates,heq⟩⟩
  · exact .of_done (congrArg Outcome.thrown heq) fun _ => id
  · exact .of_other heq (fun _ => id) (by rw [he]; decide) (by rw [he]; decide)
  · exact .of_done (congrArg Outcome.thrown heq) fun _ => id

/-- In a run without an exception so far, the next frame ends it with FINAL_SIZE_ERROR if it contradicts what has
been established while the stream is open, and not if it does not. -/
theorem final_size_enforced (s₀ : ConnStream) (hfresh : s₀.stream.Untouched) (inputs : List StreamInput)
    (hrun : (Outcome.each ConnStream.receive s₀ inputs).thrown = none) (input : StreamInput) :
    Enforced (learnAll inputs) (Outcome.each ConnStream.receive s₀ inputs).state input := by
  have hknown : Known {} s₀.stream := by
    refine ⟨hfresh.wellFormed,hfresh.finalReadOffset,hfresh.maxOffsetObserved,fun hclosed => ?_⟩
    rw [hfresh.opened] at hclosed
    cases hclosed
  have h := hknown.run inputs hrun
  cases input with
  | frame f => exact h.enforced_frame f
  | rst f now => exact h.enforced_rst f now
  | read amount now => exact h.enforced_read amount now

theorem final_size_enforced_reset :
    let s₀ : ConnStream :=
      {conn := {flowControlState := {advertisedMaxOffset := 100, windowSize := 100}}
       stream := {id := 0, flowControlState := {advertisedMaxOffset := 100}}}
    let inputs : List StreamInput := [.frame ⟨0,[1,2],false⟩,.frame ⟨3,[4],true⟩,.read 0 5]
    learnAll inputs = ⟨some 4,4⟩ ∧
      ∃ e,((Outcome.each receive s₀ inputs).state.receive (.rst ⟨0,7,3⟩ 6)).thrown = some e ∧
        e.transportError = some .finalSizeError := by
  intro s₀ inputs
  have hfresh : s₀.stream.Untouched := ⟨rfl,rfl,rfl,rfl,rfl⟩
  have hrun : (Outcome.each receive s₀ inputs).thrown = none := by decide +kernel
  have hlearned : learnAll inputs = ⟨some 4,4⟩ := by decide +kernel
  have hopen : (Outcome.each receive s₀ inputs).state.stream.recvState = .Open := by decide +kernel
  refine ⟨hlearned,(final_size_enforced s₀ hfresh inputs hrun (.rst ⟨0,7,3⟩ 6)).contradiction hopen ?_⟩
  rw [hlearned]
  decide

end FinalSize

end QuicWestwood
