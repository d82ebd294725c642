import QuicWestwood.ReceiveState
import QuicWestwood.Sweep

/-! Segments of a byte sequence `S` arrive in any order, with any overlap, while the application reads. What is
read is always the beginning of `S`, and what is known of `S` is the union of the segments. -/
namespace QuicWestwood
open ByteCodec QuicStreamState List

structure Receiver extends ConnStream where
  reads : List (Bytes × Bool) := []

/-- `now` is the reading of the clock in the call. -/
inductive ReceiveEvent
  | frame (frame : ReadStreamFrame)
  | read (amount : ℕ) (now : ℤ)

def ReceiveEvent.frame? : ReceiveEvent → Option ReadStreamFrame
  | .frame f => some f
  | .read _ _ => none

namespace Receiver

def returned (t : Receiver) : Bytes := t.reads.flatMap Prod.fst

def perform (t : Receiver) : ReceiveEvent → Except Failure Receiver
  | .frame frame => (⟨·,t.reads⟩) <$> (t.receiveReadStreamFrameSMHandler frame).toExcept
  | .read amount now =>
    (fun r => ⟨r.1,t.reads++[r.2]⟩) <$> (t.readDataFromQuicStream amount now).toExcept

structure Fresh (t : Receiver) : Prop where
  opened : t.stream.recvState = .Open
  readBuffer : t.stream.readBuffer=[]
  currentReadOffset : t.stream.currentReadOffset=0
  maxOffsetObserved : t.stream.maxOffsetObserved=0
  finalReadOffset : t.stream.finalReadOffset=none
  reads : t.reads=[]
  receiving : isSendingStream t.conn.nodeType t.stream.id = false
  account : t.conn.flowControlState.sumCurReadOffset≤t.conn.flowControlState.sumMaxObservedOffset
  window : t.conn.flowControlState.sumMaxObservedOffset≤t.conn.flowControlState.advertisedMaxOffset
  limit : t.conn.flowControlState.advertisedMaxOffset<kU64

end Receiver

/-- The frame carries a range of `S`, and the FIN only at its end. -/
structure ReadStreamFrame.Segment (S : Bytes) (frame : ReadStreamFrame) : Prop where
  inside : frame.endOffset≤S.length
  data : frame.data = (S.drop frame.offset).take frame.data.length
  fin : frame.fin=true → frame.endOffset=S.length

def Received (fs : List ReadStreamFrame) (x : ℕ) : Prop := ∃ f ∈ fs,f.offset≤x ∧ x<f.endOffset

def Finished (fs : List ReadStreamFrame) : Prop := ∃ f ∈ fs,f.fin=true

def Complete (S : Bytes) (fs : List ReadStreamFrame) : Prop := Finished fs ∧ ∀ x < S.length,Received fs x

structure Assembles (S : Bytes) (fs : List ReadStreamFrame) (stream : QuicStreamState) : Prop where
  sorted : SortedBuffer stream.readBuffer
  ahead : ∀ e ∈ stream.readBuffer,stream.currentReadOffset ≤ e.offset
  holds : ∀ {x v}, Holds stream.readBuffer x v → S[x]? = some v
  covers : ∀ x,(x < min stream.currentReadOffset S.length ∨ Covers stream.readBuffer x) ↔ Received fs x
  final : ∀ f ∈ stream.finalReadOffset,f = S.length
  finished : stream.finalReadOffset.isSome ↔ Finished fs
  observed : stream.maxOffsetObserved≤S.length
  bounded : ∀ x,Received fs x → x < stream.maxOffsetObserved
  position : stream.currentReadOffset ≤ stream.maxOffsetObserved ∨
    (stream.currentReadOffset = S.length+1 ∧ stream.maxOffsetObserved=S.length ∧ Finished fs)

variable {f : ReadStreamFrame}

lemma received_append {fs : List ReadStreamFrame} {x : ℕ} :
    Received (fs++[f]) x ↔ Received fs x ∨ (f.offset≤x ∧ x<f.endOffset) := by
  simp [Received,or_and_right,exists_or]

lemma finished_append {fs : List ReadStreamFrame} : Finished (fs++[f]) ↔ Finished fs ∨ f.fin=true := by
  simp [Finished,or_and_right,exists_or]

lemma ReadStreamFrame.Segment.byteAt {S : Bytes} {frame : ReadStreamFrame} (h : frame.Segment S) {x : ℕ} {v : UInt8}
    (hx : (⟨frame.data,frame.offset,frame.fin⟩ : StreamBuffer).byteAt x = some v) : S[x]? = some v := by
  obtain ⟨hoff,hv⟩ := StreamBuffer.byteAt_eq_some.mp hx
  rw [h.data,getElem?_take] at hv
  split at hv
  · rwa [getElem?_drop,Nat.add_sub_cancel' hoff] at hv
  · cases hv

namespace Assembles
variable {S : Bytes} {fs : List ReadStreamFrame} {stream : QuicStreamState}

section
variable (h : Assembles S fs stream)
include h

lemma covers_lt {x : ℕ} (hx : Covers stream.readBuffer x) : x < stream.maxOffsetObserved :=
  h.bounded x ((h.covers x).mp (.inr hx))

lemma endOffset_le {e : StreamBuffer} (he : e ∈ stream.readBuffer) :
    e.endOffset ≤ stream.maxOffsetObserved := by
  have hlt := StreamBuffer.lt_endOffset (h.sorted.nonempty e he)
  have := h.covers_lt (x := e.endOffset-1) ⟨e,he,by omega,by omega⟩
  omega

lemma finalReadOffset_eq (hfin : Finished fs) : stream.finalReadOffset = some S.length := by
  obtain ⟨f,hf⟩ := Option.isSome_iff_exists.mp (h.finished.mpr hfin)
  rw [hf,h.final f hf]

lemma finalReadOffset_none (hfin : ¬Finished fs) : stream.finalReadOffset=none := by
  rw [← h.finished] at hfin
  simpa using hfin

lemma readBuffer_eq (hlt : stream.currentReadOffset<S.length)
    (hall : ∀ x < S.length,Received fs x) :
    ∃ e,stream.readBuffer = [e] ∧ e.offset=stream.currentReadOffset ∧ e.endOffset=S.length := by
  have hcov : ∀ x,stream.currentReadOffset ≤ x → x<S.length → Covers stream.readBuffer x := by
    intro x hle hx
    exact ((h.covers x).mpr (hall x hx)).resolve_left (by omega)
  have hends : ∀ e ∈ stream.readBuffer,e.endOffset ≤ S.length := fun e he => (h.endOffset_le he).trans h.observed
  have hsorted := h.sorted
  have hahead := h.ahead
  cases hbuf : stream.readBuffer with
  | nil => exact absurd (hcov _ le_rfl hlt) (by rw [hbuf]; exact covers_nil)
  | cons e rest =>
    rw [hbuf] at hcov hends hsorted hahead
    obtain ⟨he,hbehind,hrest⟩ := SortedBuffer.cons_iff.mp hsorted
    have helt := StreamBuffer.lt_endOffset he
    have hoff : e.offset=stream.currentReadOffset := by
      refine le_antisymm ?_ (hahead e (by simp))
      rcases covers_cons.mp (hcov _ le_rfl hlt) with hx | ⟨f,hf,hx,-⟩
      · exact hx.1
      · have := hbehind f hf
        omega
    -- a further entry would leave the offset after the first one uncovered
    have hend : e.endOffset=S.length := by
      refine le_antisymm (hends e (by simp)) (le_of_not_gt fun hgap => ?_)
      rcases covers_cons.mp (hcov e.endOffset (by omega) hgap) with hx | ⟨f,hf,hx,-⟩
      · omega
      · have := hbehind f hf
        omega
    cases rest with
    | nil => exact ⟨e,rfl,hoff,hend⟩
    | cons f rest =>
      have hf := hbehind f (by simp)
      have hflt := StreamBuffer.lt_endOffset (hrest.nonempty f (by simp))
      have := hends f (by simp)
      omega

lemma isAllDataReceived_iff : stream.isAllDataReceived=true ↔ Complete S fs := by
  by_cases hfin : Finished fs
  · rw [isAllDataReceived,h.finalReadOffset_eq hfin]
    constructor
    · intro hall
      refine ⟨hfin,fun x hx => (h.covers x).mp ?_⟩
      rcases Bool.or_eq_true_iff.mp hall with hle | hone
      · have := of_decide_eq_true hle
        exact .inl (by omega)
      · split at hone
        · rename_i e hbuf
          simp only [Bool.and_eq_true,decide_eq_true_eq] at hone
          rcases lt_or_ge x stream.currentReadOffset with hlt | hge
          · exact .inl (by omega)
          · exact .inr ⟨e,by rw [hbuf]; simp,by omega,by omega⟩
        · cases hone
    · rintro ⟨-,hall⟩
      rcases lt_or_ge stream.currentReadOffset S.length with hlt | hge
      · obtain ⟨e,hbuf,hoff,hend⟩ := h.readBuffer_eq hlt hall
        simp [hbuf,hoff,hend]
      · simp [hge]
  · rw [isAllDataReceived,h.finalReadOffset_none hfin]
    exact iff_of_false (by simp) fun hcomplete => hfin hcomplete.1

lemma append_known (hreceived : ∀ x,Received (fs++[f]) x ↔ Received fs x)
    (hfinished : Finished (fs++[f]) ↔ Finished fs) : Assembles S (fs++[f]) stream :=
  {h with
    covers := fun x => (h.covers x).trans (hreceived x).symm
    finished := h.finished.trans hfinished.symm
    bounded := fun x hx => h.bounded x ((hreceived x).mp hx)
    position := by rw [hfinished]; exact h.position}

lemma append_received (hseg : f.Segment S) : Assembles S (fs++[f])
      ({stream with finalReadOffset := if f.fin then some f.endOffset else stream.finalReadOffset}.received
        ⟨f.data,f.offset,f.fin⟩) := by
  have hmerges := insertIntoReadBuffer_merges h.sorted stream.currentReadOffset ⟨f.data,f.offset,f.fin⟩
  have hend := hseg.inside
  have hobserved := h.observed
  refine ⟨hmerges.sorted,hmerges.le_offset _ fun e he => ?_,fun hx => ?_,fun x => ?_,fun g hg => ?_,?_,?_,
    fun x hx => ?_,?_⟩
  · rcases mem_cons.mp he with rfl | he
    · exact StreamBuffer.le_trimTo_offset _ _
    · exact h.ahead e he
  · rcases holds_cons.mp (hmerges.holds hx) with hx | hx
    · exact hseg.byteAt (StreamBuffer.byteAt_trimTo.mp hx).2
    · exact h.holds hx
  · have hold := h.covers x
    have hparts := hmerges.covers_iff x
    rw [← singleton_append,covers_append,covers_trimTo] at hparts
    rw [received_append,← hold]
    show (x < min stream.currentReadOffset S.length ∨
      Covers (insertIntoReadBuffer stream.readBuffer stream.currentReadOffset ⟨f.data,f.offset,f.fin⟩) x) ↔ _
    rw [hparts]
    constructor
    · rintro (hx | hx | hx)
      · exact .inl (.inl hx)
      · exact .inr hx.2
      · exact .inl (.inr hx)
    · rintro ((hx | hx) | hx)
      · exact .inl hx
      · exact .inr (.inr hx)
      · rcases lt_or_ge x stream.currentReadOffset with hlt | hge
        · exact .inl (by omega)
        · exact .inr (.inl ⟨hge,hx⟩)
  · by_cases hfin : f.fin=true
    · simp only [received,hfin,if_true,Option.mem_def,Option.some.injEq] at hg
      rw [← hg,hseg.fin hfin]
    · simp only [received,hfin,Bool.false_eq_true,if_false] at hg
      exact h.final g hg
  · rw [finished_append,← h.finished]
    by_cases hfin : f.fin=true
    · simp [received,hfin]
    · simp [received,hfin]
  · exact max_le hobserved hend
  · rcases received_append.mp hx with hx | hx
    · exact lt_max_of_lt_left (h.bounded x hx)
    · exact lt_max_of_lt_right hx.2
  · rcases h.position with hle | ⟨hcur,hmax,hfin⟩
    · exact .inl (le_max_of_le_left hle)
    · refine .inr ⟨hcur,?_,finished_append.mpr (.inl hfin)⟩
      show max stream.maxOffsetObserved f.endOffset = S.length
      omega

variable {amount : ℕ} {r : ReadState}

lemma takes_data
    (htakes : Takes amount stream.currentReadOffset stream.readBuffer r) :
    r.data = (S.drop stream.currentReadOffset).take r.data.length := by
  refine ext_getElem? fun i => ?_
  rw [getElem?_take]
  split_ifs with hi
  · rw [getElem?_drop,getElem?_eq_getElem hi]
    exact (h.holds (htakes.data i _ (getElem?_eq_getElem hi))).symm
  · exact getElem?_eq_none (not_lt.mp hi)

lemma received_of_takes
    (htakes : Takes amount stream.currentReadOffset stream.readBuffer r) {x : ℕ}
    (hle : stream.currentReadOffset≤x) (hlt : x < r.currentReadOffset) : Received fs x := by
  have hoff := htakes.offset
  obtain ⟨v,hv⟩ : ∃ v,r.data[x-stream.currentReadOffset]? = some v :=
    ⟨_,getElem?_eq_getElem (by omega)⟩
  have hholds := htakes.data _ v hv
  rw [Nat.add_sub_cancel' hle] at hholds
  exact (h.covers x).mp (.inr (covers_iff_holds.mpr ⟨v,hholds⟩))

lemma takes_le
    (htakes : Takes amount stream.currentReadOffset stream.readBuffer r)
    (hcur : stream.currentReadOffset ≤ stream.maxOffsetObserved) :
    r.currentReadOffset ≤ stream.maxOffsetObserved := by
  have hoff := htakes.offset
  rcases (show stream.currentReadOffset ≤ r.currentReadOffset by omega).lt_or_eq with hlt | heq
  · have := h.bounded _ (h.received_of_takes htakes (x := r.currentReadOffset-1) (by omega) (by omega))
    omega
  · rwa [← heq]

lemma afterRead
    (htakes : Takes amount stream.currentReadOffset stream.readBuffer r)
    (hcur : stream.currentReadOffset ≤ stream.maxOffsetObserved) : Assembles S fs (stream.afterRead r) := by
  have hobserved := h.observed
  have hoff := htakes.offset
  have hread := h.takes_le htakes hcur
  refine ⟨htakes.sorted,htakes.ahead,fun hx => h.holds (htakes.holds hx),fun x => ?_,h.final,h.finished,
    hobserved,h.bounded,.inl hread⟩
  show (x < min r.currentReadOffset S.length ∨ Covers r.readBuffer x) ↔ _
  constructor
  · rintro (hx | hx)
    · rcases lt_or_ge x stream.currentReadOffset with hlt | hge
      · exact (h.covers x).mp (.inl (by omega))
      · exact h.received_of_takes htakes hge (by omega)
    · obtain ⟨v,hv⟩ := covers_iff_holds.mp hx
      exact (h.covers x).mp (.inr (covers_iff_holds.mpr ⟨v,htakes.holds hv⟩))
  · intro hx
    have hlt := h.bounded x hx
    rcases (h.covers x).mpr hx with hx | hx
    · exact .inl (by omega)
    · rcases htakes.covers x hx with hx | hx
      · exact .inl (by omega)
      · exact .inr hx

end

lemma data_of_complete (h : Assembles S fs (stream.afterRead r))
    (htakes : Takes amount stream.currentReadOffset stream.readBuffer r) (hcomplete : Complete S fs)
    (hdata : r.data = (S.drop stream.currentReadOffset).take r.data.length) :
    r.data = (S.drop stream.currentReadOffset).take (if amount=0 then S.length else amount) := by
  by_cases hgreedy : amount=0 ∨ r.data.length<amount
  · have hend : S.length ≤ r.currentReadOffset := by
      by_contra hlt
      refine htakes.greedy hgreedy (((h.covers _).mpr (hcomplete.2 r.currentReadOffset (not_le.mp hlt))).resolve_left ?_)
      show ¬r.currentReadOffset < min r.currentReadOffset S.length
      omega
    have hoff := htakes.offset
    have hlen : (S.drop stream.currentReadOffset).length ≤ r.data.length := by
      rw [length_drop]
      omega
    rw [hdata,take_of_length_le hlen,take_of_length_le]
    split
    · rw [length_drop]
      omega
    · omega
  · have hamount : r.data.length=amount := by
      have := htakes.bounded (by omega)
      omega
    rw [if_neg (by omega),← hamount]
    exact hdata

lemma advanceRead (h : Assembles S fs stream) (hfin : Finished fs) (hcur : stream.currentReadOffset=S.length) :
    Assembles S fs (stream.advanceRead 1) := by
  have hall : ∀ x < S.length,Received fs x := fun x hx => (h.covers x).mp (.inl (by omega))
  have hobserved := h.observed
  have hmax : stream.maxOffsetObserved=S.length := by
    rcases h.position with hle | hend
    · omega
    · exact hend.2.1
  have hnone : ∀ x,¬Covers stream.readBuffer x := by
    rintro x ⟨e,he,hle,hlt⟩
    have := h.ahead e he
    have := h.endOffset_le he
    omega
  have hempty : stream.readBuffer=[] := by
    refine eq_nil_iff_forall_not_mem.mpr fun e he => ?_
    exact hnone e.offset ⟨e,he,le_rfl,StreamBuffer.lt_endOffset (h.sorted.nonempty e he)⟩
  refine ⟨h.sorted,?_,h.holds,fun x => ?_,h.final,h.finished,hobserved,h.bounded,.inr ⟨?_,hmax,hfin⟩⟩
  · show ∀ e ∈ stream.readBuffer,_
    simp [hempty]
  · rw [← h.covers x]
    show (x < min (stream.currentReadOffset+1) S.length ∨ Covers stream.readBuffer x) ↔ _
    rw [hcur,min_self,min_eq_right (Nat.le_succ _)]
  · show stream.currentReadOffset+1 = _
    rw [hcur]

lemma withRecvState (h : Assembles S fs stream) (recvState : StreamRecvState) :
    Assembles S fs {stream with recvState} :=
  {h with}

lemma checkFinalSize_eq (h : Assembles S fs stream) (hseg : f.Segment S) :
    stream.checkFinalSize ⟨f.data,f.offset,f.fin⟩ =
      .ok (if f.fin then some f.endOffset else stream.finalReadOffset) := by
  have hend := hseg.inside
  have hobserved := h.observed
  unfold checkFinalSize
  by_cases hfin : f.fin=true
  · have hlast := hseg.fin hfin
    rw [if_pos hfin,if_pos hfin,if_neg,if_neg]
    · rfl
    · show ¬f.endOffset<_
      omega
    · rintro ⟨g,hg,hne⟩
      exact hne ((h.final g hg).trans hlast.symm)
  · rw [if_neg hfin,if_neg hfin,if_neg]
    rintro ⟨g,hg,hlt⟩
    have := h.final g hg
    change g < f.endOffset at hlt
    omega

end Assembles

namespace Receiver

structure Kept (S : Bytes) (t₀ : Receiver) (fs : List ReadStreamFrame) (t : Receiver) : Prop where
  assembles : Assembles S fs t.stream
  returned : t.returned = S.take t.stream.currentReadOffset
  streamLimit : t.stream.flowControlState=t₀.stream.flowControlState
  limit : t.conn.flowControlState.advertisedMaxOffset=t₀.conn.flowControlState.advertisedMaxOffset
  clock : ∀ now,t.conn.ClockAhead now ↔ t₀.conn.ClockAhead now
  receiving : isSendingStream t.conn.nodeType t.stream.id = false
  observed : t.conn.flowControlState.sumMaxObservedOffset =
    t₀.conn.flowControlState.sumMaxObservedOffset+t.stream.maxOffsetObserved
  read : t.conn.flowControlState.sumCurReadOffset =
    t₀.conn.flowControlState.sumCurReadOffset+min t.stream.currentReadOffset t.stream.maxOffsetObserved
  window : t.conn.flowControlState.sumMaxObservedOffset≤t.conn.flowControlState.advertisedMaxOffset

structure Reached (S : Bytes) (t₀ : Receiver) (fs : List ReadStreamFrame) (t : Receiver) : Prop
    extends Kept S t₀ fs t where
  opened : ¬Complete S fs → t.stream.recvState = .Open
  closed : Complete S fs → t.stream.recvState = .Closed

variable {S : Bytes} {t₀ t : Receiver} {fs : List ReadStreamFrame}

lemma Fresh.reached (h : t₀.Fresh) (S : Bytes) : Reached S t₀ [] t₀ := by
  have hincomplete : ¬Complete S [] := fun hc => by simp [Complete,Finished] at hc
  have hassembles : Assembles S [] t₀.stream := by
    constructor
    case sorted => rw [h.readBuffer]; exact .nil
    case ahead => simp [h.readBuffer]
    case holds => simp [h.readBuffer,Holds]
    case covers => simp [h.readBuffer,h.currentReadOffset,Received]
    case final => simp [h.finalReadOffset]
    case finished => simp [h.finalReadOffset,Finished]
    case observed => simp [h.maxOffsetObserved]
    case bounded => simp [Received]
    case position => simp [h.currentReadOffset]
  refine ⟨⟨hassembles,?_,rfl,rfl,fun _ => Iff.rfl,h.receiving,?_,?_,h.window⟩,fun _ => h.opened,
    fun hc => absurd hc hincomplete⟩
  · simp [Receiver.returned,h.reads,h.currentReadOffset]
  · simp [h.maxOffsetObserved]
  · simp [h.currentReadOffset]

lemma Reached.append_known (h : Reached S t₀ fs t)
    (hknown : ∀ x,f.offset ≤ x → x<f.endOffset → Received fs x) (hfin : f.fin=true → Finished fs) :
    Reached S t₀ (fs++[f]) t := by
  have hreceived (x : ℕ) : Received (fs++[f]) x ↔ Received fs x := by
    rw [received_append]
    exact ⟨fun hx => hx.elim id fun hx => hknown x hx.1 hx.2,.inl⟩
  have hfinished : Finished (fs++[f]) ↔ Finished fs := by
    rw [finished_append]
    exact ⟨fun hx => hx.elim id hfin,.inl⟩
  have hcomplete : Complete S (fs++[f]) ↔ Complete S fs :=
    and_congr hfinished (forall₂_congr fun x _ => hreceived x)
  exact {h with
    assembles := h.assembles.append_known hreceived hfinished
    opened := by rw [hcomplete]; exact h.opened
    closed := by rw [hcomplete]; exact h.closed}

def Admissible (S : Bytes) (t₀ : Receiver) : ReceiveEvent → Prop
  | .frame f => f.Segment S ∧ f.endOffset≤t₀.stream.flowControlState.advertisedMaxOffset ∧
      t₀.conn.flowControlState.sumMaxObservedOffset+f.endOffset ≤ t₀.conn.flowControlState.advertisedMaxOffset
  | .read _ now => t₀.conn.ClockAhead now

lemma Kept.closeReceive {s : ConnStream} {reads : List (Bytes × Bool)} (h : Kept S t₀ fs ⟨s,reads⟩) :
    Kept S t₀ fs ⟨s.closeReceive,reads⟩ := by
  obtain ⟨closedStreams,heq⟩ := s.closeReceive_eq
  rw [heq]
  exact {h with assembles := h.assembles.withRecvState .Closed}

lemma Kept.appendDataToReadBuffer (h : Kept S t₀ fs t) (hadmissible : Admissible S t₀ (.frame f))
    (hne : ¬(f.fin=false ∧ f.data=[]))
    (hlimit : t₀.conn.flowControlState.advertisedMaxOffset<kU64) :
    ∃ s,t.appendDataToReadBuffer ⟨f.data,f.offset,f.fin⟩ = .done s ∧
      s.stream.recvState = t.stream.recvState ∧ Kept S t₀ (fs++[f]) ⟨s,t.reads⟩ := by
  obtain ⟨hseg,hstream,hconn⟩ := hadmissible
  set final := if f.fin then some f.endOffset else t.stream.finalReadOffset
  have hwindow := h.window
  have hobserved := h.observed
  have hread := h.read
  have hgrown : t.conn.flowControlState.sumMaxObservedOffset+(f.endOffset-t.stream.maxOffsetObserved) ≤
      t.conn.flowControlState.advertisedMaxOffset := by
    rw [h.limit] at hwindow ⊢
    omega
  have hflow : (t.setFinalReadOffset final).updateFlowControlOnStreamData t.stream.maxOffsetObserved f.endOffset =
      .done ⟨t.conn.observed (f.endOffset-t.stream.maxOffsetObserved),
        {t.stream with finalReadOffset := final}⟩ := by
    refine ConnStream.updateFlowControlOnStreamData_of_le ?_ hgrown ?_
    · show f.endOffset ≤ t.stream.flowControlState.advertisedMaxOffset
      rwa [h.streamLimit]
    · show t.conn.flowControlState.advertisedMaxOffset < kU64
      rwa [h.limit]
  refine ⟨⟨t.conn.observed (f.endOffset-t.stream.maxOffsetObserved),
    {t.stream with finalReadOffset := final}.received ⟨f.data,f.offset,f.fin⟩⟩,?_,rfl,?_⟩
  · unfold ConnStream.appendDataToReadBuffer
    rw [if_neg hne,h.assembles.checkFinalSize_eq hseg]
    show ((t.setFinalReadOffset final).updateFlowControlOnStreamData t.stream.maxOffsetObserved
      f.endOffset).andThen _ = _
    rw [hflow]
    rfl
  · refine {h with assembles := h.assembles.append_received hseg, observed := ?_, read := ?_, window := hgrown}
    · show t.conn.flowControlState.sumMaxObservedOffset+_ = _+max t.stream.maxOffsetObserved f.endOffset
      omega
    · show t.conn.flowControlState.sumCurReadOffset =
        _+min t.stream.currentReadOffset (max t.stream.maxOffsetObserved f.endOffset)
      have := hseg.inside
      rcases h.assembles.position with hle | ⟨-,hmax,-⟩
      · omega
      · omega

lemma Reached.append_received (h : Reached S t₀ fs t) (hopen : t.stream.recvState = .Open)
    (hadmissible : Admissible S t₀ (.frame f)) (hne : ¬(f.fin=false ∧ f.data=[]))
    (hlimit : t₀.conn.flowControlState.advertisedMaxOffset<kU64) :
    ∃ s,t.receiveReadStreamFrameSMHandler f = .done s ∧ Reached S t₀ (fs++[f]) ⟨s,t.reads⟩ := by
  obtain ⟨s,happend,hopened,hkept⟩ := h.toKept.appendDataToReadBuffer hadmissible hne hlimit
  have hstep : t.receiveReadStreamFrameSMHandler f =
      .done (if s.stream.isAllDataReceived then s.closeReceive else s) := by
    unfold ConnStream.receiveReadStreamFrameSMHandler
    rw [hopen,happend]
    rfl
  have hiff := hkept.assembles.isAllDataReceived_iff
  refine ⟨_,hstep,?_⟩
  split_ifs with hall
  · refine ⟨hkept.closeReceive,fun hc => absurd (hiff.mp hall) hc,fun _ => ?_⟩
    obtain ⟨closedStreams,heq⟩ := s.closeReceive_eq
    rw [heq]
  · exact ⟨hkept,fun _ => hopened.trans hopen,fun hc => absurd (hiff.mpr hc) hall⟩

lemma Reached.perform_frame (h : Reached S t₀ fs t)
    (hlimit : t₀.conn.flowControlState.advertisedMaxOffset<kU64) (hadmissible : Admissible S t₀ (.frame f)) :
    ∃ t',t.perform (.frame f) = .ok t' ∧ Reached S t₀ (fs++[f]) t' := by
  by_cases hcomplete : Complete S fs
  · have hstep : t.receiveReadStreamFrameSMHandler f = .done t.toConnStream := by
      unfold ConnStream.receiveReadStreamFrameSMHandler
      rw [h.closed hcomplete]
      exact if_neg (by rw [h.receiving]; decide)
    refine ⟨t,by rw [perform,hstep]; rfl,h.append_known (fun x _ hx => ?_) fun _ => hcomplete.1⟩
    exact hcomplete.2 x (hx.trans_le hadmissible.1.inside)
  · have hopen := h.opened hcomplete
    by_cases hne : f.fin=false ∧ f.data=[]
    · have hstep : t.receiveReadStreamFrameSMHandler f = .done t.toConnStream := by
        unfold ConnStream.receiveReadStreamFrameSMHandler ConnStream.appendDataToReadBuffer
        rw [hopen]
        rw [if_pos hne,Outcome.done_andThen,if_neg (mt h.assembles.isAllDataReceived_iff.mp hcomplete)]
      refine ⟨t,by rw [perform,hstep]; rfl,h.append_known (fun x hle hlt => ?_) fun hfin => ?_⟩
      · rw [ReadStreamFrame.endOffset,hne.2,length_nil] at hlt
        omega
      · rw [hne.1] at hfin
        cases hfin
    · obtain ⟨s,hstep,hreached⟩ := h.append_received hopen hadmissible hne hlimit
      exact ⟨_,by rw [perform,hstep]; rfl,hreached⟩

def ReadResult (S : Bytes) (fs : List ReadStreamFrame) (t : Receiver) (amount : ℕ) (t' : Receiver) : Prop :=
  ∃ data eof,t'.reads = t.reads++[(data,eof)] ∧ (eof=true ↔ Finished fs ∧ t'.returned=S) ∧
    (Complete S fs → data = (S.drop t.stream.currentReadOffset).take (if amount=0 then S.length else amount))

lemma returned_append (s : ConnStream) (reads : List (Bytes × Bool)) (data : Bytes) (eof : Bool) :
    (⟨s,reads++[(data,eof)]⟩ : Receiver).returned = reads.flatMap Prod.fst++data := by
  simp [returned]

lemma Reached.advanceRead {conn : StreamConnection} {stream : QuicStreamState} {reads : List (Bytes × Bool)}
    (h : Reached S t₀ fs ⟨⟨conn,stream⟩,reads⟩) (hfin : Finished fs) (hlen : stream.currentReadOffset=S.length) :
    Reached S t₀ fs ⟨⟨conn,stream.advanceRead 1⟩,reads⟩ := by
  have hnext := h.assembles.advanceRead hfin hlen
  have hmax : stream.maxOffsetObserved=S.length := by
    rcases hnext.position with hle | hend
    · have : stream.maxOffsetObserved≤S.length := h.assembles.observed
      change stream.currentReadOffset+1 ≤ stream.maxOffsetObserved at hle
      omega
    · exact hend.2.1
  refine {h with assembles := hnext, returned := h.returned.trans ?_, read := h.read.trans ?_}
  · show S.take stream.currentReadOffset = S.take (stream.currentReadOffset+1)
    rw [take_of_length_le (by omega),take_of_length_le (by omega)]
  · show _+min stream.currentReadOffset stream.maxOffsetObserved =
      _+min (stream.currentReadOffset+1) stream.maxOffsetObserved
    omega

lemma Reached.read_end (h : Reached S t₀ fs t) (hfin : Finished fs) (hend : S.length≤t.stream.currentReadOffset)
    (amount : ℕ) (now : ℤ) :
    ∃ t',t.perform (.read amount now) = .ok t' ∧ Reached S t₀ fs t' ∧ ReadResult S fs t amount t' := by
  have hfinal := h.assembles.finalReadOffset_eq hfin
  set stream := if t.stream.finalReadOffset = some t.stream.currentReadOffset then t.stream.advanceRead 1
    else t.stream with hstream
  have hstep : t.readDataFromQuicStream amount now = .done (⟨t.conn,stream⟩,[],true) :=
    if_pos ⟨S.length,hfinal,hend⟩
  have hreturned (s : ConnStream) : (⟨s,t.reads++[([],true)]⟩ : Receiver).returned = t.returned := by
    rw [returned_append,append_nil]
    rfl
  have hread : Reached S t₀ fs ⟨⟨t.conn,t.stream⟩,t.reads++[([],true)]⟩ :=
    {h with returned := (hreturned _).trans h.returned}
  refine ⟨⟨⟨t.conn,stream⟩,t.reads++[([],true)]⟩,by rw [perform,hstep]; rfl,?_,[],true,rfl,?_,?_⟩
  · rw [hstream]
    split
    · rename_i hcur
      exact hread.advanceRead hfin (h.assembles.final _ hcur)
    · exact hread
  · rw [hreturned,h.returned,take_of_length_le hend]
    simp [hfin]
  · intro _
    rw [drop_eq_nil_of_le hend,take_nil]

lemma Reached.read_data (h : Reached S t₀ fs t) (h₀ : t₀.Fresh)
    (hend : ¬(Finished fs ∧ S.length≤t.stream.currentReadOffset)) (amount : ℕ) {now : ℤ}
    (hclock : t₀.conn.ClockAhead now) :
    ∃ t',t.perform (.read amount now) = .ok t' ∧ Reached S t₀ fs t' ∧ ReadResult S fs t amount t' := by
  have hobserved := h.assembles.observed
  have hcur : t.stream.currentReadOffset≤t.stream.maxOffsetObserved :=
    h.assembles.position.resolve_right fun hpos => hend ⟨hpos.2.2,by omega⟩
  have hpre : ¬∃ final ∈ t.stream.finalReadOffset,final≤t.stream.currentReadOffset := by
    rintro ⟨final,hfinal,hle⟩
    have hlen := h.assembles.final final hfinal
    exact hend ⟨h.assembles.finished.mp (Option.isSome_iff_exists.mpr ⟨final,hfinal⟩),by omega⟩
  obtain ⟨r,hreadFrom,htakes⟩ := readFrom_takes h.assembles.sorted h.assembles.ahead amount
  have hoff := htakes.offset
  have hle := h.assembles.takes_le htakes hcur
  have hafter := h.assembles.afterRead htakes hcur
  -- the connection is credited with what has been read
  have hsum : t.conn.flowControlState.sumCurReadOffset+(r.currentReadOffset-t.stream.currentReadOffset) < kU64 := by
    have := h.read
    have := h.observed
    have := h.window
    have := h.limit
    have := h₀.account
    have := h₀.limit
    omega
  obtain ⟨windowSize,queued,updates,hcredit⟩ := ConnStream.updateFlowControlOnRead_eq
    (s := ⟨t.conn,t.stream.afterRead r⟩) ((h.clock now).mpr hclock) hsum
  set conn := t.conn.credited (r.currentReadOffset-t.stream.currentReadOffset) windowSize queued updates
  have hreturned (s : ConnStream) (eof : Bool) :
      (⟨s,t.reads++[(r.data,eof)]⟩ : Receiver).returned = S.take r.currentReadOffset := by
    rw [returned_append,hoff,take_add,← h.assembles.takes_data htakes,← h.returned]
    rfl
  have hreached (eof : Bool) :
      Reached S t₀ fs ⟨⟨conn,t.stream.afterRead r⟩,t.reads++[(r.data,eof)]⟩ := by
    refine {h with assembles := hafter, returned := hreturned _ eof, read := ?_}
    show t.conn.flowControlState.sumCurReadOffset+(r.currentReadOffset-t.stream.currentReadOffset) =
      _+min r.currentReadOffset t.stream.maxOffsetObserved
    have := h.read
    omega
  have hcomplete (hc : Complete S fs) :
      r.data = (S.drop t.stream.currentReadOffset).take (if amount=0 then S.length else amount) :=
    hafter.data_of_complete htakes hc (h.assembles.takes_data htakes)
  have hstep : t.readDataFromQuicStream amount now =
      if t.stream.finalReadOffset = some r.currentReadOffset then
        .done (⟨conn,(t.stream.afterRead r).advanceRead 1⟩,r.data,true)
      else .done (⟨conn,t.stream.afterRead r⟩,r.data,false) := by
    unfold ConnStream.readDataFromQuicStream
    rw [if_neg hpre,hreadFrom]
    dsimp only
    rw [hcredit]
    rfl
  by_cases hlast : t.stream.finalReadOffset = some r.currentReadOffset
  · rw [if_pos hlast] at hstep
    have hlen := h.assembles.final _ hlast
    have hfin : Finished fs := h.assembles.finished.mp (by rw [hlast]; rfl)
    refine ⟨_,by rw [perform,hstep]; rfl,(hreached true).advanceRead hfin hlen,r.data,true,rfl,?_,hcomplete⟩
    rw [hreturned,hlen,take_length]
    simp [hfin]
  · rw [if_neg hlast] at hstep
    refine ⟨_,by rw [perform,hstep]; rfl,hreached false,r.data,false,rfl,?_,hcomplete⟩
    rw [hreturned]
    refine iff_of_false (by decide) fun hall => hlast ?_
    have hlen := congrArg length hall.2
    rw [length_take] at hlen
    rw [h.assembles.finalReadOffset_eq hall.1]
    congr 1
    omega

lemma Reached.perform_read (h : Reached S t₀ fs t) (h₀ : t₀.Fresh) (amount : ℕ) {now : ℤ}
    (hclock : t₀.conn.ClockAhead now) :
    ∃ t',t.perform (.read amount now) = .ok t' ∧ Reached S t₀ fs t' ∧ ReadResult S fs t amount t' := by
  by_cases hend : Finished fs ∧ S.length≤t.stream.currentReadOffset
  · exact h.read_end hend.1 hend.2 amount now
  · exact h.read_data h₀ hend amount hclock

def frames (events : List ReceiveEvent) : List ReadStreamFrame := events.filterMap ReceiveEvent.frame?

lemma run_reached (h₀ : t₀.Fresh) (events : List ReceiveEvent) (hadmissible : ∀ e ∈ events,Admissible S t₀ e) :
    ∃ t,runFallible perform t₀ events = .ok t ∧ Reached S t₀ (frames events) t := by
  induction events using reverseRecOn with
  | nil => exact ⟨t₀,rfl,h₀.reached S⟩
  | append_singleton events e ih =>
    obtain ⟨t,hrun,hreached⟩ := ih fun e he => hadmissible e (by simp [he])
    have hlast := hadmissible e (by simp)
    have hone : ∀ t',t.perform e = .ok t' → runFallible perform t₀ (events++[e]) = .ok t' := by
      intro t' ht'
      rw [runFallible_append,hrun]
      show (t.perform e >>= fun t => .ok t) = _
      rw [ht']
      rfl
    cases e with
    | frame f =>
      obtain ⟨t',hstep,hnext⟩ := hreached.perform_frame h₀.limit hlast
      refine ⟨t',hone t' hstep,?_⟩
      simpa [frames,filterMap_cons,ReceiveEvent.frame?] using hnext
    | read amount now =>
      obtain ⟨t',hstep,hnext,-⟩ := hreached.perform_read h₀ amount hlast
      refine ⟨t',hone t' hstep,?_⟩
      simpa [frames,filterMap_cons,ReceiveEvent.frame?] using hnext

structure Reassembled (S : Bytes) (t₀ : Receiver) (fs : List ReadStreamFrame) (t : Receiver) : Prop where
  returned : t.returned = S.take (min t.stream.currentReadOffset S.length)
  sorted : SortedBuffer t.stream.readBuffer
  ahead : ∀ e ∈ t.stream.readBuffer,t.stream.currentReadOffset ≤ e.offset
  /-- The offsets that are buffered or read are those of the segments, in whatever order they came. -/
  known : ∀ x,(x < min t.stream.currentReadOffset S.length ∨ Covers t.stream.readBuffer x) ↔ Received fs x
  closed : t.stream.recvState = .Closed ↔ Complete S fs
  next : ∀ amount now,t₀.conn.ClockAhead now →
    ∃ t',t.perform (.read amount now) = .ok t' ∧ ReadResult S fs t amount t'

/-- Whatever the order and the overlap of the segments and the amounts of the reads. -/
theorem reassembles (S : Bytes) (t₀ : Receiver) (hfresh : t₀.Fresh) (events : List ReceiveEvent)
    (hadmissible : ∀ e ∈ events,Admissible S t₀ e) :
    ∃ t,runFallible perform t₀ events = .ok t ∧ Reassembled S t₀ (frames events) t := by
  obtain ⟨t,hrun,h⟩ := run_reached hfresh events hadmissible
  refine ⟨t,hrun,?_,h.assembles.sorted,h.assembles.ahead,h.assembles.covers,⟨fun hclosed => ?_,h.closed⟩,
    fun amount now hclock => ?_⟩
  · rw [h.returned,take_eq_take_min]
  · by_contra hc
    rw [h.opened hc] at hclosed
    cases hclosed
  · obtain ⟨t',hstep,-,hresult⟩ := h.perform_read hfresh amount hclock
    exact ⟨t',hstep,hresult⟩

theorem reassembles_two_segments :
    let t₀ : Receiver :=
      {conn := {flowControlState := {advertisedMaxOffset := 100, windowSize := 100}}
       stream := {id := 0, flowControlState := {advertisedMaxOffset := 100}}}
    let events : List ReceiveEvent :=
      [.frame ⟨2,[3,4],true⟩,.read 0 5,.frame ⟨0,[1,2,3],false⟩,.read 3 6]
    ∃ t,runFallible perform t₀ events = .ok t ∧ t.returned = [1,2,3] ∧
      Reassembled [1,2,3,4] t₀ (frames events) t := by
  intro t₀ events
  have hadmissible : ∀ e ∈ events,Admissible [1,2,3,4] t₀ e := by
    intro e he
    simp only [events,mem_cons,not_mem_nil,or_false] at he
    rcases he with rfl | rfl | rfl | rfl
    · exact ⟨⟨by decide,by decide,by decide⟩,by decide,by decide⟩
    · exact nofun
    · exact ⟨⟨by decide,by decide,by decide⟩,by decide,by decide⟩
    · exact nofun
  have hfresh : t₀.Fresh := ⟨rfl,rfl,rfl,rfl,rfl,rfl,by decide,by decide,by decide,by decide⟩
  obtain ⟨t,hrun,h⟩ := reassembles [1,2,3,4] t₀ hfresh events hadmissible
  refine ⟨t,hrun,?_,h⟩
  have hreturned : returned <$> runFallible perform t₀ events = .ok [1,2,3] := by decide +kernel
  rw [hrun] at hreturned
  exact Except.ok.inj hreturned

end Receiver

end QuicWestwood
