import QuicWestwood.FlowController
import QuicWestwood.QuicInteger
import QuicWestwood.Run

/-! The streams of a connection are read, updates are queued, written into packets and lost in any order. With a
fixed window an update is queued, or enough of the window is left, at all times. -/
namespace QuicWestwood
open Function

structure WindowState where
  conn : StreamConnection
  streams : StreamId → QuicStreamState

inductive WindowEvent
  /-- The application reads bytes of a stream. -/
  | read (id : StreamId) (length : ℕ) (time : ℤ)
  | streamBlocked (id : StreamId) (now : ℤ)
  | connBlocked
  /-- A packet with the update is written: the frame is generated and reported as sent. -/
  | streamUpdateSent (id : StreamId) (time : ℤ)
  | connUpdateSent (time : ℤ)
  | streamUpdateLost (id : StreamId)
  | connUpdateLost
  deriving DecidableEq

namespace WindowState

def onStream (s : WindowState) (id : StreamId) (f : ConnStream → Outcome Failure ConnStream) :
    Outcome Failure WindowState :=
  .within (fun t => ⟨t.conn,update s.streams id t.stream⟩) (f ⟨s.conn,s.streams id⟩)

def readBytes (length : ℕ) (time : ℤ) (t : ConnStream) : Outcome Failure ConnStream :=
  ConnStream.updateFlowControlOnRead ⟨t.conn,t.stream.advanceRead length⟩ t.stream.currentReadOffset time

def perform (s : WindowState) : WindowEvent → Outcome Failure WindowState
  | .read id length time => s.onStream id (readBytes length time)
  | .streamBlocked id now => s.onStream id fun t => t.handleStreamBlocked now
  | .connBlocked => .done {s with conn := s.conn.handleConnBlocked}
  | .streamUpdateSent id time =>
    s.onStream id fun t => .done (t.onStreamWindowUpdateSent t.generateMaxStreamDataFrame time)
  | .connUpdateSent time =>
    .done {s with conn := s.conn.onConnWindowUpdateSent s.conn.generateMaxDataFrame time}
  | .streamUpdateLost id => s.onStream id fun t => .done t.onStreamWindowUpdateLost
  | .connUpdateLost => .done {s with conn := s.conn.onConnWindowUpdateLost}

def step (s : WindowState) (e : WindowEvent) : WindowState := (s.perform e).state

/-- Streams and connection as they are set up, with windows that can be advertised. -/
structure Fresh (s : WindowState) : Prop where
  id_eq : ∀ id,(s.streams id).id = id
  stream_read : ∀ id,(s.streams id).currentReadOffset = 0
  stream_advertised : ∀ id,
    (s.streams id).flowControlState.advertisedMaxOffset = (s.streams id).flowControlState.windowSize
  stream_window : ∀ id,0 < (s.streams id).flowControlState.windowSize ∧
    (s.streams id).flowControlState.windowSize ≤ kEightByteLimit
  conn_read : s.conn.flowControlState.sumCurReadOffset=0
  conn_advertised : s.conn.flowControlState.advertisedMaxOffset=s.conn.flowControlState.windowSize
  conn_window : 0 < s.conn.flowControlState.windowSize ∧ s.conn.flowControlState.windowSize≤kEightByteLimit

/-- Only bytes that the limits let in can be read, and the limits that follow can be encoded. -/
def ReadAllowed (s : WindowState) : WindowEvent → Prop
  | .read id length _ =>
    (s.streams id).currentReadOffset+length ≤ (s.streams id).flowControlState.advertisedMaxOffset ∧
    s.conn.flowControlState.sumCurReadOffset+length ≤ s.conn.flowControlState.advertisedMaxOffset ∧
    (s.streams id).currentReadOffset+length+(s.streams id).flowControlState.windowSize ≤ kEightByteLimit ∧
    s.conn.flowControlState.sumCurReadOffset+length+s.conn.flowControlState.windowSize ≤ kEightByteLimit
  | _ => True

end WindowState

/-- A window of which either an update is queued or the part that the peer may still use, times the
update frequency `f`, is no less than the window. -/
structure Supplied (f windowSize readOffset advertised : ℕ) (queued : Prop) : Prop where
  enough : queued ∨ windowSize ≤ (advertised-readOffset)*f
  le_window : advertised ≤ readOffset+windowSize

/-- The range in which the 64-bit arithmetic on a window is exact. -/
structure InRange (windowSize readOffset advertised : ℕ) : Prop where
  read_le : readOffset≤advertised
  le_window : advertised ≤ readOffset+windowSize
  encodable : readOffset+windowSize ≤ kEightByteLimit

section Window
variable {f windowSize readOffset advertised length : ℕ} {queued queued' : Prop}

lemma Supplied.mono (h : Supplied f windowSize readOffset advertised queued) (hq : queued → queued') :
    Supplied f windowSize readOffset advertised queued' :=
  ⟨h.enough.imp_left hq,h.le_window⟩

lemma InRange.next (h : InRange windowSize readOffset advertised) :
    (readOffset+windowSize) % kU64 = readOffset+windowSize := by
  have := h.encodable
  unfold kEightByteLimit at this
  exact Nat.mod_eq_of_lt (by unfold kU64; omega)

lemma InRange.max_eq (h : InRange windowSize readOffset advertised) :
    max ((readOffset+windowSize) % kU64) advertised = readOffset+windowSize := by
  rw [h.next,max_eq_left h.le_window]

lemma supplied_full (hf : 1≤f) : Supplied f windowSize readOffset (readOffset+windowSize) queued := by
  refine ⟨.inr ?_,le_rfl⟩
  rw [Nat.add_sub_cancel_left]
  exact Nat.le_mul_of_pos_right _ hf

lemma supplied_zero (hf : 1≤f) : Supplied f windowSize 0 windowSize queued := by
  simpa only [Nat.zero_add] using @supplied_full f windowSize 0 queued hf

lemma inRange_zero (h : windowSize≤kEightByteLimit) : InRange windowSize 0 windowSize :=
  ⟨Nat.zero_le _,(Nat.zero_add _).ge,(Nat.zero_add _).trans_le h⟩

lemma InRange.full (h : InRange windowSize readOffset advertised) :
    InRange windowSize readOffset (readOffset+windowSize) :=
  ⟨Nat.le_add_right _ _,le_rfl,h.encodable⟩

lemma InRange.supplied_of_none (h : InRange windowSize readOffset advertised)
    {settings : FlowControlSettings} (hf : 1 ≤ settings.flowControlWindowFrequency) {srtt time : ℤ}
    {last : Option ℤ}
    (hnone : calculateNewWindowUpdate readOffset advertised windowSize srtt settings last time = none) :
    windowSize ≤ (advertised-readOffset)*settings.flowControlWindowFrequency := by
  unfold calculateNewWindowUpdate at hnone
  simp only [h.next] at hnone
  split_ifs at hnone with hsame htime hwindow
  · rw [← hsame,Nat.add_sub_cancel_left]
    exact Nat.le_mul_of_pos_right _ hf
  · have hread := h.read_le
    have hle := h.le_window
    have henc := h.encodable
    unfold kEightByteLimit at henc
    have hsub := subU64_of_le hread (by omega)
    rw [hsub] at hwindow
    exact (not_lt.mp hwindow).trans (Nat.mod_le _ _)

end Window

namespace WindowState

def StreamSupplied (s : WindowState) (id : StreamId) : Prop :=
  Supplied s.conn.transportSettings.flowControlWindowFrequency (s.streams id).flowControlState.windowSize
    (s.streams id).currentReadOffset (s.streams id).flowControlState.advertisedMaxOffset
    (id ∈ s.conn.windowUpdates)

def ConnSupplied (s : WindowState) : Prop :=
  Supplied s.conn.transportSettings.flowControlWindowFrequency s.conn.flowControlState.windowSize
    s.conn.flowControlState.sumCurReadOffset s.conn.flowControlState.advertisedMaxOffset
    (s.conn.connWindowUpdate=true)

def StreamInRange (s : WindowState) (id : StreamId) : Prop :=
  InRange (s.streams id).flowControlState.windowSize (s.streams id).currentReadOffset
    (s.streams id).flowControlState.advertisedMaxOffset

def ConnInRange (s : WindowState) : Prop :=
  InRange s.conn.flowControlState.windowSize s.conn.flowControlState.sumCurReadOffset
    s.conn.flowControlState.advertisedMaxOffset

structure Invariant (s : WindowState) : Prop where
  id_eq : ∀ id,(s.streams id).id = id
  frequency : 1 ≤ s.conn.transportSettings.flowControlWindowFrequency
  connTuning : s.conn.transportSettings.autotuneReceiveConnFlowControl=false
  streamTuning : s.conn.transportSettings.autotuneReceiveStreamFlowControl=false
  stream_range : ∀ id,s.StreamInRange id
  conn_range : s.ConnInRange
  stream : ∀ id,(s.streams id).recvState = .Open → s.StreamSupplied id
  conn : s.ConnSupplied

structure Advances (s t : WindowState) : Prop where
  stream_advertised : ∀ id,(s.streams id).flowControlState.advertisedMaxOffset ≤
    (t.streams id).flowControlState.advertisedMaxOffset
  stream_window : ∀ id,(t.streams id).flowControlState.windowSize = (s.streams id).flowControlState.windowSize
  stream_state : ∀ id,(t.streams id).recvState = (s.streams id).recvState
  conn_advertised : s.conn.flowControlState.advertisedMaxOffset≤t.conn.flowControlState.advertisedMaxOffset
  conn_window : t.conn.flowControlState.windowSize=s.conn.flowControlState.windowSize

section Steps
variable {s : WindowState} {id : StreamId}

/-- The stream is given with the connection alone, as if every stream were this one. -/
lemma Invariant.onStream (h : s.Invariant) {t : ConnStream} (hid : t.stream.id=id)
    (hsettings : t.conn.transportSettings=s.conn.transportSettings)
    (hqueued : ∀ other,other≠id → other ∈ s.conn.windowUpdates → other ∈ t.conn.windowUpdates)
    (hrange : StreamInRange ⟨t.conn,fun _ => t.stream⟩ id)
    (hstream : t.stream.recvState = .Open → StreamSupplied ⟨t.conn,fun _ => t.stream⟩ id)
    (hconnRange : ConnInRange {s with conn := t.conn}) (hconn : ConnSupplied {s with conn := t.conn}) :
    Invariant ⟨t.conn,update s.streams id t.stream⟩ where
  id_eq := (forall_update_iff s.streams fun id stream => stream.id=id).mpr ⟨hid,fun _ _ => h.id_eq _⟩
  frequency := hsettings ▸ h.frequency
  connTuning := hsettings ▸ h.connTuning
  streamTuning := hsettings ▸ h.streamTuning
  stream_range := (forall_update_iff s.streams fun id stream => StreamInRange ⟨t.conn,fun _ => stream⟩ id).mpr
    ⟨hrange,fun _ _ => h.stream_range _⟩
  conn_range := hconnRange
  stream := by
    refine (forall_update_iff s.streams fun id stream => stream.recvState = .Open →
      StreamSupplied ⟨t.conn,fun _ => stream⟩ id).mpr ⟨hstream,fun other hne hopen => ?_⟩
    rw [StreamSupplied,hsettings]
    exact (h.stream other hopen).mono (hqueued other hne)
  conn := hconn

lemma advances_onStream {t : ConnStream}
    (hadvertised : (s.streams id).flowControlState.advertisedMaxOffset ≤ t.stream.flowControlState.advertisedMaxOffset)
    (hwindow : t.stream.flowControlState.windowSize = (s.streams id).flowControlState.windowSize)
    (hstate : t.stream.recvState = (s.streams id).recvState)
    (hconn : t.conn.flowControlState.advertisedMaxOffset=s.conn.flowControlState.advertisedMaxOffset)
    (hconnWindow : t.conn.flowControlState.windowSize=s.conn.flowControlState.windowSize) :
    Advances s ⟨t.conn,update s.streams id t.stream⟩ where
  stream_advertised other := by
    by_cases hne : other=id <;> simp [hne,hadvertised]
  stream_window other := by
    by_cases hne : other=id <;> simp [hne,hwindow]
  stream_state other := by
    by_cases hne : other=id <;> simp [hne,hstate]
  conn_advertised := hconn.ge
  conn_window := hconnWindow

lemma advances_conn {conn : StreamConnection}
    (hadvertised : s.conn.flowControlState.advertisedMaxOffset≤conn.flowControlState.advertisedMaxOffset)
    (hwindow : conn.flowControlState.windowSize=s.conn.flowControlState.windowSize) : Advances s ⟨conn,s.streams⟩ :=
  ⟨fun _ => le_rfl,fun _ => rfl,fun _ => rfl,hadvertised,hwindow⟩

/-- The step succeeds, keeps the invariant and lowers no limit. -/
def Good (s : WindowState) (e : WindowEvent) : Prop :=
  (s.perform e).thrown = none ∧ (s.step e).Invariant ∧ Advances s (s.step e)

lemma good_read (h : s.Invariant) {length : ℕ} {time : ℤ} (hallowed : s.ReadAllowed (.read id length time)) :
    s.Good (.read id length time) := by
  obtain ⟨hstream,hconn,hstreamEnc,hconnEnc⟩ := hallowed
  have hsum : s.conn.flowControlState.sumCurReadOffset+length < kU64 := by
    unfold kEightByteLimit at hconnEnc
    unfold kU64
    omega
  obtain ⟨queued,updates,hread,hmono,hconnUpdate,hmem,hstreamUpdate⟩ := updateFlowControlOnRead_spec
    ⟨s.conn,(s.streams id).advanceRead length⟩ (s.streams id).currentReadOffset time (Nat.add_sub_cancel_left _ _) h.connTuning hsum
  have hperform : s.perform (.read id length time) = .done ⟨s.conn.afterRead length queued updates,
      update s.streams id ((s.streams id).advanceRead length)⟩ := by
    simp only [perform,onStream,readBytes,hread]
    rfl
  have hrange := h.stream_range id
  have hrangeConn := h.conn_range
  have hrange' : InRange (s.streams id).flowControlState.windowSize ((s.streams id).currentReadOffset+length)
      (s.streams id).flowControlState.advertisedMaxOffset :=
    ⟨hstream,hrange.le_window.trans (by omega),hstreamEnc⟩
  have hrangeConn' : InRange s.conn.flowControlState.windowSize (s.conn.flowControlState.sumCurReadOffset+length)
      s.conn.flowControlState.advertisedMaxOffset :=
    ⟨hconn,hrangeConn.le_window.trans (by omega),hconnEnc⟩
  refine ⟨by rw [hperform]; rfl,?_,?_⟩
  · rw [step,hperform]
    refine h.onStream (t := ⟨s.conn.afterRead length queued updates,_⟩) (h.id_eq id) rfl
      (fun other _ => hmem other) hrange' (fun hopen => ?_) hrangeConn' ?_
    · have hid := h.id_eq id
      exact ⟨(hstreamUpdate hopen).imp (fun hin => hid ▸ hin) fun hnone =>
        hrange'.supplied_of_none h.frequency hnone,hrange'.le_window⟩
    · exact ⟨hconnUpdate.imp_right fun hnone => hrangeConn'.supplied_of_none h.frequency hnone,
        hrangeConn'.le_window⟩
  · rw [step,hperform]
    exact advances_onStream (t := ⟨s.conn.afterRead length queued updates,_⟩) le_rfl rfl rfl rfl rfl

lemma mem_queueWindowUpdate {conn : StreamConnection} {other : StreamId} (h : other ∈ conn.windowUpdates) :
    other ∈ (conn.queueWindowUpdate id).windowUpdates := List.mem_insert_of_mem h

lemma good_queue (h : s.Invariant) :
    Invariant ⟨s.conn.queueWindowUpdate id,update s.streams id (s.streams id)⟩ ∧
      Advances s ⟨s.conn.queueWindowUpdate id,update s.streams id (s.streams id)⟩ := by
  constructor
  · refine h.onStream (t := ⟨s.conn.queueWindowUpdate id,s.streams id⟩) (h.id_eq id) rfl
      (fun _ _ => mem_queueWindowUpdate) (h.stream_range id) (fun hopen => ?_) h.conn_range h.conn
    exact (h.stream id hopen).mono fun hin => mem_queueWindowUpdate hin
  · exact advances_onStream (t := ⟨s.conn.queueWindowUpdate id,s.streams id⟩) le_rfl rfl rfl rfl rfl

lemma good_streamBlocked (h : s.Invariant) (now : ℤ) : s.Good (.streamBlocked id now) := by
  have hperform : s.perform (.streamBlocked id now) =
      .done ⟨s.conn.queueWindowUpdate id,update s.streams id (s.streams id)⟩ := by
    have hid := h.id_eq id
    simp only [perform,onStream,ConnStream.handleStreamBlocked,h.streamTuning,Bool.false_eq_true,if_false,hid]
    rfl
  rw [Good,step,hperform]
  exact ⟨rfl,good_queue h⟩

lemma good_streamUpdateLost (h : s.Invariant) : s.Good (.streamUpdateLost id) := by
  by_cases hopen : (s.streams id).recvState = .Open
  · have hperform : s.perform (.streamUpdateLost id) =
        .done ⟨s.conn.queueWindowUpdate id,update s.streams id (s.streams id)⟩ := by
      have hid := h.id_eq id
      simp only [perform,onStream,ConnStream.onStreamWindowUpdateLost,QuicStreamState.shouldSendFlowControl,hopen,
        decide_true,Bool.not_true,Bool.false_eq_true,if_false,hid]
      rfl
    rw [Good,step,hperform]
    exact ⟨rfl,good_queue h⟩
  · have hperform : s.perform (.streamUpdateLost id) = .done s := by
      simp only [perform,onStream,ConnStream.onStreamWindowUpdateLost,QuicStreamState.shouldSendFlowControl,hopen,
        decide_false,Bool.not_false,if_true]
      show Outcome.done (WindowState.mk s.conn (update s.streams id (s.streams id))) = _
      rw [update_eq_self]
    rw [Good,step,hperform]
    exact ⟨rfl,h,advances_conn le_rfl rfl⟩

def sentStream (s : WindowState) (id : StreamId) (time : ℤ) : QuicStreamState :=
  {s.streams id with flowControlState := {(s.streams id).flowControlState with
     advertisedMaxOffset := (s.streams id).currentReadOffset+(s.streams id).flowControlState.windowSize
     timeOfLastFlowControlUpdate := some time}}

lemma good_streamUpdateSent (h : s.Invariant) (time : ℤ) : s.Good (.streamUpdateSent id time) := by
  have hrange := h.stream_range id
  have hmax : (ConnStream.mk s.conn (s.streams id)).generateMaxStreamDataFrame =
      (s.streams id).currentReadOffset+(s.streams id).flowControlState.windowSize := hrange.max_eq
  have hperform : s.perform (.streamUpdateSent id time) = .done
      ⟨s.conn.removeWindowUpdate (s.streams id).id,update s.streams id (s.sentStream id time)⟩ := by
    simp only [perform,onStream,hmax]
    rfl
  rw [Good,step,hperform]
  refine ⟨rfl,h.onStream (t := ⟨_,s.sentStream id time⟩) (h.id_eq id) rfl (fun other hne hin => ?_) hrange.full
    (fun _ => supplied_full h.frequency) h.conn_range h.conn,?_⟩
  · exact List.mem_filter.mpr ⟨hin,by simpa [h.id_eq id] using hne⟩
  · exact advances_onStream (t := ⟨_,s.sentStream id time⟩) hrange.le_window rfl rfl rfl rfl

lemma good_connUpdateSent (h : s.Invariant) (time : ℤ) : s.Good (.connUpdateSent time) := by
  have hrange := h.conn_range
  have hmax : s.conn.generateMaxDataFrame =
      s.conn.flowControlState.sumCurReadOffset+s.conn.flowControlState.windowSize := hrange.max_eq
  refine ⟨rfl,{h with conn_range := ?_, conn := ?_},advances_conn ?_ rfl⟩
  · simpa only [step,perform,Outcome.done_state,ConnInRange,StreamConnection.onConnWindowUpdateSent,hmax] using
      hrange.full
  · simpa only [step,perform,Outcome.done_state,ConnSupplied,StreamConnection.onConnWindowUpdateSent,hmax] using
      supplied_full h.frequency
  · exact hrange.le_window.trans hmax.ge

lemma good_step (h : s.Invariant) {e : WindowEvent} (hallowed : s.ReadAllowed e) : s.Good e := by
  have hsame : Invariant {s with conn := {s.conn with connWindowUpdate := true}} :=
    {h with conn := ⟨.inl rfl,h.conn.le_window⟩}
  cases e with
  | read id length time => exact good_read h hallowed
  | streamBlocked id now => exact good_streamBlocked h now
  | connBlocked => exact ⟨rfl,hsame,advances_conn le_rfl rfl⟩
  | streamUpdateSent id time => exact good_streamUpdateSent h time
  | connUpdateSent time => exact good_connUpdateSent h time
  | streamUpdateLost id => exact good_streamUpdateLost h
  | connUpdateLost => exact ⟨rfl,hsame,advances_conn le_rfl rfl⟩

lemma Fresh.invariant (h : s.Fresh) (hf : 1 ≤ s.conn.transportSettings.flowControlWindowFrequency)
    (hconn : s.conn.transportSettings.autotuneReceiveConnFlowControl=false)
    (hstream : s.conn.transportSettings.autotuneReceiveStreamFlowControl=false) : s.Invariant := by
  refine ⟨h.id_eq,hf,hconn,hstream,fun id => ?_,?_,fun id _ => ?_,?_⟩
  · rw [StreamInRange,h.stream_read,h.stream_advertised]
    exact inRange_zero (h.stream_window id).2
  · rw [ConnInRange,h.conn_read,h.conn_advertised]
    exact inRange_zero h.conn_window.2
  · rw [StreamSupplied,h.stream_read,h.stream_advertised]
    exact supplied_zero hf
  · rw [ConnSupplied,h.conn_read,h.conn_advertised]
    exact supplied_zero hf

end Steps

/-- With fixed windows and no tuning, an update is queued for every open stream and for the
connection, or enough of the window is left, at all times; limits do not fall. -/
theorem window_updates_never_stall (s : WindowState) (es : List WindowEvent) (hfresh : s.Fresh)
    (hf : 1 ≤ s.conn.transportSettings.flowControlWindowFrequency)
    (hconn : s.conn.transportSettings.autotuneReceiveConnFlowControl=false)
    (hstream : s.conn.transportSettings.autotuneReceiveStreamFlowControl=false)
    (hreads : Run.EveryStep step ReadAllowed s es) :
    (∀ pre post,es = pre++post → (Run.run step s pre).ConnSupplied ∧
      ∀ id,((Run.run step s pre).streams id).recvState = .Open → (Run.run step s pre).StreamSupplied id) ∧
    Run.EveryStep step (fun t e => (t.perform e).thrown = none ∧ Advances t (t.step e)) s es := by
  have hinv := hfresh.invariant hf hconn hstream
  clear hfresh hf hconn hstream
  induction es generalizing s with
  | nil =>
    refine ⟨fun pre post h => ?_,trivial⟩
    obtain ⟨rfl,-⟩ := List.nil_eq_append_iff.mp h
    exact ⟨hinv.conn,hinv.stream⟩
  | cons e es ih =>
    obtain ⟨hthrown,hnext,hadv⟩ := good_step hinv hreads.1
    obtain ⟨hprefixes,hsteps⟩ := ih (s.step e) hreads.2 hnext
    refine ⟨fun pre post h => ?_,⟨hthrown,hadv⟩,hsteps⟩
    cases pre with
    | nil => exact ⟨hinv.conn,hinv.stream⟩
    | cons e' pre =>
      obtain ⟨rfl,htail⟩ := List.cons.inj h
      exact hprefixes pre post htail

theorem window_updates_after_loss :
    let s : WindowState := ⟨{flowControlState := {windowSize := 100, advertisedMaxOffset := 100}},
      fun id => {id, flowControlState := {windowSize := 10, advertisedMaxOffset := 10}}⟩
    ((Run.run step s [.read 4 6 0,.streamUpdateSent 4 1,.streamUpdateLost 4]).streams 4).recvState = .Open ∧
    (Run.run step s [.read 4 6 0,.streamUpdateSent 4 1,.streamUpdateLost 4]).StreamSupplied 4 := by
  intro s
  refine ⟨by decide,((window_updates_never_stall s [.read 4 6 0,.streamUpdateSent 4 1,.streamUpdateLost 4] ?_
    (by decide) rfl rfl ?_).1 _ [] rfl).2 4 (by decide)⟩
  · have hwindow : 0<10 ∧ 10≤kEightByteLimit := by decide
    exact ⟨fun _ => rfl,fun _ => rfl,fun _ => rfl,fun _ => hwindow,rfl,rfl,by decide⟩
  · have hread : 0+6 ≤ 10 ∧ 0+6 ≤ 100 ∧ 0+6+10 ≤ kEightByteLimit ∧ 0+6+100 ≤ kEightByteLimit := by
      decide
    exact ⟨hread,trivial,trivial,trivial⟩

end WindowState

end QuicWestwood
