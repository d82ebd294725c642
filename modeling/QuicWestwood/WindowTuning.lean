import QuicWestwood.WindowUpdates

/-! With tuning on, a blocked peer makes the window double if it follows the last update within two round trips.
Neither the time check nor the doubling is guarded. -/
namespace QuicWestwood
open ConnStream Function

lemma maybeSendConnWindowUpdate_frame (conn : StreamConnection) (time : ℤ) :
    (conn.maybeSendConnWindowUpdate time).state.transportSettings = conn.transportSettings ∧
    (conn.maybeSendConnWindowUpdate time).state.srtt = conn.srtt := by
  unfold StreamConnection.maybeSendConnWindowUpdate StreamConnection.maybeIncreaseConnectionFlowControlWindow
  split_ifs
  · exact ⟨rfl,rfl⟩
  · split
    · exact ⟨rfl,rfl⟩
    · split <;> exact ⟨rfl,rfl⟩
  · split <;> exact ⟨rfl,rfl⟩

lemma updateFlowControlOnRead_frame (s : ConnStream) (lastReadOffset : ℕ) (time : ℤ) :
    (s.updateFlowControlOnRead lastReadOffset time).state.stream = s.stream ∧
    (s.updateFlowControlOnRead lastReadOffset time).state.conn.transportSettings = s.conn.transportSettings ∧
    (s.updateFlowControlOnRead lastReadOffset time).state.conn.srtt = s.conn.srtt := by
  unfold updateFlowControlOnRead
  split
  · exact ⟨rfl,rfl,rfl⟩
  · rename_i sum _
    obtain ⟨hsettings,hsrtt⟩ := maybeSendConnWindowUpdate_frame
      {s.conn with flowControlState := {s.conn.flowControlState with sumCurReadOffset := sum}} time
    refine Outcome.andThen_invariant (P := fun t : ConnStream => t.stream = s.stream ∧
      t.conn.transportSettings = s.conn.transportSettings ∧ t.conn.srtt=s.conn.srtt) ⟨rfl,hsettings,hsrtt⟩ ?_
    rintro ⟨hstream,hsettings',hsrtt'⟩
    obtain ⟨updates,hupdates,-⟩ := maybeSendStreamWindowUpdate_spec
      (Outcome.within (fun conn => {s with conn}) (StreamConnection.maybeSendConnWindowUpdate
        {s.conn with flowControlState := {s.conn.flowControlState with sumCurReadOffset := sum}} time)).state time
    rw [Outcome.done_state,hupdates]
    exact ⟨hstream,hsettings',hsrtt'⟩

namespace WindowState

/-- The limit that a window update of a stream would carry now. -/
def nextLimit (s : WindowState) (id : StreamId) : ℕ := calculateMaximumData (s.streams id)

def Doubles (s : WindowState) (id : StreamId) (now : ℤ) : Prop :=
  ∃ last ∈ (s.streams id).flowControlState.timeOfLastFlowControlUpdate,(now-last).tdiv 1000 < 2*s.conn.srtt

/-- A step that does not abort on a blocked frame, shrinks no window below its initial size, and
lowers no limit and leaves none that has no encoding. -/
def Encodable (initial : StreamId → ℕ) (s : WindowState) (e : WindowEvent) : Prop :=
  (∀ id now,e = .streamBlocked id now → (s.perform e).thrown = none) ∧
  ∀ id,initial id ≤ ((s.step e).streams id).flowControlState.windowSize ∧
    s.nextLimit id ≤ (s.step e).nextLimit id ∧ (s.step e).nextLimit id ≤ kEightByteLimit

/-- Only bytes that the limit of the stream let in are read. -/
def WithinLimit (s : WindowState) : WindowEvent → Prop
  | .read id length _ =>
    (s.streams id).currentReadOffset+length ≤ (s.streams id).flowControlState.advertisedMaxOffset
  | _ => True

/-- A blocked frame is processed strictly later than the last update, and what a doubled window or
a read makes of the limit has an encoding. -/
def TuningAllowed (s : WindowState) : WindowEvent → Prop
  | .streamBlocked id now =>
    (∀ last ∈ (s.streams id).flowControlState.timeOfLastFlowControlUpdate,last < now) ∧ (s.Doubles id now →
      (s.streams id).currentReadOffset+2*(s.streams id).flowControlState.windowSize ≤ kEightByteLimit)
  | .read id length _ =>
    (s.streams id).currentReadOffset+length+(s.streams id).flowControlState.windowSize ≤ kEightByteLimit
  | _ => True

structure Tuned (initial : StreamId → ℕ) (s : WindowState) : Prop where
  id_eq : ∀ id,(s.streams id).id = id
  tuning : s.conn.transportSettings.autotuneReceiveStreamFlowControl=true
  srtt_pos : 0 < s.conn.srtt
  window : ∀ id,initial id ≤ (s.streams id).flowControlState.windowSize
  encodable : ∀ id,(s.streams id).currentReadOffset+(s.streams id).flowControlState.windowSize ≤ kEightByteLimit
  advertised : ∀ id,(s.streams id).flowControlState.advertisedMaxOffset ≤ kEightByteLimit

section Steps
variable {initial : StreamId → ℕ} {s : WindowState} {id : StreamId}
variable {stream : QuicStreamState}

lemma calculateMaximumData_eq (h : stream.currentReadOffset+stream.flowControlState.windowSize < kU64) :
    calculateMaximumData stream =
      max (stream.currentReadOffset+stream.flowControlState.windowSize) stream.flowControlState.advertisedMaxOffset := by
  rw [calculateMaximumData,Nat.mod_eq_of_lt h]

lemma limit_lt : 2*kEightByteLimit < kU64 := by decide

lemma Tuned.nextLimit_eq (h : s.Tuned initial) (id : StreamId) : s.nextLimit id =
    max ((s.streams id).currentReadOffset+(s.streams id).flowControlState.windowSize)
      (s.streams id).flowControlState.advertisedMaxOffset :=
  calculateMaximumData_eq (by have := h.encodable id; have := limit_lt; omega)

structure StreamTuned (initial : ℕ) (before stream : QuicStreamState) : Prop where
  window : initial ≤ stream.flowControlState.windowSize
  limit_ge : calculateMaximumData before ≤ calculateMaximumData stream
  encodable : calculateMaximumData stream ≤ kEightByteLimit

lemma Tuned.streamTuned_self (h : s.Tuned initial) (id : StreamId) :
    StreamTuned (initial id) (s.streams id) (s.streams id) := by
  refine ⟨h.window id,le_rfl,?_⟩
  rw [← nextLimit,h.nextLimit_eq]
  exact max_le (h.encodable id) (h.advertised id)

lemma Tuned.encodable_iff (h : s.Tuned initial) {e : WindowEvent}
    (hthrown : (s.perform e).thrown = none ∨ ∀ id now,e≠.streamBlocked id now)
    (hstreams : (s.step e).streams = update s.streams id stream) :
    s.Encodable initial e ↔ StreamTuned (initial id) (s.streams id) stream := by
  have hnothrow : ∀ id now,e = .streamBlocked id now → (s.perform e).thrown = none := by
    intro id now he
    exact hthrown.resolve_right fun hne => hne id now he
  rw [Encodable,and_iff_right hnothrow]
  simp only [nextLimit,hstreams]
  constructor
  · intro hall
    have hid := hall id
    rw [update_self] at hid
    exact ⟨hid.1,hid.2.1,hid.2.2⟩
  · intro hstream other
    by_cases hne : other=id
    · subst hne
      rw [update_self]
      exact ⟨hstream.window,hstream.limit_ge,hstream.encodable⟩
    · rw [update_of_ne hne]
      have hself := h.streamTuned_self other
      exact ⟨hself.window,hself.limit_ge,hself.encodable⟩

lemma Tuned.update (h : s.Tuned initial) {t : WindowState}
    (hstreams : t.streams = update s.streams id stream)
    (hsettings : t.conn.transportSettings=s.conn.transportSettings) (hsrtt : t.conn.srtt=s.conn.srtt)
    (hid : stream.id=id) (hwindow : initial id ≤ stream.flowControlState.windowSize)
    (hencodable : stream.currentReadOffset+stream.flowControlState.windowSize ≤ kEightByteLimit)
    (hadvertised : stream.flowControlState.advertisedMaxOffset≤kEightByteLimit) : t.Tuned initial := by
  have hall (P : StreamId → QuicStreamState → Prop) (hold : ∀ id,P id (s.streams id)) (hnew : P id stream)
      (other : StreamId) : P other (t.streams other) := by
    rw [hstreams]
    by_cases hne : other=id
    · subst hne
      rwa [update_self]
    · rw [update_of_ne hne]
      exact hold other
  exact ⟨hall (fun id stream => stream.id = id) h.id_eq hid,hsettings ▸ h.tuning,hsrtt ▸ h.srtt_pos,
    hall (fun id stream => initial id ≤ stream.flowControlState.windowSize) h.window hwindow,
    hall (fun _ stream => stream.currentReadOffset+stream.flowControlState.windowSize ≤ kEightByteLimit)
      h.encodable hencodable,
    hall (fun _ stream => stream.flowControlState.advertisedMaxOffset ≤ kEightByteLimit) h.advertised hadvertised⟩

/-- A step is fine exactly when it is allowed, and an allowed step keeps what the next one needs. -/
def Judged (initial : StreamId → ℕ) (s : WindowState) (e : WindowEvent) : Prop :=
  (s.Encodable initial e ↔ s.TuningAllowed e) ∧ (s.TuningAllowed e → (s.step e).Tuned initial)

lemma Tuned.judged_of_same (h : s.Tuned initial) {e : WindowEvent} (hallowed : s.TuningAllowed e)
    (hthrown : (s.perform e).thrown = none) (hstreams : (s.step e).streams = s.streams)
    (hsettings : (s.step e).conn.transportSettings = s.conn.transportSettings)
    (hsrtt : (s.step e).conn.srtt = s.conn.srtt) : Judged initial s e := by
  have hupdate : (s.step e).streams = Function.update s.streams 0 (s.streams 0) := by
    rw [hstreams,Function.update_eq_self]
  refine ⟨iff_of_true ?_ hallowed,fun _ => ?_⟩
  · exact (h.encodable_iff (.inl hthrown) hupdate).mpr (h.streamTuned_self 0)
  · exact h.update hupdate hsettings hsrtt (h.id_eq 0) (h.window 0) (h.encodable 0) (h.advertised 0)

lemma Tuned.streamTuned_iff (h : s.Tuned initial)
    (hwindow : (s.streams id).flowControlState.windowSize ≤ stream.flowControlState.windowSize)
    (hread : (s.streams id).currentReadOffset ≤ stream.currentReadOffset)
    (hadvertised : stream.flowControlState.advertisedMaxOffset = (s.streams id).flowControlState.advertisedMaxOffset)
    (hlt : stream.currentReadOffset+stream.flowControlState.windowSize < kU64) :
    StreamTuned (initial id) (s.streams id) stream ↔
      stream.currentReadOffset+stream.flowControlState.windowSize ≤ kEightByteLimit := by
  have hbefore := h.nextLimit_eq id
  have hafter := calculateMaximumData_eq hlt
  have hinitial := h.window id
  have hlimit := h.advertised id
  rw [nextLimit] at hbefore
  refine ⟨fun htuned => ?_,fun henc => ⟨by omega,?_,?_⟩⟩
  · exact (le_max_left _ _).trans (hafter ▸ htuned.encodable)
  · rw [hbefore,hafter,hadvertised]
    exact max_le_max_right _ (by omega)
  · rw [hafter,hadvertised]
    exact max_le henc hlimit

lemma Tuned.judged_read (h : s.Tuned initial) {length : ℕ} {time : ℤ}
    (hwithin : s.WithinLimit (.read id length time)) : Judged initial s (.read id length time) := by
  obtain ⟨hstream,hsettings,hsrtt⟩ := updateFlowControlOnRead_frame
    ⟨s.conn,(s.streams id).advanceRead length⟩ (s.streams id).currentReadOffset time
  have hstreams : (s.step (.read id length time)).streams =
      Function.update s.streams id ((s.streams id).advanceRead length) :=
    congrArg (Function.update s.streams id) hstream
  have henc := h.encodable id
  have hadvertised := h.advertised id
  have hlimit := limit_lt
  have hwithin' : (s.streams id).currentReadOffset+length ≤
      (s.streams id).flowControlState.advertisedMaxOffset := hwithin
  refine ⟨?_,fun hallowed => ?_⟩
  · rw [h.encodable_iff (.inr fun _ _ h => by cases h) hstreams]
    refine h.streamTuned_iff le_rfl (Nat.le_add_right _ _) rfl ?_
    show (s.streams id).currentReadOffset+length+(s.streams id).flowControlState.windowSize < kU64
    omega
  · exact h.update hstreams hsettings hsrtt (h.id_eq id) (h.window id) hallowed (h.advertised id)

def resized (s : WindowState) (id : StreamId) (windowSize : ℕ) : QuicStreamState :=
  {s.streams id with flowControlState := {(s.streams id).flowControlState with windowSize}}

lemma Tuned.perform_streamBlocked (h : s.Tuned initial) (now : ℤ) {windowSize : ℕ}
    (hincrease : maybeIncreaseFlowControlWindow (s.streams id).flowControlState.timeOfLastFlowControlUpdate now
      s.conn.srtt (s.streams id).flowControlState.windowSize = .ok windowSize) :
    s.perform (.streamBlocked id now) = .done
      ⟨s.conn.queueWindowUpdate (s.streams id).id,Function.update s.streams id (s.resized id windowSize)⟩ := by
  simp only [perform,onStream,handleStreamBlocked,h.tuning,if_true,hincrease]
  rfl

lemma Tuned.judged_streamBlocked (h : s.Tuned initial) (now : ℤ) :
    Judged initial s (.streamBlocked id now) := by
  have henc := h.encodable id
  have hlimit := limit_lt
  have hsrtt := h.srtt_pos.ne'
  -- the two ways in which the window does not change
  have hunchanged (hincrease : maybeIncreaseFlowControlWindow
      (s.streams id).flowControlState.timeOfLastFlowControlUpdate now s.conn.srtt
      (s.streams id).flowControlState.windowSize = .ok (s.streams id).flowControlState.windowSize)
      (hallowed : s.TuningAllowed (.streamBlocked id now)) : Judged initial s (.streamBlocked id now) := by
    have hperform := h.perform_streamBlocked now hincrease
    refine h.judged_of_same hallowed (by rw [hperform]; rfl) ?_ ?_ ?_
    · rw [step,hperform]
      exact Function.update_eq_self _ _
    · rw [step,hperform]
      rfl
    · rw [step,hperform]
      rfl
  cases htime : (s.streams id).flowControlState.timeOfLastFlowControlUpdate with
  | none =>
    refine hunchanged (by rw [htime]; rfl) ⟨fun last hlast => ?_,?_⟩
    · simp [htime] at hlast
    · rintro ⟨last,hlast,-⟩
      simp [htime] at hlast
  | some last =>
    have hmem {time : ℤ} (h : time ∈ (s.streams id).flowControlState.timeOfLastFlowControlUpdate) : time=last := by
      simpa [htime,eq_comm] using h
    have hlast : last ∈ (s.streams id).flowControlState.timeOfLastFlowControlUpdate := by simp [htime]
    by_cases hlate : now≤last
    · -- the clock has not moved since the update
      have hincrease : maybeIncreaseFlowControlWindow (s.streams id).flowControlState.timeOfLastFlowControlUpdate now
          s.conn.srtt (s.streams id).flowControlState.windowSize = .error .checkFailed := by
        rw [htime]
        exact (if_neg hsrtt).trans (if_pos hlate)
      have hnot : ¬s.TuningAllowed (.streamBlocked id now) := fun hallowed =>
        absurd (hallowed.1 last hlast) (not_lt.mpr hlate)
      refine ⟨iff_of_false (fun hencodable => ?_) hnot,fun hallowed => absurd hallowed hnot⟩
      have hthrown := hencodable.1 id now rfl
      simp [perform,onStream,handleStreamBlocked,h.tuning,hincrease] at hthrown
    · have hstrict : ∀ time ∈ (s.streams id).flowControlState.timeOfLastFlowControlUpdate,time < now := by
        intro time htime
        rw [hmem htime]
        omega
      by_cases hdouble : (now-last).tdiv 1000 < 2*s.conn.srtt
      · have hincrease : maybeIncreaseFlowControlWindow (s.streams id).flowControlState.timeOfLastFlowControlUpdate now
            s.conn.srtt (s.streams id).flowControlState.windowSize =
              .ok (2*(s.streams id).flowControlState.windowSize) := by
          rw [htime]
          refine (if_neg hsrtt).trans ((if_neg hlate).trans ((if_pos hdouble).trans ?_))
          rw [Nat.mod_eq_of_lt (by omega),mul_comm]
        have hperform := h.perform_streamBlocked now hincrease
        have hstreams : (s.step (.streamBlocked id now)).streams =
            Function.update s.streams id (s.resized id (2*(s.streams id).flowControlState.windowSize)) := by
          rw [step,hperform]
          rfl
        have hallowed : s.TuningAllowed (.streamBlocked id now) ↔
            (s.streams id).currentReadOffset+2*(s.streams id).flowControlState.windowSize ≤ kEightByteLimit :=
          ⟨fun hallowed => hallowed.2 ⟨last,hlast,hdouble⟩,fun henc => ⟨hstrict,fun _ => henc⟩⟩
        refine ⟨?_,fun hcond => ?_⟩
        · rw [h.encodable_iff (.inl (by rw [hperform]; rfl)) hstreams,hallowed]
          refine h.streamTuned_iff ?_ le_rfl rfl ?_
          · show (s.streams id).flowControlState.windowSize ≤ 2*(s.streams id).flowControlState.windowSize
            omega
          · show (s.streams id).currentReadOffset+2*(s.streams id).flowControlState.windowSize < kU64
            omega
        · refine h.update hstreams ?_ ?_ (h.id_eq id) ?_ (hallowed.mp hcond) (h.advertised id)
          · rw [step,hperform]
            rfl
          · rw [step,hperform]
            rfl
          · show initial id ≤ 2*(s.streams id).flowControlState.windowSize
            have := h.window id
            omega
      · refine hunchanged ?_ ⟨hstrict,?_⟩
        · rw [htime]
          exact (if_neg hsrtt).trans ((if_neg hlate).trans (if_neg hdouble))
        · rintro ⟨time,htime',hdouble'⟩
          rw [hmem htime'] at hdouble'
          exact absurd hdouble' hdouble

lemma Tuned.judged_streamUpdateSent (h : s.Tuned initial) (time : ℤ) :
    Judged initial s (.streamUpdateSent id time) := by
  have hself := h.streamTuned_self id
  have henc := h.encodable id
  have hlimit := limit_lt
  have hlt : (s.streams id).currentReadOffset+(s.streams id).flowControlState.windowSize < kU64 := by omega
  have hstreams : (s.step (.streamUpdateSent id time)).streams = Function.update s.streams id
      (onStreamWindowUpdateSent ⟨s.conn,s.streams id⟩ (s.nextLimit id) time).stream := rfl
  refine ⟨iff_of_true ((h.encodable_iff (.inl rfl) hstreams).mpr ⟨h.window id,?_,?_⟩) trivial,
    fun _ => h.update hstreams rfl rfl (h.id_eq id) (h.window id) henc hself.encodable⟩
  · exact le_max_right _ _
  · refine max_le ?_ hself.encodable
    show ((s.streams id).currentReadOffset+(s.streams id).flowControlState.windowSize) % kU64 ≤ _
    rw [Nat.mod_eq_of_lt hlt]
    exact henc

lemma Tuned.judged (h : s.Tuned initial) {e : WindowEvent} (hwithin : s.WithinLimit e) : Judged initial s e := by
  cases e with
  | read id length time => exact h.judged_read hwithin
  | streamBlocked id now => exact h.judged_streamBlocked now
  | connBlocked => exact h.judged_of_same trivial rfl rfl rfl rfl
  | streamUpdateSent id time => exact h.judged_streamUpdateSent time
  | connUpdateSent time => exact h.judged_of_same trivial rfl rfl rfl rfl
  | streamUpdateLost id =>
    refine h.judged_of_same trivial rfl ?_ ?_ ?_
    · have hstream : (onStreamWindowUpdateLost ⟨s.conn,s.streams id⟩).stream = s.streams id := by
        unfold onStreamWindowUpdateLost
        split_ifs <;> rfl
      exact (congrArg (Function.update s.streams id) hstream).trans (Function.update_eq_self _ _)
    · show (onStreamWindowUpdateLost ⟨s.conn,s.streams id⟩).conn.transportSettings = _
      unfold onStreamWindowUpdateLost
      split_ifs <;> rfl
    · show (onStreamWindowUpdateLost ⟨s.conn,s.streams id⟩).conn.srtt = _
      unfold onStreamWindowUpdateLost
      split_ifs <;> rfl
  | connUpdateLost => exact h.judged_of_same trivial rfl rfl rfl rfl

lemma Fresh.tuned (h : s.Fresh) (htuning : s.conn.transportSettings.autotuneReceiveStreamFlowControl=true)
    (hsrtt : 0 < s.conn.srtt) : s.Tuned fun id => (s.streams id).flowControlState.windowSize := by
  refine ⟨h.id_eq,htuning,hsrtt,fun _ => le_rfl,fun id => ?_,fun id => ?_⟩
  · rw [h.stream_read,Nat.zero_add]
    exact (h.stream_window id).2
  · rw [h.stream_advertised]
    exact (h.stream_window id).2

end Steps

/-- Tuned windows stay encodable and blocked frames are harmless in exactly the runs in which the
clock moves between an update and a blocked frame and no limit outgrows its encoding. -/
theorem tuned_windows_encodable_iff (s : WindowState) (es : List WindowEvent) (hfresh : s.Fresh)
    (htuning : s.conn.transportSettings.autotuneReceiveStreamFlowControl=true) (hsrtt : 0 < s.conn.srtt)
    (hreads : Run.EveryStep step WithinLimit s es) :
    Run.EveryStep step (Encodable fun id => (s.streams id).flowControlState.windowSize) s es ↔
      Run.EveryStep step TuningAllowed s es := by
  have htuned := hfresh.tuned htuning hsrtt
  generalize (fun id => (s.streams id).flowControlState.windowSize) = initial at htuned ⊢
  exact Run.everyStep_congr_given htuned hreads fun _ ht _ _ hread => ht.judged hread

/-- Windows of 64 KiB and a round trip of 100 ms. -/
def tunable : WindowState where
  conn :=
    {transportSettings := {autotuneReceiveStreamFlowControl := true}
     srtt := 100000
     flowControlState := {windowSize := 65536, advertisedMaxOffset := 65536}}
  streams id := {id, flowControlState := {windowSize := 65536, advertisedMaxOffset := 65536}}

lemma tunable_fresh : tunable.Fresh := by
  have hwindow : 0<65536 ∧ 65536≤kEightByteLimit := by decide
  exact ⟨fun _ => rfl,fun _ => rfl,fun _ => rfl,fun _ => hwindow,rfl,rfl,hwindow⟩

theorem tuned_window_doubles :
    Run.EveryStep step (Encodable fun id => (tunable.streams id).flowControlState.windowSize) tunable
      [.streamUpdateSent 4 0,.streamBlocked 4 1000000] := by
  refine (tuned_windows_encodable_iff tunable [.streamUpdateSent 4 0,.streamBlocked 4 1000000] tunable_fresh rfl
    (by decide) ⟨trivial,trivial,trivial⟩).mpr ⟨trivial,⟨fun last hlast => ?_,fun _ => by decide⟩,trivial⟩
  obtain rfl : last=0 := by simpa [step,perform,onStream,onStreamWindowUpdateSent,eq_comm] using hlast
  decide

/-- A blocked frame that is read in the tick of the update aborts; 46 of them within two round
trips make a window of 64 KiB unencodable. -/
theorem tuned_window_fails :
    tunable.Fresh ∧
    ¬Run.EveryStep step (Encodable fun id => (tunable.streams id).flowControlState.windowSize) tunable
      [.streamUpdateSent 4 5,.streamBlocked 4 5] ∧
    ¬Run.EveryStep step (Encodable fun id => (tunable.streams id).flowControlState.windowSize) tunable
      (.streamUpdateSent 4 0::List.replicate 46 (.streamBlocked 4 1)) := by
  refine ⟨tunable_fresh,fun h => ?_,fun h => ?_⟩
  · have hthrown := h.2.1.1 4 5 rfl
    revert hthrown
    decide
  · have hlast := Run.everyStep_iff.mp h (.streamUpdateSent 4 0::List.replicate 45 (.streamBlocked 4 1))
      (.streamBlocked 4 1) [] rfl
    have hlimit := (hlast.2 4).2.2
    revert hlimit
    decide +kernel

end WindowState

end QuicWestwood
