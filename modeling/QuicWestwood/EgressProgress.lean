import QuicWestwood.HttpEgress

/-! While `onWriteReady` runs and has passed nothing to the transport, a task on the agenda will: the body that
is buffered, the body of the first chunk, or the end of egress. What a callback does in between cannot take that
away. The exception is an end of message that waits alone. -/
namespace QuicWestwood.HTTP2.Window

/-- The range in which no operation of a window wraps. -/
structure Sane (w : Window) : Prop where
  nonneg : 0≤w.capacity
  max : w.capacity ≤ int32Max
  low : w.capacity-int32Max ≤ w.outstanding
  high : w.outstanding ≤ int32Max

variable {w w' : Window}

lemma Sane.getSize_eq (h : w.Sane) : w.getSize = w.capacity-w.outstanding := by
  obtain ⟨hnonneg,hmax,hlow,hhigh⟩ := h
  unfold int32Max at *
  exact int32_eq (by omega) (by omega)

lemma Sane.reserve (h : w.Sane) {amount : ℕ} (hreserve : w.reserve amount = some w') : w'.Sane := by
  obtain ⟨hnonneg,hmax,hlow,hhigh⟩ := h
  unfold Window.reserve int32Max at *
  dsimp only at hreserve
  split_ifs at hreserve with hlarge hover hcapacity
  obtain rfl := Option.some.inj hreserve
  rw [int32_eq (by omega) (by omega)] at hcapacity ⊢
  exact ⟨hnonneg,hmax,by simp only [int32Max]; omega,by simp only [int32Max]; omega⟩

lemma Sane.reserve_isSome (h : w.Sane) {amount : ℕ} (hfits : (amount : ℤ) ≤ w.getSize) :
    (w.reserve amount).isSome = true := by
  rw [h.getSize_eq] at hfits
  obtain ⟨hnonneg,hmax,hlow,hhigh⟩ := h
  unfold Window.reserve int32Max at *
  rw [if_neg (by omega),if_neg (by omega),int32_eq (by omega) (by omega),if_neg (by omega)]
  rfl

lemma Sane.free (h : w.Sane) {amount : ℕ} (hfree : w.free amount = some w') : w'.Sane := by
  obtain ⟨hnonneg,hmax,hlow,hhigh⟩ := h
  unfold Window.free int32Max int32Min at *
  dsimp only at hfree
  split_ifs at hfree with hlarge hunder hsize
  obtain rfl := Option.some.inj hfree
  rw [int32_eq (by omega) (by omega)] at hsize ⊢
  exact ⟨hnonneg,hmax,by simp only [int32Max]; omega,by simp only [int32Max]; omega⟩

lemma Sane.setCapacity (h : w.Sane) {capacity : ℕ} (hset : w.setCapacity capacity = some w') : w'.Sane := by
  have hsize := h.getSize_eq
  obtain ⟨hnonneg,hmax,hlow,hhigh⟩ := h
  unfold Window.setCapacity at hset
  rw [hsize] at hset
  unfold int32Max at *
  dsimp only at hset
  split_ifs at hset with hlarge hover
  obtain rfl := Option.some.inj hset
  rw [int32_eq (by omega) (by omega)] at hover
  exact ⟨by simp only; omega,by simp only [int32Max]; omega,by simp only [int32Max]; omega,
    by simp only [int32Max]; omega⟩

end QuicWestwood.HTTP2.Window

namespace QuicWestwood.HTTP
open HTTP2

/-- The tasks that a call from a callback leaves on the agenda. -/
@[simp] def EgressTask.isNested : EgressTask → Bool
  | callback | notifyTransportPendingEgress | updateHandlerPauseState | egressComplete | abort | eomSent => true
  | _ => false

namespace Egress
variable {s s' u : Egress}

def Closed (s : Egress) : Prop :=
  s.egressState = .sendingDone ∧ s.deferredEgressBody=0 ∧ s.isEnqueued=false

/-- What a call from a callback, and the tasks it leaves, may do to the rest. -/
structure Nested (s s' : Egress) : Prop where
  agenda : ∃ tasks,(∀ t ∈ tasks,EgressTask.isNested t = true) ∧ s'.agenda = tasks++s.agenda
  passed : s.passed ≤ s'.passed
  closed : s.Closed → s'.Closed
  eom : s.egressState = .eomQueued → s'.egressState = .eomQueued ∨ s'.Closed ∨ s.passed < s'.passed
  chunks : ∃ chunks,s'.chunkHeaders = s.chunkHeaders++chunks
  body : s.deferredEgressBody ≤ s'.deferredEgressBody ∨ s'.Closed
  sendWindow : s'.sendWindow=s.sendWindow
  useFlowControl : s'.useFlowControl=s.useFlowControl

namespace Nested

lemma flags (s : Egress) (noError more paused aborted trailers error : Bool) : Nested s {s with
    deferredNoError := noError, extraResponseExpected := more, egressPaused := paused, aborted := aborted,
    trailers := trailers, ingressErrorSeen := error} :=
  ⟨⟨[],by simp,rfl⟩,le_rfl,id,.inl,⟨[],(List.append_nil _).symm⟩,.inl le_rfl,rfl,rfl⟩

lemma refl (s : Egress) : Nested s s := flags s _ _ _ _ _ _

lemma trans (h : Nested s u) (g : Nested u s') : Nested s s' where
  agenda := by
    obtain ⟨tasks,htasks,heq⟩ := h.agenda
    obtain ⟨more,hmore,heq'⟩ := g.agenda
    refine ⟨more++tasks,fun t ht => ?_,by rw [heq',heq,List.append_assoc]⟩
    exact (List.mem_append.mp ht).elim (hmore t) (htasks t)
  passed := h.passed.trans g.passed
  closed := g.closed ∘ h.closed
  eom heom := by
    rcases h.eom heom with hu | hu | hu
    · exact (g.eom hu).imp_right (·.imp_right h.passed.trans_lt)
    · exact .inr (.inl (g.closed hu))
    · exact .inr (.inr (hu.trans_le g.passed))
  chunks := by
    obtain ⟨chunks,heq⟩ := h.chunks
    obtain ⟨more,heq'⟩ := g.chunks
    exact ⟨chunks++more,by rw [heq',heq,List.append_assoc]⟩
  body := by
    rcases h.body with hu | hu
    · exact g.body.imp_left hu.trans
    · exact .inr (g.closed hu)
  sendWindow := g.sendWindow.trans h.sendWindow
  useFlowControl := g.useFlowControl.trans h.useFlowControl

lemma push (s : Egress) {tasks : List EgressTask} (h : ∀ t ∈ tasks,EgressTask.isNested t = true) :
    Nested s (s.push tasks) := {refl s with agenda := ⟨tasks,h,rfl⟩}

end Nested

lemma egressComplete_closed (s : Egress) : s.egressComplete.Closed := ⟨rfl,rfl,rfl⟩

lemma egressComplete_nested (s : Egress) : Nested s s.egressComplete :=
  {Nested.refl s with
    closed := fun _ => s.egressComplete_closed
    eom := fun _ => .inr (.inl s.egressComplete_closed)
    body := .inr s.egressComplete_closed}

lemma markEgressComplete_nested (s : Egress) : Nested s s.markEgressComplete := by
  unfold markEgressComplete
  split_ifs
  · exact .push s (by simp)
  · exact s.egressComplete_nested

lemma sendAbortImpl_nested (s : Egress) : Nested s s.sendAbortImpl :=
  .trans (.push s (by simp)) (markEgressComplete_nested _)

lemma sendAbort_nested (s : Egress) (statusCode : ErrorCode) : Nested s (s.sendAbort statusCode) := by
  have hflag : ∀ b,Nested s {s with deferredNoError := b} := fun b => .flags s b _ _ _ _ _
  unfold sendAbort
  dsimp only
  split_ifs
  · exact hflag _
  · exact (hflag _).trans (sendAbortImpl_nested _)
  · exact sendAbortImpl_nested s

lemma maybeSendDeferredNoError_nested (s : Egress) : Nested s s.maybeSendDeferredNoError := by
  unfold maybeSendDeferredNoError
  split_ifs
  · exact .trans (u := {s with deferredNoError := false}) (.flags _ _ _ _ _ _ _)
      (sendAbortImpl_nested _)
  · exact .refl s

lemma invariantViolation_nested (s : Egress) : Nested s s.invariantViolation :=
  .trans (.push s (by simp)) (sendAbortImpl_nested _)

lemma transit_eq_some {a b : EgressState} {event : EgressEvent} (h : a.transit event = some b) :
    (event = .eomFlushed ∧ a = .eomQueued ∧ b = .sendingDone) ∨
    (event≠.eomFlushed ∧ a≠.eomQueued ∧ a≠.sendingDone ∧ b≠.sendingDone) := by
  cases a <;> cases event <;> cases h <;> simp

lemma validate_nested {event : EgressEvent} {next : Egress → Egress} (hevent : event≠.eomFlushed)
    (hnext : ∀ u : Egress,u.egressState≠.sendingDone → Nested u (next u)) :
    Nested s (s.validateEgressStateTransition event next) := by
  unfold validateEgressStateTransition
  cases hstate : s.egressState.transit event with
  | none => exact s.invariantViolation_nested
  | some state =>
    obtain ⟨hflushed,-⟩ | ⟨-,hqueued,hdone,hopen⟩ := transit_eq_some hstate
    · exact absurd hflushed hevent
    · have hmove : Nested s {s with egressState := state} :=
        {Nested.refl s with
          closed := fun h => absurd h.1 hdone, eom := fun h => absurd h hqueued, body := .inl le_rfl}
      exact hmove.trans (hnext _ hopen)

lemma sendEOMNow_cases (s : Egress) :
    (s.egressState = .eomQueued ∧ s.sendEOMNow =
      {s with egressState := .sendingDone, passed := s.passed+1}.push [.callback,.eomSent]) ∨
    (s.egressState≠.eomQueued ∧ s.sendEOMNow=s.invariantViolation) := by
  unfold sendEOMNow validateEgressStateTransition
  cases hstate : s.egressState.transit .eomFlushed with
  | none => exact .inr ⟨fun h => by simp [h,EgressState.transit] at hstate,rfl⟩
  | some state =>
    obtain ⟨-,hqueued,rfl⟩ | ⟨hne,-⟩ := transit_eq_some hstate
    · exact .inl ⟨hqueued,rfl⟩
    · exact absurd rfl hne

lemma sendEOMNow_nested (s : Egress) : Nested s s.sendEOMNow := by
  obtain ⟨hqueued,heq⟩ | ⟨-,heq⟩ := s.sendEOMNow_cases
  · rw [heq]
    exact {Nested.refl s with
      agenda := ⟨[.callback,.eomSent],by simp,rfl⟩
      passed := Nat.le_succ _
      closed := fun h => by simp [hqueued,Closed] at h
      eom := fun _ => .inr (.inr (Nat.lt_succ_self _))
      body := .inl le_rfl}
  · rw [heq]
    exact s.invariantViolation_nested

lemma sendEOMNow_passes (h : s.egressState = .eomQueued) : s.passed < s.sendEOMNow.passed := by
  obtain ⟨-,heq⟩ | ⟨hne,-⟩ := s.sendEOMNow_cases
  · rw [heq]
    exact Nat.lt_succ_self _
  · exact absurd h hne

theorem call_nested (s : Egress) (c : Call) : Nested s (s.call c) := by
  cases c with
  | sendHeaders isFinal =>
    simp only [call,sendHeaders]
    refine validate_nested (by simp) fun u _ => ?_
    exact .trans (u := {u with extraResponseExpected := !isFinal}) (.flags _ _ _ _ _ _ _)
      (.push _ (by simp))
  | sendBody body =>
    simp only [call,sendBody]
    refine validate_nested (by simp) fun u hopen => ?_
    cases body with
    | none => exact .push u (by simp)
    | some length =>
      exact {Nested.refl u with
        agenda := ⟨[.callback,.notifyTransportPendingEgress],by simp,rfl⟩
        closed := fun h => absurd h.1 hopen
        eom := .inl
        body := .inl (Nat.le_add_right _ _)}
  | sendChunkHeader length =>
    simp only [call,sendChunkHeader]
    refine validate_nested (by simp) fun u _ => ?_
    split_ifs
    · exact .refl u
    · exact {Nested.refl u with chunks := ⟨_,rfl⟩}
  | sendChunkTerminator =>
    simp only [call,sendChunkTerminator]
    exact validate_nested (by simp) fun u _ => .refl u
  | sendTrailers =>
    simp only [call,sendTrailers]
    exact validate_nested (by simp) fun u _ => .flags u _ _ _ _ _ _
  | sendEOM =>
    simp only [call,sendEOM]
    refine validate_nested (by simp) fun u _ => ?_
    split_ifs
    · exact .refl u
    · exact .trans (.push u (by simp)) (sendEOMNow_nested _)
    · exact .push u (by simp)
  | sendAbort statusCode => exact sendAbort_nested s statusCode
  | setEgressPaused egressPaused =>
    unfold call setEgressPaused
    dsimp only
    split_ifs
    · exact .refl s
    · exact .trans (u := {s with egressPaused}) (.flags _ _ _ _ _ _ _)
        (.push _ (by simp))

theorem run_nested (s : Egress) {t : EgressTask} (ht : t.isNested=true) : Nested s (s.run t) := by
  cases t with
  | callback => exact .refl s
  | notifyTransportPendingEgress =>
    -- a closed transaction stays out of the queue
    have hclosed : s.Closed → ¬((0 < s.deferredEgressBody ∨ s.isEgressEOMQueued) ∧
        (!s.useFlowControl ∨ 0 < s.sendWindow.getSize)) := by
      rintro ⟨hdone,hempty,-⟩ ⟨hwaiting,-⟩
      simp [hempty,isEgressEOMQueued,hdone] at hwaiting
    unfold run notifyTransportPendingEgress
    dsimp only
    split_ifs with hwaiting
    · exact .push s (by simp)
    · exact {Nested.refl s with
        agenda := ⟨[.callback,.updateHandlerPauseState],by simp,rfl⟩
        closed := fun h => absurd hwaiting (hclosed h)
        eom := .inl
        body := .inl le_rfl}
    · exact {Nested.refl s with
        agenda := ⟨[.updateHandlerPauseState],by simp,rfl⟩
        closed := fun h => ⟨h.1,h.2.1,rfl⟩
        eom := .inl
        body := .inl le_rfl}
  | updateHandlerPauseState =>
    unfold run updateHandlerPauseState
    dsimp only
    split_ifs
    · exact .refl s
    · exact .refl s
    · exact {Nested.refl s with agenda := ⟨[.callback],by simp,rfl⟩}
    · exact .refl s
  | egressComplete => exact s.egressComplete_nested
  | abort =>
    unfold run
    dsimp only
    split_ifs
    · exact .refl s
    · exact .trans (u := {s with aborted := true}) (.flags _ _ _ _ _ _ _)
        (.push _ (by simp))
  | eomSent =>
    exact .trans (u := {s with trailers := false}) (.flags _ _ _ _ _ _ _)
      (maybeSendDeferredNoError_nested _)
  | _ => exact absurd ht Bool.false_ne_true

structure Forward (s s' : Egress) : Prop where
  passed : s.passed ≤ s'.passed
  closed : s.Closed → s'.Closed
  sane : s.sendWindow.Sane → s'.sendWindow.Sane
  agenda : ∀ p,.writeReadyDone p ∈ s'.agenda → .writeReadyDone p ∈ s.agenda

lemma Nested.tasks (h : Nested s s') : ∃ tasks,s'.agenda = tasks++s.agenda ∧ ∀ p,.writeReadyDone p ∉ tasks := by
  obtain ⟨tasks,htasks,hagenda⟩ := h.agenda
  exact ⟨tasks,hagenda,fun p hp => absurd (htasks _ hp) Bool.false_ne_true⟩

lemma Nested.forward (h : Nested s s') : Forward s s' := by
  refine ⟨h.passed,h.closed,fun hs => h.sendWindow ▸ hs,fun p hp => ?_⟩
  obtain ⟨tasks,hagenda,hnone⟩ := h.tasks
  rw [hagenda,List.mem_append] at hp
  exact hp.resolve_left (hnone p)

namespace Forward

lemma trans (h : Forward s u) (g : Forward u s') : Forward s s' :=
  ⟨h.passed.trans g.passed,g.closed ∘ h.closed,g.sane ∘ h.sane,fun p => h.agenda p ∘ g.agenda p⟩

lemma refl (s : Egress) : Forward s s := ⟨le_rfl,id,id,fun _ => id⟩

lemma push (s : Egress) {tasks : List EgressTask} (h : ∀ p,.writeReadyDone p ∉ tasks) : Forward s (s.push tasks) :=
  ⟨le_rfl,id,id,fun p hp => (List.mem_append.mp hp).resolve_left (h p)⟩

lemma fail (s : Egress) : Forward s s.fail := ⟨le_rfl,id,id,fun p hp => by simp [Egress.fail] at hp⟩

end Forward

lemma sendBodyNow_forward (s : Egress) (length : ℕ) (sendEom : Bool) : Forward s (s.sendBodyNow length sendEom) := by
  unfold sendBodyNow reserve
  by_cases hcontrol : s.useFlowControl=true
  · rw [if_pos hcontrol]
    cases hreserve : s.sendWindow.reserve length with
    | none => exact .fail s
    | some sendWindow =>
      refine .trans (u := {s with sendWindow}) ⟨le_rfl,id,fun h => h.reserve hreserve,fun _ => id⟩ ?_
      exact .push _ (by simp)
  · rw [if_neg hcontrol]
    exact .trans (u := {s with sendWindow := s.sendWindow}) (.refl s) (.push _ (by simp))

lemma split_forward (s : Egress) (n : ℕ) : Forward s (s.split n) :=
  ⟨le_rfl,fun h => ⟨h.1,by simp [split,h.2.1],h.2.2⟩,id,fun _ => id⟩

lemma bodyBuffered_forward (s : Egress) (length : ℕ) (sendEom : Bool) : Forward s (s.bodyBuffered length sendEom) := by
  unfold bodyBuffered
  split_ifs
  · unfold validateEgressStateTransition
    cases hstate : s.egressState.transit .eomFlushed with
    | none => exact s.invariantViolation_nested.forward
    | some state =>
      refine ⟨Nat.le_add_right _ _,fun h => ?_,id,fun p hp => by simpa [push] using hp⟩
      simp [h.1,EgressState.transit] at hstate
  · exact .trans (.push s (by simp)) (sendAbort_nested _ _).forward
  · exact ⟨Nat.le_add_right _ _,id,id,fun p hp => by simpa [push] using hp⟩

lemma setChunks_forward (s : Egress) (chunkHeaders : List Chunk) : Forward s {s with chunkHeaders} :=
  ⟨le_rfl,id,id,fun _ => id⟩

lemma chunkBody_forward (s : Egress) (canSend : ℕ) : Forward s (s.chunkBody canSend) := by
  unfold chunkBody
  cases s.chunkHeaders with
  | nil => exact .refl s
  | cons chunk chunkHeaders =>
    dsimp only
    split_ifs
    · exact .trans (setChunks_forward s _) (.fail _)
    · refine .trans ?_ (sendBodyNow_forward _ _ _)
      exact (setChunks_forward s _).trans ((split_forward _ _).trans (.push _ (by simp)))

lemma chunkLoop_forward (s : Egress) (canSend : ℕ) : Forward s (s.chunkLoop canSend) := by
  have hend : Forward s (if s.hasPendingEOM then s.sendEOMNow else s) := by
    split_ifs
    exacts [s.sendEOMNow_nested.forward,.refl s]
  unfold chunkLoop
  cases s.chunkHeaders with
  | nil => exact hend
  | cons chunk chunkHeaders =>
    dsimp only
    by_cases hzero : canSend=0
    · rw [if_pos hzero]
      exact hend
    · rw [if_neg hzero]
      split_ifs
      · exact s.chunkBody_forward canSend
      · exact .push s (by simp)

theorem run_forward (s : Egress) (t : EgressTask) : Forward s (s.run t) := by
  by_cases hnested : t.isNested=true
  · exact (s.run_nested hnested).forward
  · cases t with
    | bodyBuffered length sendEom => exact s.bodyBuffered_forward length sendEom
    | bodySent sendEom =>
      unfold run bodySent
      dsimp only
      split_ifs
      · exact .trans (.push s (by simp)) (sendEOMNow_nested _).forward
      · exact .push s (by simp)
    | noErrorIfComplete =>
      unfold run
      dsimp only
      split_ifs
      · exact s.maybeSendDeferredNoError_nested.forward
      · exact .refl s
    | chunkBody canSend => exact s.chunkBody_forward canSend
    | chunkSent canSend =>
      unfold run chunkSent
      cases s.chunkHeaders with
      | nil => exact .refl s
      | cons chunk chunkHeaders =>
        dsimp only
        split_ifs
        · exact .trans (setChunks_forward s _) (.push _ (by simp))
        · exact .trans (setChunks_forward s _) (chunkLoop_forward _ _)
    | chunkPop canSend => exact .trans (setChunks_forward s _) (chunkLoop_forward _ canSend)
    | writeReadyDone passed => exact .refl s
    | _ => exact absurd rfl hnested

def Keeps (s : Egress) : EgressTask → Prop
  | .bodyBuffered length sendEom => 0 < length ∧ (sendEom=true → s.egressState = .eomQueued)
  | .chunkBody canSend => 0 < canSend ∧ canSend ≤ s.deferredEgressBody ∧
      (s.useFlowControl=true → (canSend : ℤ) ≤ s.sendWindow.getSize) ∧
      ∃ chunk chunks,s.chunkHeaders = chunk::chunks ∧ 0 < chunk.length
  | .egressComplete => True
  | _ => False

/-- Something was passed on since `passed`, or the transaction is closed, or a task on the agenda will do it. -/
def Promised (s : Egress) (passed : ℕ) : Prop :=
  passed < s.passed ∨ s.Closed ∨
    ∃ above task below,s.agenda = above++task::below ∧ (∀ t ∈ above,EgressTask.isNested t = true) ∧ s.Keeps task

variable {task : EgressTask}

lemma Keeps.nested (h : s.Keeps task) (hn : Nested s s') : s'.Keeps task ∨ s'.Closed ∨ s.passed < s'.passed := by
  cases task with
  | bodyBuffered length sendEom =>
    obtain ⟨hpos,heom⟩ := h
    by_cases hsend : sendEom=true
    · exact (hn.eom (heom hsend)).imp_left fun hqueued => ⟨hpos,fun _ => hqueued⟩
    · exact .inl ⟨hpos,fun hb => absurd hb hsend⟩
  | chunkBody canSend =>
    obtain ⟨hpos,hbody,hfits,chunk,chunks,hchunks,hlength⟩ := h
    obtain ⟨more,hmore⟩ := hn.chunks
    rcases hn.body with hle | hclosed
    · refine .inl ⟨hpos,hbody.trans hle,fun hcontrol => ?_,chunk,chunks++more,?_,hlength⟩
      · rw [hn.sendWindow]
        exact hfits (hn.useFlowControl ▸ hcontrol)
      · rw [hmore,hchunks,List.cons_append]
    · exact .inr (.inl hclosed)
  | egressComplete => exact .inl trivial
  | _ => exact h.elim

lemma Promised.nested {passed : ℕ} (h : s.Promised passed) (hn : Nested s s') (hle : passed ≤ s.passed) :
    s'.Promised passed := by
  rcases h with hlt | hclosed | ⟨above,task,below,hagenda,habove,hkeeps⟩
  · exact .inl (hlt.trans_le hn.passed)
  · exact .inr (.inl (hn.closed hclosed))
  · rcases hkeeps.nested hn with hkeeps | hclosed | hlt
    · obtain ⟨tasks,htasks,heq⟩ := hn.agenda
      refine .inr (.inr ⟨tasks++above,task,below,by rw [heq,hagenda,List.append_assoc],fun t ht => ?_,hkeeps⟩)
      exact (List.mem_append.mp ht).elim (htasks t) (habove t)
    · exact .inr (.inl hclosed)
    · exact .inl (hle.trans_lt hlt)

/-- An abort ends egress at once, or when the transport has taken note of the bytes that are dropped. -/
lemma sendAbortImpl_promised (s : Egress) (passed : ℕ) : s.sendAbortImpl.Promised passed := by
  unfold sendAbortImpl markEgressComplete
  split_ifs
  · exact .inr (.inr ⟨[.callback],.egressComplete,.abort::s.agenda,rfl,by simp,trivial⟩)
  · exact .inr (.inl (egressComplete_closed _))

lemma sendBodyNow_promised {length : ℕ} {sendEom : Bool} (hs : s.sendWindow.Sane) (hpos : 0<length)
    (hfits : s.useFlowControl=true → (length : ℤ) ≤ s.sendWindow.getSize)
    (heom : sendEom=true → s.egressState = .eomQueued) (passed : ℕ) :
    (s.sendBodyNow length sendEom).Promised passed ∧
      (s.sendBodyNow length sendEom).agenda = [.callback,.bodyBuffered length sendEom]++s.agenda := by
  have hreserve : ∃ w,s.reserve length = some w := by
    unfold reserve
    by_cases hcontrol : s.useFlowControl=true
    · rw [if_pos hcontrol]
      exact Option.isSome_iff_exists.mp (hs.reserve_isSome (hfits hcontrol))
    · rw [if_neg hcontrol]
      exact ⟨_,rfl⟩
  obtain ⟨w,hw⟩ := hreserve
  unfold sendBodyNow
  rw [hw]
  refine ⟨.inr (.inr ⟨[.callback],_,s.agenda,rfl,by simp,hpos,heom⟩),rfl⟩

lemma chunkBody_promised {canSend : ℕ} (hs : s.sendWindow.Sane) (hkeeps : s.Keeps (.chunkBody canSend)) (passed : ℕ) :
    (s.chunkBody canSend).Promised passed ∧ ∃ tasks,(s.chunkBody canSend).agenda = tasks++s.agenda ∧
      ∀ p,.writeReadyDone p ∉ tasks := by
  obtain ⟨hpos,hbody,hfits,chunk,chunks,hchunks,hlength⟩ := hkeeps
  unfold chunkBody
  rw [hchunks]
  dsimp only
  rw [if_neg (by omega)]
  generalize hu : (split {s with chunkHeaders := {chunk with headerSent := true}::chunks}
    (min chunk.length canSend)).push [.chunkSent canSend] = u
  have hwindow : u.sendWindow=s.sendWindow ∧ u.useFlowControl=s.useFlowControl ∧
      u.agenda = [.chunkSent canSend]++s.agenda := by
    rw [← hu]
    exact ⟨rfl,rfl,rfl⟩
  have hsize : u.useFlowControl=true → ((min chunk.length canSend : ℕ) : ℤ) ≤ u.sendWindow.getSize := by
    rw [hwindow.1,hwindow.2.1]
    exact fun hcontrol => (Int.ofNat_le.mpr (min_le_right _ _)).trans (hfits hcontrol)
  obtain ⟨hpromised,hagenda⟩ := sendBodyNow_promised (hwindow.1 ▸ hs) (show 0 < min chunk.length canSend by omega) hsize
    (fun hfalse => absurd hfalse Bool.false_ne_true) passed
  rw [hwindow.2.2] at hagenda
  exact ⟨hpromised,_,hagenda.trans (List.append_assoc _ _ _).symm,by simp⟩

lemma bodyBuffered_promised {length : ℕ} {sendEom : Bool} (h : s.Keeps (.bodyBuffered length sendEom)) {passed : ℕ}
    (hle : passed ≤ s.passed) : (s.bodyBuffered length sendEom).Promised passed ∧
      ∃ tasks,(s.bodyBuffered length sendEom).agenda = tasks++s.agenda ∧ ∀ p,.writeReadyDone p ∉ tasks := by
  obtain ⟨hpos,heom⟩ := h
  unfold bodyBuffered
  split_ifs with hfin herror
  · have hqueued := heom (by simp_all)
    unfold validateEgressStateTransition
    rw [hqueued]
    refine ⟨.inl ?_,[.callback,.bodySent sendEom],rfl,by simp⟩
    change passed < s.passed+(length+1)
    omega
  · exact ⟨sendAbortImpl_promised _ passed,(Nested.trans (.push s (by simp))
      (sendAbort_nested _ _)).tasks⟩
  · refine ⟨.inl ?_,[.callback,.bodySent sendEom],rfl,by simp⟩
    simp only [push]
    omega

lemma Keeps.run (hs : s.sendWindow.Sane) (h : s.Keeps task) {passed : ℕ} (hle : passed ≤ s.passed) :
    (s.run task).Promised passed ∧ ∃ tasks,(s.run task).agenda = tasks++s.agenda ∧
      ∀ p,.writeReadyDone p ∉ tasks := by
  cases task with
  | bodyBuffered length sendEom => exact bodyBuffered_promised h hle
  | chunkBody canSend => exact chunkBody_promised hs h passed
  | egressComplete => exact ⟨.inr (.inl s.egressComplete_closed),[],rfl,by simp⟩
  | _ => exact h.elim

/-- The end of a message does not wait alone, and the first chunk is not empty. -/
def Ready (s : Egress) : Prop :=
  (s.hasPendingEOM=true → s.chunkHeaders≠[]) ∧
    (0 < s.deferredEgressBody → ∀ chunk ∈ s.chunkHeaders.head?,0 < chunk.length)

instance (s : Egress) : Decidable s.Ready := inferInstanceAs (Decidable (_ ∧ _))

structure Kept (s : Egress) : Prop where
  sane : s.sendWindow.Sane
  promised : ∀ p,.writeReadyDone p ∈ s.agenda → p ≤ s.passed ∧ s.Promised p

lemma Kept.of_nested (hs : s.Kept) (h : Nested s s') : s'.Kept := by
  refine ⟨h.sendWindow ▸ hs.sane,fun p hp => ?_⟩
  obtain ⟨tasks,hagenda,hnone⟩ := h.tasks
  rw [hagenda,List.mem_append] at hp
  obtain ⟨hle,hpromised⟩ := hs.promised p (hp.resolve_left (hnone p))
  exact ⟨hle.trans h.passed,hpromised.nested h hle⟩

lemma sendDeferredBody_forward (s : Egress) (maxEgress : ℕ) : Forward s (s.sendDeferredBody maxEgress) := by
  have hpush : Forward s (s.push [.notifyTransportPendingEgress,.callback]) := .push s (by simp)
  unfold sendDeferredBody
  dsimp only
  generalize (if s.useFlowControl=true then min maxEgress s.sendWindow.getSize.toNat else maxEgress) = window
  split_ifs
  · exact hpush.trans ((split_forward _ _).trans (sendBodyNow_forward _ _ _))
  · exact hpush
  · exact hpush.trans (chunkLoop_forward _ _)
  · exact s.invariantViolation_nested.forward

lemma chunkLoop_promised {canSend : ℕ} (hs : s.sendWindow.Sane) {chunk : Chunk} {chunks : List Chunk}
    (hchunks : s.chunkHeaders = chunk::chunks) (heom : canSend=0 → s.hasPendingEOM=true)
    (hkeeps : 0 < canSend → s.Keeps (.chunkBody canSend)) : (s.chunkLoop canSend).Promised s.passed := by
  unfold chunkLoop
  rw [hchunks]
  dsimp only
  by_cases hzero : canSend=0
  · have hpending := heom hzero
    rw [if_pos hzero,if_pos hpending]
    refine .inl (sendEOMNow_passes ?_)
    simp only [hasPendingEOM,isEgressEOMQueued,Bool.and_eq_true,decide_eq_true_eq] at hpending
    exact hpending.1
  · have hkept := hkeeps (Nat.pos_of_ne_zero hzero)
    rw [if_neg hzero]
    split_ifs
    · exact (chunkBody_promised hs hkept _).1
    · exact .inr (.inr ⟨[.callback],.chunkBody canSend,s.agenda,rfl,by simp,hkept⟩)

lemma sendDeferredBody_promised (hs : s.sendWindow.Sane) (hready : s.Ready) {maxEgress : ℕ} :
    (s.sendDeferredBody maxEgress).Promised s.passed := by
  obtain ⟨halone,hfirst⟩ := hready
  unfold sendDeferredBody
  have hfits : s.useFlowControl=true →
      (if s.useFlowControl then min maxEgress s.sendWindow.getSize.toNat else maxEgress) ≤
        s.sendWindow.getSize.toNat := fun hcontrol => by
    rw [if_pos hcontrol]
    exact min_le_right _ _
  generalize (if s.useFlowControl=true then min maxEgress s.sendWindow.getSize.toNat else maxEgress) = window at hfits
  by_cases hinvariant : (0 < s.deferredEgressBody ∨ s.isEgressEOMQueued=true) ∧ 0<window
  · rw [if_neg (not_not_intro hinvariant)]
    obtain ⟨hwaiting,hwindow⟩ := hinvariant
    have hpending : ¬0 < s.deferredEgressBody → s.hasPendingEOM=true := fun hempty => by
      have hqueued := hwaiting.resolve_left hempty
      simp only [hasPendingEOM,hqueued,Bool.true_and,decide_eq_true_eq]
      omega
    have hsize : s.useFlowControl=true → ((min window s.deferredEgressBody : ℕ) : ℤ) ≤ s.sendWindow.getSize ∨
        min window s.deferredEgressBody = 0 := fun hcontrol => by
      have := hfits hcontrol
      omega
    cases hchunks : s.chunkHeaders with
    | nil =>
      have hbody : 0 < s.deferredEgressBody := by
        by_contra hempty
        exact halone (hpending hempty) hchunks
      rw [if_pos (show (s.push _).chunkHeaders = [] from hchunks),
        if_pos (show 0 < (s.push _).deferredEgressBody from hbody)]
      have hpos : 0 < min window s.deferredEgressBody := by omega
      generalize hu : (s.push [.notifyTransportPendingEgress,.callback]).split (min window s.deferredEgressBody) = u
      have hwindow : u.sendWindow=s.sendWindow ∧ u.useFlowControl=s.useFlowControl := by
        rw [← hu]
        exact ⟨rfl,rfl⟩
      have hsize' : u.useFlowControl=true → ((min window s.deferredEgressBody : ℕ) : ℤ) ≤ u.sendWindow.getSize := by
        rw [hwindow.1,hwindow.2]
        exact fun hcontrol => (hsize hcontrol).resolve_right (by omega)
      refine (sendBodyNow_promised (hwindow.1 ▸ hs) hpos hsize' ?_ _).1
      intro hpending
      simp only [hasPendingEOM,isEgressEOMQueued,Bool.and_eq_true,decide_eq_true_eq] at hpending
      exact hpending.1
    | cons chunk chunks =>
      rw [if_neg (show (s.push _).chunkHeaders≠[] by simp [push,hchunks])]
      refine chunkLoop_promised hs hchunks (fun hzero => hpending (by omega)) fun hpos => ?_
      refine ⟨hpos,min_le_right _ _,fun hcontrol => (hsize hcontrol).resolve_right (by omega),chunk,chunks,
        hchunks,?_⟩
      exact hfirst (by omega) chunk (by simp [hchunks])
  · rw [if_pos hinvariant]
    exact sendAbortImpl_promised _ _

lemma onWriteReady_kept (hs : s.sendWindow.Sane) (hready : s.Ready) (hempty : s.agenda=[]) (maxEgress : ℕ) :
    (s.onWriteReady maxEgress).Kept := by
  have hforward := sendDeferredBody_forward (s.push [.writeReadyDone s.passed]) maxEgress
  have hpromised : (sendDeferredBody (s.push [.writeReadyDone s.passed]) maxEgress).Promised s.passed :=
    sendDeferredBody_promised (s := s.push [.writeReadyDone s.passed]) hs hready
  refine ⟨hforward.sane hs,fun p hp => ?_⟩
  have hfirst : p=s.passed := by simpa [push,hempty] using hforward.agenda p hp
  subst hfirst
  exact ⟨hforward.passed,hpromised⟩

lemma keeps_agenda (s : Egress) (agenda : List EgressTask) (task : EgressTask) :
    Keeps {s with agenda} task ↔ s.Keeps task := by
  cases task <;> exact Iff.rfl

/-- A task runs: the promise stays, and `onWriteReady` ends only if it is fulfilled. -/
lemma advance_promised {agenda : List EgressTask} (hs : s.sendWindow.Sane)
    (hagenda : s.agenda = task::agenda) {p : ℕ} (hp : .writeReadyDone p ∈ s.agenda) (hle : p ≤ s.passed)
    (h : s.Promised p) : (run {s with agenda} task).Promised p ∧
      (.writeReadyDone p ∈ (run {s with agenda} task).agenda ∨
        p < (run {s with agenda} task).passed ∨ (run {s with agenda} task).Closed) := by
  have hforward := run_forward {s with agenda} task
  rcases h with hlt | hclosed | ⟨above,key,below,heq,habove,hkeeps⟩
  · exact ⟨.inl (hlt.trans_le hforward.passed),.inr (.inl (hlt.trans_le hforward.passed))⟩
  · exact ⟨.inr (.inl (hforward.closed hclosed)),.inr (.inr (hforward.closed hclosed))⟩
  rw [hagenda] at heq hp
  cases above with
  | nil =>
    obtain ⟨rfl,rfl⟩ := List.cons.inj heq
    have hother : .writeReadyDone p ∈ agenda := by
      rcases List.mem_cons.mp hp with rfl | hp
      exacts [hkeeps.elim,hp]
    obtain ⟨hpromised,tasks,htasks,-⟩ := Keeps.run (s := {s with agenda}) hs ((keeps_agenda s _ _).mpr hkeeps) hle
    exact ⟨hpromised,.inl (by rw [htasks]; exact List.mem_append_right _ hother)⟩
  | cons t above =>
    rw [List.cons_append] at heq
    obtain ⟨rfl,hrest⟩ := List.cons.inj heq
    have htask := habove task (by simp)
    have hother : .writeReadyDone p ∈ agenda := by
      rcases List.mem_cons.mp hp with rfl | hp
      exacts [absurd htask Bool.false_ne_true,hp]
    have hnested := run_nested {s with agenda} htask
    obtain ⟨tasks,htasks,-⟩ := hnested.tasks
    have hkept : Promised {s with agenda} p :=
      .inr (.inr ⟨above,key,below,hrest,fun t ht => habove t (by simp [ht]),(keeps_agenda s _ _).mpr hkeeps⟩)
    exact ⟨hkept.nested hnested hle,.inl (by rw [htasks]; exact List.mem_append_right _ hother)⟩

lemma advance_kept {agenda : List EgressTask} (hs : s.Kept) (hagenda : s.agenda = task::agenda) :
    (run {s with agenda} task).Kept := by
  have hforward := run_forward {s with agenda} task
  refine ⟨hforward.sane hs.sane,fun p hp => ?_⟩
  have hmem : .writeReadyDone p ∈ s.agenda := by
    rw [hagenda]
    exact List.mem_cons_of_mem _ (hforward.agenda p hp)
  obtain ⟨hle,hpromised⟩ := hs.promised p hmem
  exact ⟨hle.trans hforward.passed,(advance_promised hs.sane hagenda hmem hle hpromised).1⟩

/-- `onWriteReady` returns only if something was passed on or the transaction has left the queue. -/
def Progress (s : Egress) (e : Step) : Prop :=
  ∀ p,.writeReadyDone p ∈ s.agenda → .writeReadyDone p ∉ (s.step e).agenda →
    p < (s.step e).passed ∨ (s.step e).isEnqueued = false

def StartsReady (s : Egress) : Step → Prop
  | .onWriteReady _ => s.agenda = [] → s.isEnqueued=true → s.Ready
  | _ => True

instance (s : Egress) (e : Step) : Decidable (s.StartsReady e) := by
  unfold StartsReady
  split <;> infer_instance

lemma changeWindow_kept (hs : s.Kept) (hempty : s.agenda=[]) {window : Option Window}
    (hwindow : ∀ w ∈ window,w.Sane) : (s.changeWindow window).Kept := by
  unfold changeWindow
  split_ifs
  · cases window with
    | none => exact hs.of_nested (.trans (.push s (by simp)) (sendAbort_nested _ _))
    | some w => exact ⟨hwindow w rfl,fun p hp => by simp [push,hempty] at hp⟩
  · exact hs

theorem step_kept (hs : s.Kept) {e : Step} (hready : s.StartsReady e) : (s.step e).Kept ∧ s.Progress e := by
  have hstays : (s.step e).Kept → (∀ p,.writeReadyDone p ∈ s.agenda → .writeReadyDone p ∈ (s.step e).agenda) →
      (s.step e).Kept ∧ s.Progress e := fun hkept hsame => ⟨hkept,fun p hp hgone => absurd (hsame p hp) hgone⟩
  have hidle : s.step e = s → (s.step e).Kept ∧ s.Progress e := fun hsame =>
    hstays (hsame.symm ▸ hs) fun p hp => hsame.symm ▸ hp
  have halone {t : Egress} (hstep : s.step e = if s.agenda=[] then t else s) (hkept : s.agenda=[] → t.Kept) :
      (s.step e).Kept ∧ s.Progress e := by
    by_cases hempty : s.agenda=[]
    · rw [if_pos hempty] at hstep
      exact hstays (hstep ▸ hkept hempty) fun p hp => by simp [hempty] at hp
    · exact hidle (hstep.trans (if_neg hempty))
  cases e with
  | call c =>
    by_cases hopen : s.agenda=[] ∨ s.agenda.head? = some .callback
    · have hcall := s.call_nested c
      obtain ⟨tasks,hagenda,-⟩ := hcall.tasks
      refine hstays ?_ fun p hp => ?_
      · rw [step,if_pos hopen]
        exact hs.of_nested hcall
      · rw [step,if_pos hopen,hagenda]
        exact List.mem_append_right _ hp
    · exact hidle (if_neg hopen)
  | advance =>
    cases hagenda : s.agenda with
    | nil =>
      exact hidle (by simp [step,hagenda])
    | cons task agenda =>
      have hstep : s.step .advance = run {s with agenda} task := by simp [step,hagenda]
      refine ⟨hstep ▸ advance_kept hs hagenda,fun p hp hgone => ?_⟩
      obtain ⟨hle,hpromised⟩ := hs.promised p hp
      rw [hstep] at hgone ⊢
      exact ((advance_promised hs.sane hagenda hp hle hpromised).2.resolve_left hgone).imp_right fun h => h.2.2
  | onWriteReady maxEgress =>
    by_cases hstart : s.agenda=[] ∧ s.isEnqueued=true ∧ 0 < maxEgress
    · refine hstays ?_ fun p hp => by simp [hstart.1] at hp
      rw [step,if_pos hstart]
      exact onWriteReady_kept hs.sane (hready hstart.1 hstart.2.1) hstart.1 maxEgress
    · exact hidle (if_neg hstart)
  | onIngressWindowUpdate amount =>
    exact halone rfl fun hempty => changeWindow_kept hs hempty fun w hw => hs.sane.free hw
  | onIngressSetSendWindow newWindowSize =>
    exact halone rfl fun hempty => changeWindow_kept hs hempty fun w hw => hs.sane.setCapacity hw
  | ingressError => exact halone rfl fun _ => hs.of_nested (.flags _ _ _ _ _ _ _)

/-- A bound for the number of tasks that a task leads to, with `chunks` chunks waiting. -/
def weight (chunks : ℕ) : EgressTask → ℕ
  | .callback | .egressComplete | .writeReadyDone _ => 1
  | .updateHandlerPauseState | .abort => 2
  | .notifyTransportPendingEgress => 4
  | .eomSent | .noErrorIfComplete => 5
  | .bodySent _ => 12
  | .bodyBuffered .. => 14
  | .chunkBody _ => 20*chunks+26
  | .chunkSent _ => 20*chunks+10
  | .chunkPop _ => 20*chunks+8

def load (s : Egress) : ℕ := (s.agenda.map (weight s.chunkHeaders.length)).sum

section
variable (s : Egress)

lemma load_one (t : EgressTask) :
    (s.push [t]).load = weight s.chunkHeaders.length t+s.load := by
  simp [load,push]

lemma load_two (t t' : EgressTask) :
    (s.push [t,t']).load = weight s.chunkHeaders.length t+weight s.chunkHeaders.length t'+s.load := by
  simp [load,push,add_assoc]

lemma sendAbortImpl_load : s.sendAbortImpl.load ≤ s.load+4 := by
  unfold sendAbortImpl markEgressComplete
  split_ifs
  · simp only [load_one,load_two,weight]
    omega
  · change (s.push [.abort]).load ≤ _
    simp only [load_one,weight]
    omega

lemma maybeSendDeferredNoError_load : s.maybeSendDeferredNoError.load ≤ s.load+4 := by
  unfold maybeSendDeferredNoError
  split_ifs
  · exact sendAbortImpl_load {s with deferredNoError := false}
  · omega

lemma invariantViolation_load : s.invariantViolation.load ≤ s.load+5 := by
  have habort := (s.push [.callback]).sendAbortImpl_load
  simp only [load_one,weight] at habort
  unfold invariantViolation
  omega

lemma sendEOMNow_load : s.sendEOMNow.load ≤ s.load+6 := by
  obtain ⟨-,heq⟩ | ⟨-,heq⟩ := s.sendEOMNow_cases
  · simp only [heq,load_two,weight]
    change _+s.load ≤ _
    omega
  · rw [heq]
    exact s.invariantViolation_load.trans (by omega)

lemma sendBodyNow_load (length : ℕ) (sendEom : Bool) :
    (s.sendBodyNow length sendEom).load ≤ s.load+15 := by
  unfold sendBodyNow
  cases s.reserve length with
  | none => simp [fail,load]
  | some sendWindow =>
    simp only [load_two,weight]
    change _+s.load ≤ _
    omega

lemma chunkBody_load (canSend : ℕ) :
    (s.chunkBody canSend).load ≤ s.load+(20*s.chunkHeaders.length+25) := by
  unfold chunkBody
  cases hchunks : s.chunkHeaders with
  | nil => simp only; omega
  | cons chunk chunks =>
    dsimp only
    split_ifs
    · simp [fail,load]
    · refine (sendBodyNow_load _ _ _).trans ?_
      have hsame : load (split {s with chunkHeaders := {chunk with headerSent := true}::chunks}
          (min chunk.length canSend)) = s.load := by
        simp [load,split,hchunks]
      rw [load_one,hsame]
      simp only [split,weight,List.length_cons]
      omega

lemma chunkLoop_load (canSend : ℕ) :
    (s.chunkLoop canSend).load ≤ s.load+(if canSend=0 ∨ s.chunkHeaders=[] then 6 else
      20*s.chunkHeaders.length+27) := by
  have hend : (if s.hasPendingEOM then s.sendEOMNow else s).load ≤ s.load+6 := by
    split_ifs
    · exact s.sendEOMNow_load
    · omega
  unfold chunkLoop
  cases hchunks : s.chunkHeaders with
  | nil => simpa using hend
  | cons chunk chunks =>
    dsimp only
    by_cases hzero : canSend=0
    · rw [if_pos hzero,if_pos (show canSend = 0 ∨ chunk::chunks = [] from .inl hzero)]
      exact hend
    · rw [if_neg hzero,if_neg (show ¬(canSend=0 ∨ chunk::chunks = []) by simp [hzero]),← hchunks]
      split_ifs
      · exact (s.chunkBody_load canSend).trans (by omega)
      · simp only [load_two,weight]
        omega

lemma load_setChunks (chunkHeaders : List Chunk) (h : chunkHeaders.length ≤ s.chunkHeaders.length) :
    load {s with chunkHeaders} ≤ s.load := by
  refine List.sum_le_sum fun task _ => ?_
  cases task <;> simp only [weight] <;> omega

theorem run_load (task : EgressTask) :
    (s.run task).load < weight s.chunkHeaders.length task+s.load := by
  cases task with
  | callback | writeReadyDone => simp only [run,weight]; omega
  | notifyTransportPendingEgress =>
    unfold run notifyTransportPendingEgress
    split_ifs <;> simp [weight,load,push,← add_assoc]
  | updateHandlerPauseState =>
    unfold run updateHandlerPauseState
    dsimp only
    split_ifs
    · simp only [weight]; omega
    · simp only [weight]; omega
    · simp [weight,load,push]
    · simp only [weight]; omega
  | egressComplete =>
    change s.load < _
    simp only [weight]
    omega
  | abort =>
    unfold run
    dsimp only
    split_ifs
    · simp only [weight]; omega
    · simp [weight,load,push]
  | eomSent =>
    have hle := maybeSendDeferredNoError_load {s with trailers := false}
    have hsame : load {s with trailers := false} = s.load := rfl
    simp only [run,weight]
    omega
  | bodyBuffered length sendEom =>
    unfold run bodyBuffered
    dsimp only
    split_ifs
    · unfold validateEgressStateTransition
      cases s.egressState.transit .eomFlushed with
      | none =>
        have hle := s.invariantViolation_load
        simp only [weight]
        omega
      | some state =>
        simp [weight,load,push,← add_assoc]
    · have hle := s.invariantViolation_load
      change s.invariantViolation.load < _
      simp only [weight]
      omega
    · simp [weight,load,push,← add_assoc]
  | bodySent sendEom =>
    have hpushed := load_one s .noErrorIfComplete
    have hle := (s.push [.noErrorIfComplete]).sendEOMNow_load
    simp only [weight] at hpushed
    unfold run bodySent
    dsimp only
    split_ifs <;> simp only [weight] <;> omega
  | noErrorIfComplete =>
    have hle := s.maybeSendDeferredNoError_load
    unfold run
    split_ifs <;> simp only [weight] <;> omega
  | chunkBody canSend =>
    have hle := s.chunkBody_load canSend
    simp only [run,weight]
    omega
  | chunkSent canSend =>
    unfold run chunkSent
    cases hchunks : s.chunkHeaders with
    | nil => simp only [weight]; omega
    | cons chunk chunks =>
      dsimp only
      have hset := s.load_setChunks
        ({chunk with length := chunk.length-min chunk.length canSend}::chunks) (by simp [hchunks])
      split_ifs with hdone
      · rw [load_two]
        simp only [weight,List.length_cons]
        omega
      · -- a chunk is left over only if everything was used
        have hused : canSend-min chunk.length canSend = 0 := by omega
        have hle := chunkLoop_load {s with
          chunkHeaders := {chunk with length := chunk.length-min chunk.length canSend}::chunks}
          (canSend-min chunk.length canSend)
        rw [if_pos (.inl hused)] at hle
        simp only [weight]
        omega
  | chunkPop canSend =>
    have hset := s.load_setChunks s.chunkHeaders.tail (by simp)
    have hle := chunkLoop_load {s with chunkHeaders := s.chunkHeaders.tail} canSend
    simp only [run,chunkPop,weight]
    split_ifs at hle with hend
    · omega
    · have htail : s.chunkHeaders.tail.length+1 ≤ s.chunkHeaders.length := by
        cases hchunks : s.chunkHeaders with
        | nil => simp [hchunks] at hend
        | cons chunk chunks => simp
      simp only at hle
      omega

theorem agenda_empties : ∃ n,(Run.run step s (List.replicate n .advance)).agenda = [] := by
  induction hload : s.load using Nat.strong_induction_on generalizing s with
  | _ n ih =>
    cases hagenda : s.agenda with
    | nil => exact ⟨0,hagenda⟩
    | cons task agenda =>
      have hstep : s.step .advance = run {s with agenda} task := by simp [step,hagenda]
      have hless : (s.step .advance).load < s.load := by
        have hsplit : s.load = weight s.chunkHeaders.length task+load {s with agenda} := by simp [load,hagenda]
        rw [hstep,hsplit]
        exact run_load {s with agenda} task
      obtain ⟨m,hm⟩ := ih (s.step .advance).load (by omega) _ rfl
      exact ⟨m+1,hm⟩

end

/-- In every run in which `onWriteReady` is called only for transactions that are ready, each call passes body bytes or
the end of the message to the transport or leaves the transaction out of the queue; and it returns if callbacks do. -/
theorem writeReady_progress (isUpstream useFlowControl supportsParallelRequests handler : Bool)
    (egressBufferLimit : ℕ) (initial : Fin (2^31)) (steps : List Step)
    (hready : Run.EveryStep step StartsReady
      (start isUpstream useFlowControl supportsParallelRequests handler egressBufferLimit initial) steps) :
    let s := start isUpstream useFlowControl supportsParallelRequests handler egressBufferLimit initial
    Run.EveryStep step Progress s steps ∧
      ∃ n,(Run.run step (Run.run step s steps) (List.replicate n .advance)).agenda = [] := by
  refine ⟨?_,agenda_empties _⟩
  have hstart : (start isUpstream useFlowControl supportsParallelRequests handler egressBufferLimit initial).Kept :=
    ⟨by constructor <;> simp only [start,int32Max] <;> omega,by simp [start]⟩
  have hboth : Run.EveryStep step (fun s e => s.StartsReady e ∧ s.Progress e) _ steps :=
    (Run.everyStep_congr_while hstart fun t ht e _ =>
      ⟨⟨fun h => h.1,fun h => ⟨h,(step_kept ht h).2⟩⟩,fun h => (step_kept ht h).1⟩).mpr hready
  rw [Run.everyStep_iff] at hboth ⊢
  exact fun pre e post he => (hboth pre e post he).2

theorem writeReady_progress_of_chunks :
    let s := start false true false true 1000 100
    let steps : List Step := [.call (.sendHeaders true),.advance,.call (.sendChunkHeader 6),
      .call (.sendBody (some 6))]++List.replicate 4 .advance++[.onWriteReady 100,.call .sendChunkTerminator,
      .call (.sendChunkHeader 4),.call (.sendBody (some 4))]
    Run.EveryStep step Progress s steps ∧
      ∃ n,(Run.run step (Run.run step s steps) (List.replicate n .advance)).agenda = [] :=
  writeReady_progress false true false true 1000 100 _ (by decide)

/-- `sendEOM` arrives from the callback that follows the last body bytes: the end of the message is queued, and no
call of `onWriteReady` sends it or takes the transaction out of the queue. -/
theorem lone_eom_spins :
    let s := Run.run step (start false true true true 1000 100) ([.call (.sendHeaders true),.advance,
      .call (.sendBody (some 10))]++List.replicate 4 .advance++[.onWriteReady 100,.call .sendEOM] ++
      List.replicate 10 .advance)
    s.isEnqueued = true ∧ s.hasPendingEOM=true ∧ s.agenda=[] ∧
      Run.run step s (.onWriteReady 100::List.replicate 4 .advance) = s := by
  decide +kernel

end Egress

end QuicWestwood.HTTP
