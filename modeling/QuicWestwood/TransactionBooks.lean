import QuicWestwood.HttpTransaction

/-! Body bytes of a transaction are deferred, handed to the handler in a callback that still runs, or processed.
`WellFormed` ties the receive window to the deferred bytes; every step keeps it. What the steps tell the
transport is read off the same case analysis: a call is quiet, it completes ingress, or it moves body bytes. -/
namespace QuicWestwood.HTTP
open HTTPTransaction TransportCall List

namespace TransportCall

def processedBytes : TransportCall → ℕ
  | notifyIngressBodyProcessed bytes => bytes
  | _ => 0

def windowBytes : TransportCall → ℤ
  | sendWindowUpdate bytes => bytes
  | _ => 0

end TransportCall

def HTTPEvent.isEnd : HTTPEvent → Bool
  | messageComplete | error _ => true
  | _ => false

def Frame.isLoop : Frame → Bool
  | body _ => false
  | deferredBody _ | deferred => true

namespace HTTPTransaction
open HTTP2

def deferredBytes (t : HTTPTransaction) : ℕ := (t.events.map HTTPEvent.bodyLength).sum

def processing (t : HTTPTransaction) : ℕ := (t.stack.map Frame.bodyLength).sum

def notified (t : HTTPTransaction) : ℕ := (t.calls.map processedBytes).sum

def granted (t : HTTPTransaction) : ℤ := (t.calls.map windowBytes).sum

/-- Nothing but the end of the message and what comes after it follows an end. -/
def EndsLast : List HTTPEvent → Prop
  | [] => True
  | e::es => (e.isEnd=true → ∀ f ∈ es,f.bodyLength = 0) ∧ EndsLast es

variable {e : HTTPEvent} {es : List HTTPEvent}

lemma EndsLast.tail (h : EndsLast (e::es)) : EndsLast es := h.2

lemma EndsLast.snoc (h : EndsLast es) (he : (∀ f ∈ es,f.isEnd = false) ∨ e.bodyLength=0) :
    EndsLast (es++[e]) := by
  induction es with
  | nil => exact ⟨fun _ f hf => by simp at hf,trivial⟩
  | cons f fs ih =>
    refine ⟨fun hend g hg => ?_,ih h.2 (he.imp_left fun hall g hg => hall g (by simp [hg]))⟩
    rcases mem_append.mp hg with hg | hg
    · exact h.1 hend g hg
    · obtain rfl := mem_singleton.mp hg
      rcases he with hall | hzero
      · simp [hall f (by simp)] at hend
      · exact hzero

/-- What holds of the window, the deferred events and the flags. -/
structure Solid (t : HTTPTransaction) : Prop where
  window : t.recvWindow.Regular
  held : (t.deferredBytes : ℤ) ≤ t.recvWindow.outstanding
  exact : t.isIngressEOMSeen=false → (t.deferredBytes : ℤ) = t.recvWindow.outstanding
  aborted : t.aborted=true → t.isIngressComplete=true ∧ t.deferredIngress=none
  ends : EndsLast t.events
  noEnd : t.isIngressEOMSeen=false → ∀ e ∈ t.events,e.isEnd = false

/-- A transaction between two steps: the loop of `resumeIngress` has at most one frame on the stack,
and the event it is at has given its body away. -/
structure WellFormed (t : HTTPTransaction) : Prop extends Solid t where
  loops : t.stack.countP Frame.isLoop = if t.inResume then 1 else 0
  front : t.inResume=true → t.isIngressComplete=true ∧ t.deferredIngress=none ∨
    ∃ e es,t.events = e::es ∧ e.bodyLength=0

/-- The parts that only the delivery of bodies and the windows touch. -/
structure SameBooks (t t' : HTTPTransaction) : Prop where
  recvWindow : t'.recvWindow=t.recvWindow
  recvToAck : t'.recvToAck=t.recvToAck
  stack : t'.stack=t.stack
  inResume : t'.inResume=t.inResume
  handler : t'.handler=t.handler
  deleting : t'.deleting=t.deleting
  notified : t'.notified=t.notified
  granted : t'.granted=t.granted

lemma SameBooks.refl (t : HTTPTransaction) : SameBooks t t := ⟨rfl,rfl,rfl,rfl,rfl,rfl,rfl,rfl⟩

lemma SameBooks.trans {t u v : HTTPTransaction} (h : SameBooks t u) (g : SameBooks u v) : SameBooks t v :=
  ⟨g.recvWindow.trans h.recvWindow,g.recvToAck.trans h.recvToAck,g.stack.trans h.stack,
    g.inResume.trans h.inResume,g.handler.trans h.handler,g.deleting.trans h.deleting,
    g.notified.trans h.notified,g.granted.trans h.granted⟩

/-- Ingress is over and the deferred events are gone. -/
structure Completes (t t' : HTTPTransaction) : Prop extends SameBooks t t' where
  complete : t'.isIngressComplete=true
  deferredIngress : t'.deferredIngress=none

/-- No event is lost; at most one without a body is added. -/
structure Keeps (t t' : HTTPTransaction) : Prop extends SameBooks t t' where
  aborted : t'.aborted=t.aborted
  seen : t.isIngressEOMSeen=true → t'.isIngressEOMSeen=true
  complete : t.isIngressComplete=true → t'.isIngressComplete=true
  deferredIngress : t'.deferredIngress=t.deferredIngress ∨ t.isIngressComplete=false ∧
    ∃ e,e.bodyLength=0 ∧ t'.deferredIngress = some (t.events++[e]) ∧ (e.isEnd=true → t'.isIngressEOMSeen=true)

def Quiet (t t' : HTTPTransaction) : Prop := Completes t t' ∨ Keeps t t'

section Quiet
variable {t t' u : HTTPTransaction}

lemma isIngressEOMSeen_of_complete (h : t.isIngressComplete=true) : t.isIngressEOMSeen=true := by
  simp [isIngressEOMSeen,h]

lemma Keeps.of_eq (h : SameBooks t t') (haborted : t'.aborted=t.aborted)
    (hstate : t'.ingressState=t.ingressState) (hdeferred : t'.deferredIngress=t.deferredIngress) :
    Keeps t t' where
  toSameBooks := h
  aborted := haborted
  seen := by simp [isIngressEOMSeen,isIngressEOMQueued,isIngressComplete,hstate]
  complete := by simp [isIngressComplete,hstate]
  deferredIngress := .inl hdeferred

lemma Keeps.refl (t : HTTPTransaction) : Keeps t t := .of_eq (.refl t) rfl rfl rfl

lemma Completes.events (h : Completes t t') : t'.events=[] := by
  simp [HTTPTransaction.events,h.deferredIngress]

lemma Completes.solid (h : Completes t t') (ht : Solid t) : Solid t' := by
  have hevents := h.events
  have hseen := isIngressEOMSeen_of_complete h.complete
  exact {
    window := h.recvWindow ▸ ht.window
    held := by simpa [deferredBytes,hevents,h.recvWindow] using ht.window.nonneg
    exact := by simp [hseen]
    aborted := fun _ => ⟨h.complete,h.deferredIngress⟩
    ends := by simp [hevents,EndsLast]
    noEnd := by simp [hseen]}

lemma Completes.wellFormed (h : Completes t t') (ht : WellFormed t) : WellFormed t' where
  toSolid := h.solid ht.toSolid
  loops := by rw [h.stack,h.inResume]; exact ht.loops
  front _ := .inl ⟨h.complete,h.deferredIngress⟩

lemma Keeps.events (h : Keeps t t') : t'.events=t.events ∨ ∃ e,e.bodyLength=0 ∧
    t'.events = t.events++[e] ∧ (e.isEnd=true → t'.isIngressEOMSeen=true) := by
  rcases h.deferredIngress with heq | ⟨-,e,hzero,heq,hend⟩
  · exact .inl (by simp [HTTPTransaction.events,heq])
  · exact .inr ⟨e,hzero,by simp [HTTPTransaction.events,heq],hend⟩

lemma Keeps.deferredBytes (h : Keeps t t') : t'.deferredBytes=t.deferredBytes := by
  unfold HTTPTransaction.deferredBytes
  rcases h.events with heq | ⟨e,hzero,heq,-⟩ <;> simp [*]

lemma Keeps.live (h : Keeps t t') (hlive : t'.isIngressEOMSeen=false) : t.isIngressEOMSeen=false := by
  by_contra hseen
  simp [h.seen (by simpa using hseen)] at hlive

lemma Keeps.solid (h : Keeps t t') (ht : Solid t) : Solid t' where
  window := h.recvWindow ▸ ht.window
  held := by rw [h.deferredBytes,h.recvWindow]; exact ht.held
  exact hlive := by rw [h.deferredBytes,h.recvWindow]; exact ht.exact (h.live hlive)
  aborted hab := by
    obtain ⟨hcomplete,hnone⟩ := ht.aborted (h.aborted ▸ hab)
    refine ⟨h.complete hcomplete,?_⟩
    rcases h.deferredIngress with heq | ⟨hopen,-⟩
    · rw [heq,hnone]
    · simp [hcomplete] at hopen
  ends := by
    rcases h.events with heq | ⟨e,hzero,heq,-⟩
    · rw [heq]; exact ht.ends
    · rw [heq]; exact ht.ends.snoc (.inr hzero)
  noEnd hlive e he := by
    have hold := ht.noEnd (h.live hlive)
    rcases h.events with heq | ⟨f,-,heq,hend⟩
    · exact hold e (heq ▸ he)
    · rcases mem_append.mp (heq ▸ he) with he | he
      · exact hold e he
      · obtain rfl := mem_singleton.mp he
        by_contra hisEnd
        simp [hend (by simpa using hisEnd)] at hlive

lemma Keeps.wellFormed (h : Keeps t t') (ht : WellFormed t) : WellFormed t' where
  toSolid := h.solid ht.toSolid
  loops := by rw [h.stack,h.inResume]; exact ht.loops
  front hres := by
    rcases ht.front (h.inResume ▸ hres) with ⟨hcomplete,hnone⟩ | ⟨e,es,hes,hzero⟩
    · rcases h.deferredIngress with heq | ⟨hopen,-⟩
      · exact .inl ⟨h.complete hcomplete,heq.trans hnone⟩
      · simp [hcomplete] at hopen
    · rcases h.events with heq | ⟨f,-,heq,-⟩
      · exact .inr ⟨e,es,heq.trans hes,hzero⟩
      · exact .inr ⟨e,es++[f],by rw [heq,hes]; rfl,hzero⟩

lemma Quiet.wellFormed (h : Quiet t t') (ht : WellFormed t) : WellFormed t' :=
  h.elim (·.wellFormed ht) (·.wellFormed ht)

lemma Quiet.sameBooks (h : Quiet t t') : SameBooks t t' := h.elim (·.toSameBooks) (·.toSameBooks)

lemma Quiet.keeps_of_live (h : Quiet t t') (hlive : t'.isIngressEOMSeen=false) : Keeps t t' := by
  rcases h with h | h
  · simp [isIngressEOMSeen_of_complete h.complete] at hlive
  · exact h

def Calm (t t' : HTTPTransaction) : Prop :=
  Completes t t' ∨ Keeps t t' ∧ t'.deferredIngress=t.deferredIngress

lemma Calm.quiet (h : Calm t t') : Quiet t t' := h.imp_right (·.1)

lemma Calm.refl (t : HTTPTransaction) : Calm t t := .inr ⟨.refl t,rfl⟩

lemma Calm.of_eq (h : SameBooks t t') (haborted : t'.aborted=t.aborted)
    (hstate : t'.ingressState=t.ingressState) (hdeferred : t'.deferredIngress=t.deferredIngress) :
    Calm t t' := .inr ⟨.of_eq h haborted hstate hdeferred,hdeferred⟩

lemma Keeps.then_quiet (h : Keeps t u) (hdeferred : u.deferredIngress=t.deferredIngress) (g : Quiet u t') :
    Quiet t t' := by
  have hevents : u.events=t.events := by simp [HTTPTransaction.events,hdeferred]
  rcases g with g | g
  · exact .inl ⟨h.toSameBooks.trans g.toSameBooks,g.complete,g.deferredIngress⟩
  · refine .inr ⟨h.toSameBooks.trans g.toSameBooks,g.aborted.trans h.aborted,g.seen ∘ h.seen,
      g.complete ∘ h.complete,?_⟩
    rcases g.deferredIngress with heq | ⟨hopen,e,hzero,heq,hend⟩
    · exact .inl (heq.trans hdeferred)
    · refine .inr ⟨?_,e,hzero,by rw [heq,hevents],hend⟩
      by_contra hcomplete
      simp [h.complete (by simpa using hcomplete)] at hopen

lemma sameBooks_emit (t : HTTPTransaction) {c : TransportCall} (hp : c.processedBytes=0)
    (hw : c.windowBytes=0) : SameBooks t (t.emit c) :=
  ⟨rfl,rfl,rfl,rfl,rfl,rfl,by simp [notified,emit,hp],by simp [granted,emit,hw]⟩

lemma sendAbortImpl_completes (t : HTTPTransaction) (code : ErrorCode) : Completes t (t.sendAbortImpl code) := by
  unfold sendAbortImpl
  dsimp only
  split_ifs
  · exact ⟨⟨rfl,rfl,rfl,rfl,rfl,rfl,rfl,rfl⟩,rfl,rfl⟩
  · refine ⟨SameBooks.trans (u := {t.markIngressComplete.markEgressComplete with aborted := true})
      ⟨rfl,rfl,rfl,rfl,rfl,rfl,rfl,rfl⟩ (sameBooks_emit _ rfl rfl),rfl,rfl⟩

lemma sendAbort_quiet (t : HTTPTransaction) (code : ErrorCode) : Quiet t (t.sendAbort code) := by
  have hdeferred : ∀ b,Keeps t {t with deferredNoError := b} := fun b =>
    .of_eq ⟨rfl,rfl,rfl,rfl,rfl,rfl,rfl,rfl⟩ rfl rfl rfl
  have hsent : ∀ b code,Quiet t ({t with deferredNoError := b}.sendAbortImpl code) := fun b code =>
    (hdeferred b).then_quiet rfl (.inl (sendAbortImpl_completes _ code))
  unfold sendAbort
  dsimp only
  split_ifs
  · exact .inr (hdeferred _)
  · exact hsent _ _
  · exact hsent _ _
  · exact .inl (sendAbortImpl_completes _ _)

/-- The direction that `processIngressError` acts on. -/
def actedDirection (t : HTTPTransaction) (error : HTTPException) : Direction :=
  if (error.direction = .ingress && t.isIngressEOMSeen && t.isExpectingWindowUpdate) = true then .ingressAndEgress
  else error.direction

section
variable (t : HTTPTransaction)

lemma processIngressError_completes (error : HTTPException)
    (hdir : t.actedDirection error = .ingressAndEgress) : Completes t (t.processIngressError error).1 := by
  have hblocked : ∀ b : Bool,SameBooks t (if b=true then t.sendAbort .flowControlError else t) := by
    intro b
    split_ifs
    exacts [(sendAbort_quiet t _).sameBooks,.refl t]
  unfold actedDirection at hdir
  unfold processIngressError
  dsimp only
  rw [hdir]
  have hfirst := hblocked (error.direction = .ingress && t.isIngressEOMSeen && t.isExpectingWindowUpdate)
  generalize (if (error.direction = .ingress && t.isIngressEOMSeen && t.isExpectingWindowUpdate) = true
    then t.sendAbort .flowControlError else t) = u at hfirst
  have hdone : ∀ v,SameBooks u v → Completes t v.markEgressComplete.markIngressComplete := fun v h =>
    ⟨(hfirst.trans h).trans ⟨rfl,rfl,rfl,rfl,rfl,rfl,rfl,rfl⟩,rfl,rfl⟩
  by_cases hstream : error.proxygenError = some .streamAbort
  · rw [if_pos hstream]
    exact hdone _ ⟨rfl,rfl,rfl,rfl,rfl,rfl,rfl,rfl⟩
  · rw [if_neg hstream]
    cases error.codecStatusCode with
    | none => exact hdone u (.refl u)
    | some code => exact hdone _ (sendAbort_quiet u code).sameBooks

/-- An error of one side alone has neither aborted the stream nor a status code. -/
lemma processIngressError_oneWay (error : HTTPException)
    (hdir : t.actedDirection error≠.ingressAndEgress) :
    (error.direction = .egress ∧ (t.processIngressError error).1 =
      if !t.isEgressComplete && t.isIngressEOMSeen && t.ingressErrorSeen then
        t.markEgressComplete.markIngressComplete
      else t.markEgressComplete) ∨ (error.direction = .ingress ∧ (t.processIngressError error).1 =
      if t.isIngressEOMSeen then {t with ingressErrorSeen := true} else t.markIngressComplete) := by
  unfold actedDirection at hdir
  have hopen : (error.direction = .ingress && t.isIngressEOMSeen && t.isExpectingWindowUpdate) = false := by
    by_contra hb
    exact hdir (if_pos (by simpa [and_assoc] using hb))
  rw [hopen] at hdir
  obtain ⟨hstream,hcode⟩ := not_or.mp fun h => hdir (error.bothWays h)
  have hnone : error.codecStatusCode=none := by simpa using hcode
  unfold processIngressError
  simp only [hopen,Bool.false_eq_true,if_false,hnone,if_neg hstream] at hdir ⊢
  cases hd : error.direction with
  | ingressAndEgress => exact absurd hd hdir
  | egress => exact .inl ⟨rfl,rfl⟩
  | ingress =>
    refine .inr ⟨rfl,?_⟩
    split_ifs <;> rfl

lemma processIngressError_calm (error : HTTPException) :
    Calm t (t.processIngressError error).1 := by
  by_cases hdir : t.actedDirection error = .ingressAndEgress
  · exact .inl (processIngressError_completes t error hdir)
  · rcases processIngressError_oneWay t error hdir with ⟨-,heq⟩ | ⟨-,heq⟩
    · rw [heq]
      split_ifs
      · exact .inl ⟨⟨rfl,rfl,rfl,rfl,rfl,rfl,rfl,rfl⟩,rfl,rfl⟩
      · exact .of_eq ⟨rfl,rfl,rfl,rfl,rfl,rfl,rfl,rfl⟩ rfl rfl rfl
    · rw [heq]
      split_ifs
      · exact .of_eq ⟨rfl,rfl,rfl,rfl,rfl,rfl,rfl,rfl⟩ rfl rfl rfl
      · exact .inl ⟨⟨rfl,rfl,rfl,rfl,rfl,rfl,rfl,rfl⟩,rfl,rfl⟩

lemma defer_keeps (hzero : e.bodyLength=0) (hopen : t.isIngressComplete=false)
    (hend : e.isEnd=true → t.isIngressEOMSeen=true) : Keeps t (t.defer e) where
  toSameBooks := ⟨rfl,rfl,rfl,rfl,rfl,rfl,rfl,rfl⟩
  aborted := rfl
  seen := id
  complete := id
  deferredIngress := .inr ⟨hopen,e,hzero,rfl,hend⟩

lemma onError_quiet (error : HTTPException) : Quiet t (t.onError error) := by
  unfold onError
  split_ifs with h
  · have hqueued : t.ingressState = .eomQueued := by
      simp only [Bool.and_eq_true,isIngressEOMQueued,decide_eq_true_eq] at h
      exact h.2
    refine .inr (defer_keeps t rfl (by simp [isIngressComplete,hqueued]) fun _ => ?_)
    simp [isIngressEOMSeen,isIngressEOMQueued,hqueued]
  · exact (processIngressError_calm t error).quiet

lemma onError_seen {error : HTTPException} (hdir : error.direction≠.egress) :
    (t.onError error).isIngressEOMSeen = true := by
  unfold onError
  split_ifs with h
  · have hqueued := (Bool.and_eq_true _ _ ▸ h).2
    exact (Bool.or_eq_true _ _).mpr (.inl hqueued)
  · by_cases hboth : t.actedDirection error = .ingressAndEgress
    · exact isIngressEOMSeen_of_complete (processIngressError_completes t error hboth).complete
    · rcases processIngressError_oneWay t error hboth with ⟨hegress,-⟩ | ⟨-,heq⟩
      · exact absurd hegress hdir
      · rw [heq]
        split_ifs with hseen
        exacts [hseen,rfl]

end

variable {event : IngressEvent}

lemma keeps_transit {state : IngressState} (h : t.ingressState.transit event = some state) :
    Keeps t {t with ingressState := state} where
  toSameBooks := ⟨rfl,rfl,rfl,rfl,rfl,rfl,rfl,rfl⟩
  aborted := rfl
  seen hseen := by
    simp only [isIngressEOMSeen,isIngressEOMQueued,isIngressComplete,Bool.or_eq_true,
      decide_eq_true_eq] at hseen ⊢
    rcases hseen with hs | hs <;> rw [hs] at h <;> cases event <;> cases h
    exact .inr rfl
  complete hcomplete := by
    simp only [isIngressComplete,decide_eq_true_eq] at hcomplete
    rw [hcomplete] at h
    cases event <;> cases h
  deferredIngress := .inl rfl

lemma validateIngressStateTransition_quiet {next : HTTPTransaction → HTTPTransaction}
    (hnext : ∀ state,t.ingressState.transit event = some state →
      Quiet {t with ingressState := state} (next {t with ingressState := state})) :
    Quiet t (t.validateIngressStateTransition event next) := by
  unfold validateIngressStateTransition
  split
  · exact onError_quiet t _
  · rename_i state hstate
    exact (keeps_transit hstate).then_quiet rfl (hnext state hstate)

lemma queueOr_quiet {process : HTTPTransaction → HTTPTransaction} (hzero : e.bodyLength=0)
    (hopen : t.isIngressComplete=false) (hend : e.isEnd=true → t.isIngressEOMSeen=true)
    (hprocess : Quiet t (process t)) : Quiet t (t.queueOr e process) := by
  unfold queueOr
  split_ifs
  · exact .inr (defer_keeps t hzero hopen hend)
  · exact hprocess

lemma transit_open {s s' : IngressState} (hevent : event≠.eomFlushed) (h : s.transit event = some s') :
    s'≠.receivingDone := by
  cases s <;> cases event <;> cases h <;> simp_all

section
variable (t : HTTPTransaction)

lemma onIngress_quiet (hevent : event≠.eomFlushed) (hzero : e.bodyLength=0)
    (hend : e.isEnd=false) : Quiet t (t.onIngress event e) := by
  refine validateIngressStateTransition_quiet fun state hstate => ?_
  refine queueOr_quiet hzero ?_ (by simp [hend]) (.inr (.refl _))
  simpa [isIngressComplete] using transit_open hevent hstate

lemma onIngressHeadersComplete_quiet (isFinal : Bool) (contentLength : Option ℕ) :
    Quiet t (t.onIngressHeadersComplete isFinal contentLength) := by
  refine validateIngressStateTransition_quiet fun state hstate => ?_
  have hopen := transit_open (by split_ifs <;> simp) hstate
  have hlength : ∀ u : HTTPTransaction,u.isIngressComplete = false →
      Quiet u (u.queueOr .headersComplete fun t => t.handled.1) := fun u hu =>
    queueOr_quiet rfl hu (by simp [HTTPEvent.isEnd]) (.inr (.refl _))
  cases contentLength with
  | none => exact hlength _ (by simpa [isIngressComplete] using hopen)
  | some length =>
    refine Keeps.then_quiet (u := {t with
      ingressState := state, expectedIngressContentLengthRemaining := some length}) ?_ rfl (hlength _ ?_)
    · exact .of_eq ⟨rfl,rfl,rfl,rfl,rfl,rfl,rfl,rfl⟩ rfl rfl rfl
    · simpa [isIngressComplete] using hopen

lemma processIngressEOM_calm : Calm t t.processIngressEOM.1 := by
  unfold processIngressEOM
  by_cases haborted : t.aborted=true
  · rw [if_pos haborted]
    exact .refl t
  · rw [if_neg haborted]
    cases hstate : t.ingressState.transit .eomFlushed with
    | none => exact processIngressError_calm t _
    | some state =>
      have hkeeps := keeps_transit hstate
      split_ifs
      · exact .inr ⟨hkeeps,rfl⟩
      · refine .inr ⟨⟨hkeeps.toSameBooks.trans ⟨rfl,rfl,rfl,rfl,rfl,rfl,rfl,rfl⟩,rfl,hkeeps.seen,
          hkeeps.complete,.inl rfl⟩,rfl⟩

lemma onIngressEOM_quiet : Quiet t t.onIngressEOM := by
  unfold onIngressEOM
  split_ifs
  · exact onError_quiet t _
  · exact onError_quiet t _
  · exact .inr (.refl t)
  · refine validateIngressStateTransition_quiet fun state hstate => ?_
    refine queueOr_quiet rfl ?_ (fun _ => ?_) (processIngressEOM_calm _).quiet
    · simpa [isIngressComplete] using transit_open (by simp) hstate
    · cases hs : t.ingressState <;> rw [hs] at hstate <;> cases hstate <;> rfl

lemma pauseIngress_keeps :
    Keeps t t.pauseIngress ∧ t.pauseIngress.deferredIngress=t.deferredIngress := by
  unfold pauseIngress
  split_ifs
  · exact ⟨.refl t,rfl⟩
  · refine ⟨.of_eq ?_ rfl rfl rfl,rfl⟩
    exact SameBooks.trans (u := {t with ingressPaused := true}) ⟨rfl,rfl,rfl,rfl,rfl,rfl,rfl,rfl⟩
      (sameBooks_emit _ rfl rfl)

lemma onIngressTimeout_quiet : Quiet t t.onIngressTimeout := by
  obtain ⟨hkeeps,hdeferred⟩ := t.pauseIngress_keeps
  refine hkeeps.then_quiet hdeferred ?_
  unfold onIngressTimeout
  dsimp only
  split_ifs
  · exact onError_quiet _ _
  · exact onError_quiet _ _
  · exact .inl ⟨⟨rfl,rfl,rfl,rfl,rfl,rfl,rfl,rfl⟩,rfl,rfl⟩

lemma maybeSendDeferredNoError_quiet : Quiet t t.maybeSendDeferredNoError := by
  unfold maybeSendDeferredNoError
  split_ifs
  · refine Keeps.then_quiet (u := {t with deferredNoError := false}) ?_ rfl (.inl (sendAbortImpl_completes _ _))
    exact .of_eq ⟨rfl,rfl,rfl,rfl,rfl,rfl,rfl,rfl⟩ rfl rfl rfl
  · exact .inr (.refl t)

end

end Quiet

/-- Bytes that the window still counts although their event is gone. -/
def lost (t : HTTPTransaction) : ℤ := t.recvWindow.outstanding-t.deferredBytes

/-- What the peer cannot know yet to be free: with the sent updates it makes up for the received bytes. -/
def ledger (t : HTTPTransaction) : ℤ :=
  t.recvToAck+t.granted+t.deferredBytes+t.processing-t.recvWindow.capacity

/-- From `t` to `t'` a body of `length` bytes is taken in, which the ledger notes as `ack` bytes. -/
structure Moves (t t' : HTTPTransaction) (length : ℕ) (ack : ℤ) : Prop where
  handler : t'.handler=t.handler
  deleting : t'.deleting=t.deleting
  notified : t'.recvWindow.outstanding+t'.notified = t.recvWindow.outstanding+t.notified+length
  seen : t.isIngressEOMSeen=true → t'.isIngressEOMSeen=true
  ledger : t'.isIngressEOMSeen=false → t.handler=true → t'.ledger = t.ledger+ack

structure Effect (t t' : HTTPTransaction) (length : ℕ) (ack : ℤ) : Prop extends Moves t t' length ack where
  wellFormed : t'.WellFormed
  lost : t'.lost=t.lost

section Effect
variable {t t' u : HTTPTransaction}
variable {length : ℕ}

lemma Moves.live {ack : ℤ} (h : Moves t t' length ack) (hlive : t'.isIngressEOMSeen=false) :
    t.isIngressEOMSeen = false := by
  by_contra hseen
  simp [h.seen (by simpa using hseen)] at hlive

lemma Moves.trans {l m : ℕ} {a b : ℤ} (h : Moves t u l a) (g : Moves u t' m b) : Moves t t' (l+m) (a+b) where
  handler := g.handler.trans h.handler
  deleting := g.deleting.trans h.deleting
  notified := by
    have := h.notified
    have := g.notified
    push_cast
    omega
  seen := g.seen ∘ h.seen
  ledger hlive hhandler := by
    rw [g.ledger hlive (h.handler.trans hhandler),h.ledger (g.live hlive) hhandler]
    ring

lemma Moves.of_eq {l m : ℕ} {a b : ℤ} (h : Moves t t' l a) (hl : l=m) (ha : a=b) : Moves t t' m b :=
  hl ▸ ha ▸ h

lemma Quiet.moves (h : Quiet t t') : Moves t t' 0 0 where
  handler := h.sameBooks.handler
  deleting := h.sameBooks.deleting
  notified := by rw [h.sameBooks.recvWindow,h.sameBooks.notified]; simp
  seen hseen := by
    rcases h with h | h
    · exact isIngressEOMSeen_of_complete h.complete
    · exact h.seen hseen
  ledger hlive _ := by
    have hk := h.keeps_of_live hlive
    simp only [ledger,processing,hk.recvToAck,hk.granted,hk.deferredBytes,hk.stack,hk.recvWindow,add_zero]

lemma Completes.lost (h : Completes t t') (hzero : t.deferredBytes=0) : t'.lost=t.lost := by
  have hgone : t'.deferredBytes=0 := by simp [deferredBytes,h.events]
  rw [HTTPTransaction.lost,HTTPTransaction.lost,hgone,hzero,h.recvWindow]

lemma Keeps.lost (h : Keeps t t') : t'.lost=t.lost := by
  rw [HTTPTransaction.lost,HTTPTransaction.lost,h.deferredBytes,h.recvWindow]

lemma Keeps.effect (h : Keeps t t') (ht : WellFormed t) : Effect t t' 0 0 where
  toMoves := Quiet.moves (.inr h)
  wellFormed := h.wellFormed ht
  lost := h.lost

lemma Effect.refl (ht : WellFormed t) : Effect t t 0 0 := (Keeps.refl t).effect ht

structure SameStore (t t' : HTTPTransaction) : Prop where
  recvWindow : t'.recvWindow=t.recvWindow
  deferredIngress : t'.deferredIngress=t.deferredIngress
  ingressState : t'.ingressState=t.ingressState
  aborted : t'.aborted=t.aborted

structure SameShape (t t' : HTTPTransaction) : Prop extends SameStore t t' where
  stack : t'.stack=t.stack
  inResume : t'.inResume=t.inResume

namespace SameStore

section
variable (h : SameStore t t')
include h

lemma events : t'.events=t.events := by
  simp only [HTTPTransaction.events,h.deferredIngress]

lemma complete : t'.isIngressComplete=t.isIngressComplete := by
  simp only [isIngressComplete,h.ingressState]

lemma seen : t'.isIngressEOMSeen=t.isIngressEOMSeen := by
  simp only [isIngressEOMSeen,isIngressEOMQueued,isIngressComplete,h.ingressState]

lemma deferredBytes : t'.deferredBytes=t.deferredBytes := by
  simp only [HTTPTransaction.deferredBytes,h.events]

lemma lost : t'.lost=t.lost := by
  rw [HTTPTransaction.lost,HTTPTransaction.lost,h.deferredBytes,h.recvWindow]

lemma solid (ht : Solid t) : Solid t' where
  window := h.recvWindow ▸ ht.window
  held := by rw [h.deferredBytes,h.recvWindow]; exact ht.held
  exact := by rw [h.seen,h.deferredBytes,h.recvWindow]; exact ht.exact
  aborted := by rw [h.aborted,h.complete,h.deferredIngress]; exact ht.aborted
  ends := by rw [h.events]; exact ht.ends
  noEnd := by rw [h.seen,h.events]; exact ht.noEnd

lemma front (hfront : t.isIngressComplete=true ∧ t.deferredIngress=none ∨
    ∃ e es,t.events = e::es ∧ e.bodyLength=0) :
    t'.isIngressComplete = true ∧ t'.deferredIngress=none ∨ ∃ e es,t'.events = e::es ∧ e.bodyLength=0 := by
  rw [h.complete,h.deferredIngress,h.events]
  exact hfront

end

end SameStore

namespace SameShape

lemma wellFormed (h : SameShape t t') (ht : WellFormed t) : WellFormed t' where
  toSolid := h.solid ht.toSolid
  loops := by rw [h.stack,h.inResume]; exact ht.loops
  front hres := h.front (ht.front (h.inResume ▸ hres))

lemma moves (h : SameShape t t') (hhandler : t'.handler=t.handler) (hdeleting : t'.deleting=t.deleting)
    (hnotified : t'.notified=t.notified) {ack : ℤ} (hack : t'.recvToAck+t'.granted = t.recvToAck+t.granted+ack) : Moves t t' 0 ack where
  handler := hhandler
  deleting := hdeleting
  notified := by rw [h.recvWindow,hnotified]; simp
  seen hseen := h.seen.trans hseen
  ledger _ _ := by
    simp only [ledger,processing,h.deferredBytes,h.stack,h.recvWindow,hack]
    ring

end SameShape

lemma flushWindowUpdate_spec (t : HTTPTransaction) :
    SameShape t t.flushWindowUpdate ∧ Moves t t.flushWindowUpdate 0 0 := by
  unfold flushWindowUpdate
  split_ifs
  · have hshape : SameShape t ({t with recvToAck := 0}.emit (.sendWindowUpdate t.recvToAck)) :=
      ⟨⟨rfl,rfl,rfl,rfl⟩,rfl,rfl⟩
    refine ⟨hshape,hshape.moves rfl rfl ?_ ?_⟩
    · simp [notified,emit,processedBytes]
    · simp only [emit,granted,map_append,sum_append,map_cons,map_nil,sum_singleton,windowBytes]
      ring
  · exact ⟨⟨⟨rfl,rfl,rfl,rfl⟩,rfl,rfl⟩,Quiet.moves (.inr (.refl t))⟩

lemma flushWindowUpdate_effect (ht : WellFormed t) : Effect t t.flushWindowUpdate 0 0 :=
  ⟨t.flushWindowUpdate_spec.2,t.flushWindowUpdate_spec.1.wellFormed ht,t.flushWindowUpdate_spec.1.lost⟩

/-- By how much a sum is changed when it is stored in 32 bits. -/
def wrap (x : ℤ) : ℤ := int32 x-x

lemma wrap_eq_zero {x : ℤ} : wrap x = 0 ↔ -2^31 ≤ x ∧ x < 2^31 := by
  constructor
  · intro h
    have hle := Int.le_bmod (x := x) (m := 2^32) (by norm_num)
    have hlt := Int.bmod_lt (x := x) (m := 2^32) (by norm_num)
    have heq : x.bmod (2^32) = x := sub_eq_zero.mp h
    rw [heq] at hle hlt
    omega
  · exact fun h => sub_eq_zero.mpr (int32_eq h.1 h.2)

def Grows (t : HTTPTransaction) (capacity : UInt32) : Prop :=
  t.recvWindow.capacity ≤ capacity.toNat ∧ (capacity.toNat : ℤ) ≤ int32Max

instance (t : HTTPTransaction) (capacity : UInt32) : Decidable (t.Grows capacity) :=
  inferInstanceAs (Decidable (_ ∧ _))

lemma setReceiveWindow_effect (ht : WellFormed t) (capacity : UInt32) :
    Effect t (t.setReceiveWindow capacity) 0
      (if t.Grows capacity then wrap (t.recvToAck+(capacity.toNat-t.recvWindow.capacity)) else 0) := by
  have hnonneg := ht.window.nonneg
  have hle := ht.window.le
  have hmax := ht.window.max
  have hlt := capacity.toNat_lt
  have hstays : Effect t t 0 0 := .refl ht
  unfold setReceiveWindow
  dsimp only
  by_cases hgrow : t.recvWindow.capacity ≤ capacity.toNat
  · by_cases hfits : (capacity.toNat : ℤ) ≤ int32Max
    · have hdelta : int32 (capacity.toNat-t.recvWindow.capacity) = capacity.toNat-t.recvWindow.capacity := by
        unfold int32Max at *
        exact int32_eq (by omega) (by omega)
      rw [if_neg (by rw [hdelta]; omega),ht.window.setCapacity_eq hgrow,if_pos hfits,hdelta,
        if_pos (show t.Grows capacity from ⟨hgrow,hfits⟩)]
      have hwell : WellFormed {t with
          recvWindow := {t.recvWindow with capacity := capacity.toNat}
          recvToAck := int32 (t.recvToAck+(capacity.toNat-t.recvWindow.capacity))} :=
        {ht with window := ⟨hnonneg,hle.trans hgrow,hfits⟩}
      have hflush := flushWindowUpdate_effect hwell
      refine ⟨⟨hflush.handler,hflush.deleting,hflush.notified,hflush.seen,fun hlive hhandler => ?_⟩,hflush.wellFormed,
        (flushWindowUpdate_spec _).1.lost⟩
      rw [hflush.ledger hlive hhandler]
      simp only [ledger,granted,deferredBytes,events,processing,wrap]
      ring
    · rw [if_neg (fun h : t.Grows capacity => hfits h.2)]
      rw [ht.window.setCapacity_eq hgrow,if_neg hfits]
      split_ifs <;> exact hstays
  · have hdelta : int32 (capacity.toNat-t.recvWindow.capacity) < 0 := by
      unfold int32Max at *
      rw [int32_eq (by omega) (by omega)]
      omega
    rw [if_pos hdelta,if_neg (fun h : t.Grows capacity => hgrow h.1)]
    exact hstays

lemma bodyProcessed_spec (t : HTTPTransaction) (length : ℕ) (draining : Bool) :
    SameShape t (t.bodyProcessed length draining) ∧
      Moves t (t.bodyProcessed length draining) 0 (int32 (t.recvToAck+length)-t.recvToAck) := by
  unfold bodyProcessed
  dsimp only
  by_cases hseen : t.isIngressEOMSeen=true
  · rw [if_pos hseen]
    exact ⟨⟨⟨rfl,rfl,rfl,rfl⟩,rfl,rfl⟩,rfl,rfl,by simp,id,fun hlive => by simp [hseen] at hlive⟩
  · rw [if_neg hseen]
    have hshape : SameShape t {t with recvToAck := int32 (t.recvToAck+length)} :=
      ⟨⟨rfl,rfl,rfl,rfl⟩,rfl,rfl⟩
    have hcount : Moves t _ 0 (int32 (t.recvToAck+length)-t.recvToAck) :=
      hshape.moves rfl rfl rfl (by simp only [granted]; ring)
    generalize (if draining=true then (1 : ℤ) else 2) = divisor
    split_ifs
    · obtain ⟨hflush,hmoves⟩ := flushWindowUpdate_spec {t with recvToAck := int32 (t.recvToAck+length)}
      refine ⟨⟨⟨hflush.1.1,hflush.1.2,hflush.1.3,hflush.1.4⟩,hflush.2,hflush.3⟩,?_⟩
      simpa using hcount.trans hmoves
    · exact ⟨hshape,hcount⟩

lemma free_of_held {w : Window} (hw : w.Regular) {n : ℕ} (hn : (n : ℤ) ≤ w.outstanding) :
    w.free n = some {w with outstanding := w.outstanding-n} := by
  have hle := hw.le
  have hmax := hw.max
  rw [Window.free_eq hw.nonneg (hle.trans hmax) (hn.trans (hle.trans hmax)),if_neg (by omega)]

/-- The window counts `length` more bytes, and the counter of unacknowledged bytes is `ack`. -/
def charged (t : HTTPTransaction) (length : ℕ) (ack : ℤ) : HTTPTransaction :=
  {t with
    recvWindow := {t.recvWindow with outstanding := t.recvWindow.outstanding+length}
    recvToAck := ack}

lemma Solid.not_aborted (ht : Solid t) (hlive : t.isIngressEOMSeen=false) : t.aborted=false := by
  by_contra h
  simp [isIngressEOMSeen_of_complete (ht.aborted (by simpa using h)).1] at hlive

lemma defer_body_effect (ht : WellFormed t) (hlive : t.isIngressEOMSeen=false)
    (hfits : t.recvWindow.outstanding+length ≤ t.recvWindow.capacity) (ack : ℤ) :
    Effect t ((t.charged length ack).defer (.body length)) length (ack-t.recvToAck+length) := by
  have hexact := ht.exact hlive
  have hevents : ((t.charged length ack).defer (.body length)).events = t.events++[.body length] := rfl
  have hbytes : ((t.charged length ack).defer (.body length)).deferredBytes = t.deferredBytes+length := by
    simp [deferredBytes,hevents,HTTPEvent.bodyLength]
  have hnonneg := ht.window.nonneg
  refine ⟨⟨rfl,rfl,?_,id,fun _ _ => ?_⟩,⟨⟨⟨?_,hfits,ht.window.max⟩,?_,fun _ => ?_,?_,?_,?_⟩,ht.loops,?_⟩,?_⟩
  · simp only [charged,defer,notified]
    ring
  · simp only [ledger,hbytes]
    simp only [charged,defer,granted,processing]
    push_cast
    ring
  · simp only [charged,defer]
    omega
  · rw [hbytes]
    simp only [charged,defer]
    omega
  · rw [hbytes]
    simp only [charged,defer]
    omega
  · intro haborted
    exact absurd haborted (by simp [charged,defer,ht.not_aborted hlive])
  · rw [hevents]
    exact ht.ends.snoc (.inl (ht.noEnd hlive))
  · intro _ e he
    rw [hevents] at he
    rcases mem_append.mp he with he | he
    · exact ht.noEnd hlive e he
    · obtain rfl := mem_singleton.mp he
      rfl
  · intro hres
    rcases ht.front hres with ⟨hcomplete,-⟩ | ⟨e,es,hes,hzero⟩
    · simp [isIngressEOMSeen_of_complete hcomplete] at hlive
    · exact .inr ⟨e,es++[.body length],by rw [hevents,hes]; rfl,hzero⟩
  · simp only [lost,hbytes]
    simp only [charged,defer]
    push_cast
    ring

lemma isIngressComplete_of_live (hlive : t.isIngressEOMSeen=false) : t.isIngressComplete=false := by
  by_contra h
  simp [isIngressEOMSeen_of_complete (by simpa using h)] at hlive

structure Handed (t u : HTTPTransaction) (length : ℕ) : Prop extends SameStore t u where
  recvToAck : u.recvToAck=t.recvToAck
  inResume : u.inResume=t.inResume
  handler : u.handler=t.handler
  deleting : u.deleting=t.deleting
  notified : u.notified = t.notified+length
  granted : u.granted=t.granted

lemma handOver_spec (t : HTTPTransaction) (length : ℕ) (f : Frame) (haborted : t.aborted=false) :
    Handed t (t.handOver length f).1 length ∧ (t.handOver length f).2 = (t.handler && !t.isIngressComplete) ∧
      (t.handOver length f).1.stack = if (t.handOver length f).2 then f::t.stack else t.stack := by
  have hnotified : (t.emit (.notifyIngressBodyProcessed length)).notified = t.notified+length := by
    simp [notified,emit,processedBytes]
  have hgranted : (t.emit (.notifyIngressBodyProcessed length)).granted = t.granted := by
    simp [granted,emit,windowBytes]
  unfold handOver processIngressBody
  simp only [haborted,Bool.false_eq_true,if_false]
  cases t.handler && !t.isIngressComplete <;>
    exact ⟨⟨⟨rfl,rfl,rfl,rfl⟩,rfl,rfl,rfl,rfl,hnotified,hgranted⟩,rfl,rfl⟩

lemma deliverBody_effect (ht : WellFormed t) (hlive : t.isIngressEOMSeen=false)
    (hfits : t.recvWindow.outstanding+length ≤ t.recvWindow.capacity) (ack : ℤ) :
    Effect t ((t.charged length ack).deliverBody length) length (ack-t.recvToAck+length) := by
  have hnonneg := ht.window.nonneg
  have hregular : (t.charged length ack).recvWindow.Regular :=
    ⟨by simp only [charged]; omega,hfits,ht.window.max⟩
  have hfree : (t.charged length ack).recvWindow.free length = some t.recvWindow := by
    rw [free_of_held hregular (by simp only [charged]; omega)]
    simp [charged]
  have hdelivered : (t.charged length ack).deliverBody length =
      ({t with recvToAck := ack}.handOver length (.body length)).1 := by
    unfold deliverBody
    rw [hfree]
    rfl
  have hopen := isIngressComplete_of_live hlive
  have hshape : SameShape t {t with recvToAck := ack} := ⟨⟨rfl,rfl,rfl,rfl⟩,rfl,rfl⟩
  obtain ⟨h,hcall,hstack⟩ := handOver_spec {t with recvToAck := ack} length (.body length)
    (ht.not_aborted hlive)
  rw [hdelivered]
  generalize ({t with recvToAck := ack}.handOver length (.body length)) = r at h hcall hstack
  have hloops : r.1.stack.countP Frame.isLoop = t.stack.countP Frame.isLoop := by
    rw [hstack]
    split_ifs
    · exact countP_cons_of_neg (by simp [Frame.isLoop])
    · rfl
  refine ⟨⟨h.handler,h.deleting,?_,fun hseen => ?_,fun _ hhandler => ?_⟩,?_,h.lost⟩
  · rw [h.recvWindow,h.notified]
    push_cast
    exact (add_assoc _ _ _).symm
  · simp [hlive] at hseen
  · have hcalled : r.2=true := by rw [hcall]; simp [hhandler,isIngressComplete] at hopen ⊢; exact hopen
    simp only [ledger,processing,hstack,hcalled,if_true,map_cons,sum_cons,
      h.recvToAck,h.granted,h.deferredBytes,h.recvWindow,Frame.bodyLength]
    simp only [granted,deferredBytes,events]
    push_cast
    ring
  · refine ⟨h.solid (hshape.solid ht.toSolid),?_,fun hres => h.front (hshape.front (ht.front ?_))⟩
    · rw [hloops,h.inResume]
      exact ht.loops
    · exact h.inResume ▸ hres

structure Accepts (t : HTTPTransaction) (length : ℕ) (padding : UInt16) : Prop where
  live : t.isIngressEOMSeen=false
  pos : 0<length
  allowed : (t.ingressState.transit .onBody).isSome = true
  contentLength : ∀ remaining,t.expectedIngressContentLengthRemaining = some remaining → length ≤ remaining
  fits : t.recvWindow.outstanding+(length+padding.toNat : ℕ) ≤ t.recvWindow.capacity

lemma receiveBody_effect (ht : WellFormed t) (hlive : t.isIngressEOMSeen=false) (hlength : length < 2^24)
    {padding : UInt16}
    (hfits : t.recvWindow.outstanding+(length+padding.toNat : ℕ) ≤ t.recvWindow.capacity) :
    Effect t (t.receiveBody length padding) length
      (int32 (t.recvToAck+padding.toNat)-t.recvToAck+length) := by
  have hpadding := padding.toNat_lt
  have hnonneg := ht.window.nonneg
  have hmod : (length+padding.toNat) % 2^32 = length+padding.toNat := Nat.mod_eq_of_lt (by omega)
  have hregular : (⟨t.recvWindow.capacity,t.recvWindow.outstanding+(length+padding.toNat : ℕ)⟩ : Window).Regular :=
    ⟨by simp only; omega,hfits,ht.window.max⟩
  have hpaddingFree := free_of_held hregular (n := padding.toNat) (by simp only; omega)
  have hout : t.recvWindow.outstanding+(length+padding.toNat : ℕ)-padding.toNat =
      t.recvWindow.outstanding+length := by push_cast; ring
  have hreserve : t.recvWindow.reserve (length+padding.toNat) =
      some ⟨t.recvWindow.capacity,t.recvWindow.outstanding+(length+padding.toNat : ℕ)⟩ := by
    rw [ht.window.reserve_eq,if_pos (by omega)]
  unfold receiveBody
  simp only [hmod,hreserve,hpaddingFree,hout]
  unfold queueOr
  split_ifs
  · exact defer_body_effect ht hlive (by omega) _
  · exact deliverBody_effect ht hlive (by omega) _

lemma Effect.of_keeps {ack : ℤ} (h : Keeps t u) (g : Effect u t' length ack) : Effect t t' length ack where
  toMoves := by simpa using (Quiet.moves (.inr h)).trans g.toMoves
  wellFormed := g.wellFormed
  lost := g.lost.trans h.lost

lemma transit_onBody_live {s s' : IngressState} (h : s.transit .onBody = some s') :
    s'≠.eomQueued ∧ s'≠.receivingDone := by
  cases s <;> cases h <;> simp

lemma receiveBody_rejected (ht : WellFormed t) (hlength : length < 2^24) {padding : UInt16}
    (hfits : ¬t.recvWindow.outstanding+(length+padding.toNat : ℕ) ≤ t.recvWindow.capacity) :
    Quiet t (t.receiveBody length padding) ∧ (t.receiveBody length padding).isIngressEOMSeen = true := by
  have hpadding := padding.toNat_lt
  have hmod : (length+padding.toNat) % 2^32 = length+padding.toNat := Nat.mod_eq_of_lt (by omega)
  have hreserve : t.recvWindow.reserve (length+padding.toNat) = none := by
    rw [ht.window.reserve_eq,if_neg (by omega)]
  unfold receiveBody
  simp only [hmod,hreserve]
  exact ⟨onError_quiet t _,onError_seen t (by simp)⟩

lemma updateContentLengthRemaining_cases (t : HTTPTransaction) (length : ℕ) :
    (∃ remaining,t.updateContentLengthRemaining length =
        some {t with expectedIngressContentLengthRemaining := remaining} ∧
      ∀ r,t.expectedIngressContentLengthRemaining = some r → length ≤ r) ∨
    (t.updateContentLengthRemaining length = none ∧
      ∃ r,t.expectedIngressContentLengthRemaining = some r ∧ ¬length ≤ r) := by
  unfold updateContentLengthRemaining
  cases hexpected : t.expectedIngressContentLengthRemaining with
  | none =>
    exact .inl ⟨t.expectedIngressContentLengthRemaining,rfl,by simp⟩
  | some r =>
    by_cases hle : length ≤ r
    · exact .inl ⟨some (r-length),by simp [hle],by simpa using hle⟩
    · exact .inr ⟨by simp [hle],r,rfl,hle⟩

theorem onIngressBody_cases (ht : WellFormed t) (length : Fin (2^24)) (padding : UInt16) :
    (t.isIngressEOMSeen=false ∧ length.val=0 ∧ t.onIngressBody length padding = t) ∨
    (t.Accepts length padding ∧ Effect t (t.onIngressBody length padding) length
      (int32 (t.recvToAck+padding.toNat)-t.recvToAck+length)) ∨
    (¬t.Accepts length padding ∧ Quiet t (t.onIngressBody length padding) ∧
      (t.handler=true → (t.onIngressBody length padding).isIngressEOMSeen = true)) := by
  unfold onIngressBody
  by_cases hseen : t.isIngressEOMSeen=true
  · rw [if_pos hseen]
    exact .inr (.inr ⟨fun h => by simp [h.live] at hseen,onError_quiet t _,fun _ => onError_seen t (by simp)⟩)
  have hlive : t.isIngressEOMSeen=false := by simpa using hseen
  rw [if_neg hseen]
  by_cases hzero : length.val=0
  · exact .inl ⟨hlive,hzero,if_pos hzero⟩
  refine .inr ?_
  rw [if_neg hzero]
  unfold validateIngressStateTransition
  cases hstate : t.ingressState.transit .onBody with
  | none =>
    exact .inr ⟨fun h => by simpa [hstate] using h.allowed,onError_quiet t _,
      fun _ => onError_seen t (by simp [stateMachineError])⟩
  | some state =>
    have hkeeps := keeps_transit hstate
    obtain ⟨hqueued,hdone⟩ := transit_onBody_live hstate
    rcases updateContentLengthRemaining_cases {t with ingressState := state} length with
      ⟨remaining,heq,hlength⟩ | ⟨heq,r,hexpected,hlong⟩
    · have hu : Keeps t {t with ingressState := state, expectedIngressContentLengthRemaining := remaining} :=
        ⟨⟨rfl,rfl,rfl,rfl,rfl,rfl,rfl,rfl⟩,rfl,hkeeps.seen,hkeeps.complete,.inl rfl⟩
      have hlive' : isIngressEOMSeen {t with
          ingressState := state, expectedIngressContentLengthRemaining := remaining} = false := by
        simp [isIngressEOMSeen,isIngressEOMQueued,isIngressComplete,hqueued,hdone]
      simp only [heq]
      by_cases hfits : t.recvWindow.outstanding+(length+padding.toNat : ℕ) ≤ t.recvWindow.capacity
      · refine .inl ⟨⟨hlive,Nat.pos_of_ne_zero hzero,by simp [hstate],hlength,hfits⟩,?_⟩
        exact .of_keeps hu (receiveBody_effect (hu.wellFormed ht) hlive' length.isLt hfits)
      · obtain ⟨hquiet,hend⟩ := receiveBody_rejected (hu.wellFormed ht) length.isLt hfits
        exact .inr ⟨fun h => hfits h.fits,hu.then_quiet rfl hquiet,fun _ => hend⟩
    · simp only [heq]
      refine .inr ⟨fun h => hlong (h.contentLength r hexpected),?_,fun hhandler => ?_⟩
      · split_ifs
        exacts [hkeeps.then_quiet rfl (onError_quiet _ _),.inr hkeeps]
      · rw [if_pos hhandler]
        exact onError_seen _ (by simp [contentLengthMismatch])

structure Looping (t : HTTPTransaction) : Prop extends Solid t where
  inResume : t.inResume=true
  loops : t.stack.countP Frame.isLoop = 0

lemma Looping.leave (h : Looping t) : WellFormed {t with inResume := false} where
  toSolid := SameStore.solid (t := t) ⟨rfl,rfl,rfl,rfl⟩ h.toSolid
  loops := h.loops
  front hres := by simp at hres

def FrontDone (t : HTTPTransaction) (es : List HTTPEvent) : Prop :=
  t.isIngressComplete = true ∧ t.deferredIngress=none ∨ ∃ e,t.deferredIngress = some (e::es) ∧ e.bodyLength=0

lemma FrontDone.popDeferred (h : FrontDone t es) (ht : Solid t) :
    Solid t.popDeferred ∧ Moves t t.popDeferred 0 0 ∧ t.popDeferred.lost=t.lost ∧
      (t.popDeferred.deferredIngress=none ∨ t.popDeferred.deferredIngress = some es) := by
  rcases h with ⟨-,hnone⟩ | ⟨e,hes,hzero⟩
  · have hpop : t.popDeferred.deferredIngress=none := by simp [HTTPTransaction.popDeferred,hnone]
    have hstore : SameShape t t.popDeferred := ⟨⟨rfl,hpop.trans hnone.symm,rfl,rfl⟩,rfl,rfl⟩
    exact ⟨hstore.solid ht,hstore.moves rfl rfl rfl (by simp [granted,HTTPTransaction.popDeferred]),hstore.lost,
      .inl hpop⟩
  · have hevents : t.events = e::es := by simp [events,hes]
    have hpop : t.popDeferred.deferredIngress = some es := by simp [HTTPTransaction.popDeferred,hes]
    have htail : t.popDeferred.events=es := by simp [events,hpop]
    have hbytes : t.popDeferred.deferredBytes=t.deferredBytes := by
      simp [deferredBytes,htail,hevents,hzero]
    refine ⟨⟨ht.window,?_,?_,fun haborted => ?_,?_,fun hlive f hf => ?_⟩,⟨rfl,rfl,?_,id,fun _ _ => ?_⟩,?_,.inr hpop⟩
    · rw [hbytes]; exact ht.held
    · rw [hbytes]; exact ht.exact
    · exact absurd (ht.aborted haborted).2 (by simp [hes])
    · rw [htail]; exact (hevents ▸ ht.ends).tail
    · exact ht.noEnd hlive f (by rw [hevents]; exact mem_cons_of_mem _ (htail ▸ hf))
    · simp [HTTPTransaction.popDeferred,notified]
    · simp only [HTTPTransaction.ledger,hbytes,add_zero]
      rfl
    · simp only [lost,hbytes]
      rfl

/-- The result of one turn of the loop: a callback runs, or the next event is due. -/
structure Turned (t : HTTPTransaction) (r : Processed) (es : List HTTPEvent) : Prop where
  moves : Moves t r.1 0 0
  lost : r.1.lost=t.lost
  running : r.2=true → WellFormed r.1
  waiting : r.2=false → Looping r.1 ∧ FrontDone r.1 es

lemma FrontDone.front (h : FrontDone t es) :
    t.isIngressComplete = true ∧ t.deferredIngress=none ∨ ∃ e es,t.events = e::es ∧ e.bodyLength=0 := by
  refine h.imp_right fun ⟨e,hes,hzero⟩ => ⟨e,es,by simp [events,hes],hzero⟩

lemma Looping.push {f : Frame} (h : Looping t) (hf : f.isLoop=true) (hfront : FrontDone t es) :
    WellFormed (t.push f) where
  toSolid := SameStore.solid (t := t) ⟨rfl,rfl,rfl,rfl⟩ h.toSolid
  loops := by
    have hcount := countP_cons_of_pos (p := Frame.isLoop) (l := t.stack) hf
    simp only [HTTPTransaction.push,hcount,h.loops,h.inResume,if_true]
  front _ := hfront.front

lemma passOn_turned {r : Processed} (hmoves : Moves t r.1 0 0) (hlost : r.1.lost=t.lost)
    (hloop : Looping r.1) (hfront : FrontDone r.1 es) : Turned t (passOn r) es := by
  unfold passOn
  split_ifs with hcall
  · refine ⟨⟨hmoves.handler,hmoves.deleting,hmoves.notified,hmoves.seen,fun hlive hhandler => ?_⟩,hlost,
      fun _ => hloop.push rfl hfront,by simp⟩
    rw [← hmoves.ledger hlive hhandler]
    simp [ledger,processing,push,Frame.bodyLength,granted,deferredBytes,events]
  · exact ⟨hmoves,hlost,fun h => absurd h hcall,fun _ => ⟨hloop,hfront⟩⟩

lemma Calm.turned {r : Processed} (h : Calm t r.1) (ht : Looping t) (hes : t.deferredIngress = some (e::es))
    (hend : e.isEnd=true) : Turned t (passOn r) es := by
  have hevents : t.events = e::es := by simp [events,hes]
  have hzero : e.bodyLength=0 := by cases e <;> simp_all [HTTPEvent.isEnd,HTTPEvent.bodyLength]
  have hnone : t.deferredBytes=0 := by
    have hrest := (hevents ▸ ht.ends).1 hend
    simp only [deferredBytes,hevents,map_cons,sum_cons,hzero,zero_add]
    exact sum_eq_zero (by simpa using hrest)
  have hbooks := h.quiet.sameBooks
  refine passOn_turned h.quiet.moves ?_ ⟨?_,hbooks.inResume.trans ht.inResume,by rw [hbooks.stack]; exact ht.loops⟩ ?_
  · rcases h with h | ⟨h,-⟩
    exacts [h.lost hnone,h.lost]
  · rcases h with h | ⟨h,-⟩
    exacts [h.solid ht.toSolid,h.solid ht.toSolid]
  · rcases h with h | ⟨-,hsame⟩
    exacts [.inl ⟨h.complete,h.deferredIngress⟩,.inr ⟨e,hsame.trans hes,hzero⟩]

lemma processDeferred_body (ht : Looping t) (hes : t.deferredIngress = some (.body length::es)) :
    Turned t (t.processDeferred (.body length)) es := by
  have hevents : t.events = .body length::es := by simp [events,hes]
  have haborted : t.aborted=false := by
    by_contra h
    exact absurd (ht.aborted (by simpa using h)).2 (by simp [hes])
  -- what is handed over: the event keeps its place, its bytes and their part of the window are gone
  let u : HTTPTransaction := {t.takeBody with
    recvWindow := {t.recvWindow with outstanding := t.recvWindow.outstanding-length}}
  have hues : u.deferredIngress = some (.body 0::es) := by simp [u,takeBody,hes]
  have huevents : u.events = .body 0::es := by simp [events,hues]
  have hbytes : t.deferredBytes = length+u.deferredBytes := by
    simp [deferredBytes,hevents,huevents,HTTPEvent.bodyLength]
  have hheld := ht.held
  have hturn : t.processDeferred (.body length) = u.handOver length (.deferredBody length) := by
    have hfree : t.takeBody.recvWindow.free length = some u.recvWindow := free_of_held ht.window (by omega)
    simp only [processDeferred,hfree,u]
  have hloop : Looping u := {
    window := ⟨by simp only [u]; omega,(sub_le_self _ (Int.natCast_nonneg _)).trans ht.window.le,ht.window.max⟩
    held := by simp only [u] at hbytes ⊢; omega
    exact := fun hlive => by
      have := ht.exact hlive
      simp only [u] at hbytes ⊢
      omega
    aborted := fun h => absurd h (by simp [u,takeBody,haborted])
    ends := by
      rw [huevents]
      exact ⟨by simp [HTTPEvent.isEnd],(hevents ▸ ht.ends).tail⟩
    noEnd := fun hlive f hf => by
      rw [huevents] at hf
      rcases mem_cons.mp hf with rfl | hf
      · rfl
      · exact ht.noEnd hlive f (by rw [hevents]; exact mem_cons_of_mem _ hf)
    inResume := ht.inResume
    loops := ht.loops}
  obtain ⟨h,hcall,hpushed⟩ := handOver_spec u length (.deferredBody length) haborted
  have hfront : FrontDone (u.handOver length (.deferredBody length)).1 es :=
    .inr ⟨.body 0,h.deferredIngress.trans hues,rfl⟩
  rw [hturn]
  generalize u.handOver length (.deferredBody length) = r at h hcall hpushed hfront
  refine ⟨⟨h.handler,h.deleting,?_,h.seen.trans,fun hlive hhand => ?_⟩,?_,fun hrun => ?_,fun hwait => ?_⟩
  · rw [h.recvWindow,h.notified]
    simp only [u,takeBody,notified]
    push_cast
    ring
  · have hopen := isIngressComplete_of_live (h.seen ▸ hlive)
    have hrun : r.2=true := by rw [hcall,hopen]; simp [u,takeBody,hhand]
    simp only [ledger,processing,hpushed,hrun,if_true,map_cons,sum_cons,h.recvToAck,
      h.granted,h.deferredBytes,h.recvWindow,hbytes,Frame.bodyLength]
    simp only [u,takeBody,granted]
    push_cast
    ring
  · rw [h.lost,lost,lost,hbytes]
    simp only [u]
    push_cast
    ring
  · refine ⟨h.solid hloop.toSolid,?_,fun _ => hfront.front⟩
    rw [hpushed,hrun,if_pos rfl,countP_cons_of_pos rfl,hloop.loops,h.inResume,hloop.inResume]
    rfl
  · refine ⟨⟨h.solid hloop.toSolid,h.inResume.trans hloop.inResume,?_⟩,hfront⟩
    rw [hpushed,hwait]
    exact hloop.loops

lemma processDeferred_turned (ht : Looping t) (hes : t.deferredIngress = some (e::es)) :
    Turned t (t.processDeferred e) es := by
  have hplain : e.bodyLength=0 → Turned t (passOn t.handled) es := fun hzero =>
    passOn_turned (Quiet.moves (.inr (.refl t))) rfl ht (.inr ⟨e,hes,hzero⟩)
  cases e with
  | body length => exact processDeferred_body ht hes
  | messageComplete => exact (processIngressEOM_calm t).turned ht hes rfl
  | error error => exact (processIngressError_calm t error).turned ht hes rfl
  | headersComplete => exact hplain rfl
  | chunkHeader => exact hplain rfl
  | chunkComplete => exact hplain rfl
  | trailersComplete => exact hplain rfl
  | upgrade => exact hplain rfl

theorem resumeLoop_spec (es : List HTTPEvent) (ht : Looping t)
    (hes : t.deferredIngress=none ∨ t.deferredIngress = some es) :
    Effect t (resumeLoop es t) 0 0 := by
  have hleave {u : HTTPTransaction} (hu : Looping u) : Effect u {u with inResume := false} 0 0 :=
    ⟨⟨rfl,rfl,by simp [notified],id,fun _ _ => by
      simp [ledger,granted,deferredBytes,events,processing]⟩,hu.leave,rfl⟩
  induction es generalizing t with
  | nil => exact hleave ht
  | cons e es ih =>
    rw [resumeLoop]
    by_cases hstop : (t.ingressPaused || t.deferredIngress.isNone) = true
    · rw [if_pos hstop]
      exact hleave ht
    · rw [if_neg hstop]
      have hsome : t.deferredIngress = some (e::es) := by
        rcases hes with hnone | hsome
        · simp [hnone] at hstop
        · exact hsome
      have hturn := processDeferred_turned ht hsome
      generalize t.processDeferred e = r at hturn
      dsimp only
      split_ifs with hrun
      · exact ⟨hturn.moves,hturn.running hrun,hturn.lost⟩
      · obtain ⟨hloop,hfront⟩ := hturn.waiting (by simpa using hrun)
        obtain ⟨hsolid,hmoves,hlost,hrest⟩ := hfront.popDeferred hloop.toSolid
        have hnext := ih ⟨hsolid,hloop.inResume,hloop.loops⟩ hrest
        exact ⟨by simpa using (hturn.moves.trans hmoves).trans hnext.toMoves,hnext.wellFormed,
          hnext.lost.trans (hlost.trans hturn.lost)⟩

lemma deferredIngress_cases (t : HTTPTransaction) : t.deferredIngress=none ∨ t.deferredIngress = some t.events := by
  unfold events
  cases t.deferredIngress <;> simp

lemma SameShape.effect (h : SameShape t t') (hbooks : SameBooks t t') (ht : WellFormed t) : Effect t t' 0 0 where
  toMoves := h.moves hbooks.handler hbooks.deleting hbooks.notified (by rw [hbooks.recvToAck,hbooks.granted,add_zero])
  wellFormed := h.wellFormed ht
  lost := h.lost

lemma resumeIngress_effect (ht : WellFormed t) : Effect t t.resumeIngress 0 0 := by
  unfold resumeIngress
  split_ifs with hnothing
  · exact .refl ht
  dsimp only
  have hbooks : SameBooks t ({t with ingressPaused := false}.emit .resumeIngress) :=
    SameBooks.trans (u := {t with ingressPaused := false}) ⟨rfl,rfl,rfl,rfl,rfl,rfl,rfl,rfl⟩
      (sameBooks_emit _ rfl rfl)
  have hshape : SameShape t ({t with ingressPaused := false}.emit .resumeIngress) := ⟨⟨rfl,rfl,rfl,rfl⟩,rfl,rfl⟩
  have hresumed := hshape.effect hbooks ht
  generalize ({t with ingressPaused := false}.emit .resumeIngress) = u at hshape hresumed
  split_ifs with hres
  · exact hresumed
  · have hloop : Looping {u with inResume := true} := {
      toSolid := SameStore.solid (t := u) ⟨rfl,rfl,rfl,rfl⟩ hresumed.wellFormed.toSolid
      inResume := rfl
      loops := by simpa [hres] using hresumed.wellFormed.loops}
    have h := resumeLoop_spec u.events hloop u.deferredIngress_cases
    have hlooped : Moves u (resumeLoop u.events {u with inResume := true}) 0 0 :=
      ⟨h.handler,h.deleting,h.notified,h.seen,h.ledger⟩
    exact ⟨by simpa using hresumed.toMoves.trans hlooped,h.wellFormed,h.lost.trans hshape.lost⟩

/-- By how much the counter of unacknowledged bytes goes wrong when the callback returns. -/
def slip (t : HTTPTransaction) : Frame → ℤ
  | .body length | .deferredBody length => wrap (t.recvToAck+length)
  | .deferred => 0

lemma goOn_spec (h : Looping t) (hfront : FrontDone t es) :
    Effect t (resumeLoop t.popDeferred.events t.popDeferred) 0 0 := by
  obtain ⟨hsolid,hmoves,hlost,-⟩ := hfront.popDeferred h.toSolid
  have hnext := resumeLoop_spec t.popDeferred.events (t := t.popDeferred)
    ⟨hsolid,h.inResume,h.loops⟩ t.popDeferred.deferredIngress_cases
  exact ⟨by simpa using hmoves.trans hnext.toMoves,hnext.wellFormed,hnext.lost.trans hlost⟩

lemma WellFormed.pop {f : Frame} {stack : List Frame} (ht : WellFormed t) (hstack : t.stack = f::stack)
    (hf : f.isLoop=true) : Looping {t with stack} ∧ ∃ es,FrontDone {t with stack} es := by
  have hloops := ht.loops
  rw [hstack,countP_cons_of_pos hf] at hloops
  have hres : t.inResume=true := by
    by_contra h
    simp [h] at hloops
  refine ⟨⟨SameStore.solid (t := t) ⟨rfl,rfl,rfl,rfl⟩ ht.toSolid,hres,by simpa [hres] using hloops⟩,?_⟩
  rcases ht.front hres with hdone | ⟨e,es,hes,hzero⟩
  · exact ⟨[],.inl hdone⟩
  · refine ⟨es,.inr ⟨e,?_,hzero⟩⟩
    rcases t.deferredIngress_cases with hnone | hsome
    · simp [events,hnone] at hes
    · exact hsome.trans (congrArg some hes)

/-- A callback returns: what was in its hands is acknowledged, and a loop goes on. -/
theorem continueWith_effect {f : Frame} {stack : List Frame} (ht : WellFormed t) (hstack : t.stack = f::stack)
    (draining : Bool) : Effect t ({t with stack}.continueWith draining f) 0 (t.slip f) := by
  have hstore : SameStore t {t with stack} := ⟨rfl,rfl,rfl,rfl⟩
  -- the bytes leave the hands of the callback
  have hpop : Moves t {t with stack} 0 (-f.bodyLength) := by
    refine ⟨rfl,rfl,by simp [notified],id,fun _ _ => ?_⟩
    simp only [ledger,processing,hstack,map_cons,sum_cons,granted,deferredBytes,events]
    push_cast
    ring
  have hslip : ∀ length : ℕ,(-(length : ℤ))+(int32 (t.recvToAck+length)-t.recvToAck) =
      wrap (t.recvToAck+length) := fun length => by unfold wrap; ring
  cases f with
  | body length =>
    obtain ⟨hshape,hmoves⟩ := bodyProcessed_spec {t with stack} length draining
    have hwell : WellFormed {t with stack} := {
      toSolid := hstore.solid ht.toSolid
      loops := by rw [← ht.loops,hstack,countP_cons_of_neg (by simp [Frame.isLoop])]
      front := ht.front}
    exact ⟨(hpop.trans hmoves).of_eq rfl (hslip length),hshape.wellFormed hwell,hshape.lost.trans hstore.lost⟩
  | deferredBody length =>
    obtain ⟨hloop,es,hfront⟩ := ht.pop hstack rfl
    obtain ⟨hshape,hmoves⟩ := bodyProcessed_spec {t with stack} length draining
    have hdone : FrontDone (bodyProcessed {t with stack} length draining) es := by
      unfold FrontDone
      rw [hshape.complete,hshape.deferredIngress]
      exact hfront
    have hnext := goOn_spec ⟨hshape.solid hloop.toSolid,hshape.inResume.trans hloop.inResume,
      hshape.stack ▸ hloop.loops⟩ hdone
    exact ⟨((hpop.trans hmoves).trans hnext.toMoves).of_eq rfl (by rw [add_zero]; exact hslip length),
      hnext.wellFormed,hnext.lost.trans (hshape.lost.trans hstore.lost)⟩
  | deferred =>
    obtain ⟨hloop,es,hfront⟩ := ht.pop hstack rfl
    have hnext := goOn_spec hloop hfront
    exact ⟨(hpop.trans hnext.toMoves).of_eq rfl (by simp [Frame.bodyLength,slip]),hnext.wellFormed,
      hnext.lost.trans hstore.lost⟩

def clear (t : HTTPTransaction) : HTTPTransaction := {t with calls := []}

lemma clear_notified (t : HTTPTransaction) : t.clear.notified=0 := rfl

/-- What a step uses of the window: the body and the padding of a DATA frame. -/
def Step.used : Step → ℕ
  | .call (.onIngressBody length padding) => length+padding.toNat
  | _ => 0

def Call.isQuiet : Call → Bool
  | .onIngressBody .. | .resumeIngress | .setReceiveWindow _ | .flushWindowUpdate | .setHandler _
  | .onDelayedDestroy .. => false
  | _ => true

theorem call_quiet (t : HTTPTransaction) {c : Call} (hc : c.isQuiet=true) : Quiet t (t.call c) := by
  cases c with
  | onIngressHeadersComplete isFinal contentLength => exact onIngressHeadersComplete_quiet t _ _
  | onIngressChunkHeader | onIngressChunkComplete | onIngressTrailers | onIngressUpgrade =>
    exact onIngress_quiet t (by simp) rfl rfl
  | onIngressEOM => exact onIngressEOM_quiet t
  | onError error => exact onError_quiet t error
  | onIngressTimeout => exact onIngressTimeout_quiet t
  | pauseIngress => exact .inr t.pauseIngress_keeps.1
  | sendAbort code => exact sendAbort_quiet t code
  | egress state closed => exact .inr (.of_eq ⟨rfl,rfl,rfl,rfl,rfl,rfl,rfl,rfl⟩ rfl rfl rfl)
  | maybeSendDeferredNoError => exact maybeSendDeferredNoError_quiet t
  | onIngressBody | resumeIngress | setReceiveWindow | flushWindowUpdate | setHandler | onDelayedDestroy =>
    exact absurd hc Bool.false_ne_true

lemma onDelayedDestroy_cases (t : HTTPTransaction) (isEnqueued : Bool) (pendingByteEvents : ℕ) :
    t.onDelayedDestroy isEnqueued pendingByteEvents = t ∨
    t.isIngressComplete = true ∧ SameShape t (t.onDelayedDestroy isEnqueued pendingByteEvents) ∧
      (t.onDelayedDestroy isEnqueued pendingByteEvents).deleting = true ∧
      (t.onDelayedDestroy isEnqueued pendingByteEvents).notified = t.notified+t.recvWindow.outstanding.toNat := by
  unfold onDelayedDestroy
  split_ifs with hwait
  · exact .inl rfl
  · have hcomplete : t.isIngressComplete=true := by
      by_contra h
      exact hwait (by simp [h])
    refine .inr ⟨hcomplete,?_⟩
    dsimp only
    split_ifs with hheld
    · refine ⟨⟨⟨rfl,rfl,rfl,rfl⟩,rfl,rfl⟩,rfl,?_⟩
      simp [notified,emit,processedBytes]
    · refine ⟨⟨⟨rfl,rfl,rfl,rfl⟩,rfl,rfl⟩,rfl,?_⟩
      simp only [notified,emit,map_append,sum_append,map_cons,map_nil,sum_singleton,processedBytes]
      omega

lemma WellFormed.clear (ht : WellFormed t) : WellFormed t.clear :=
  SameShape.wellFormed (t := t) ⟨⟨rfl,rfl,rfl,rfl⟩,rfl,rfl⟩ ht

lemma clear_accepts {padding : UInt16} : t.clear.Accepts length padding ↔ t.Accepts length padding :=
  ⟨fun h => ⟨h.1,h.2,h.3,h.4,h.5⟩,fun h => ⟨h.1,h.2,h.3,h.4,h.5⟩⟩

lemma step_callbackReturns {f : Frame} {stack : List Frame} (ht : WellFormed t) (hstack : t.stack = f::stack)
    (draining : Bool) : Effect t.clear (t.step (.callbackReturns draining)) 0 (t.slip f) := by
  have hstep : t.step (.callbackReturns draining) = {t.clear with stack}.continueWith draining f := by
    simp [step,hstack,clear]
  rw [hstep]
  exact continueWith_effect ht.clear hstack draining

lemma step_nothing (ht : WellFormed t) (hstack : t.stack=[]) (draining : Bool) :
    Effect t.clear (t.step (.callbackReturns draining)) 0 0 := by
  have hstep : t.step (.callbackReturns draining) = t.clear := by simp [step,hstack,clear]
  rw [hstep]
  exact .refl ht.clear

end Effect

def new (isUpstream : Bool) (initial : Fin (2^31)) : HTTPTransaction := {isUpstream, recvWindow := ⟨initial,0⟩}

lemma wellFormed_new (isUpstream : Bool) (initial : Fin (2^31)) : WellFormed (new isUpstream initial) where
  window := ⟨le_rfl,Int.natCast_nonneg _,by simp only [new,int32Max]; omega⟩
  held := le_rfl
  exact _ := rfl
  aborted h := by simp [new] at h
  ends := trivial
  noEnd _ e he := by simp [new,events] at he
  loops := rfl
  front h := by simp [new] at h

end HTTPTransaction

end QuicWestwood.HTTP
