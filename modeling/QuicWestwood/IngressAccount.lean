import QuicWestwood.TransactionBooks

/-! A session adds the body and the padding of every DATA frame to `pendingReadSize` and subtracts what its
transactions report as processed. The transactions are those of an HTTP/2 session: each has its own flow
control, and reads are only paused for the limit on `pendingReadSize`. A failed CHECK ends the process. -/
namespace QuicWestwood.HTTP
open HTTP2 HTTPTransaction List

inductive SocketState
  | unpaused | paused | shutdown
  deriving DecidableEq

/-- A transaction, the body bytes delivered to it, and those it has reported as processed. -/
structure Stream where
  txn : HTTPTransaction
  received : ℕ := 0
  notified : ℕ := 0
  deriving DecidableEq

def HTTPTransaction.Step.received : Step → ℕ
  | .call (.onIngressBody length _) => length
  | _ => 0

namespace Stream

def advance (x : Stream) (e : Step) : Stream where
  txn := x.txn.step e
  received := x.received+e.received
  notified := x.notified+(x.txn.step e).notified

def deferred (x : Stream) : ℕ := if x.txn.deleting then 0 else x.txn.deferredBytes

def held (x : Stream) : ℤ := if x.txn.deleting then 0 else x.txn.recvWindow.outstanding

end Stream

structure HTTPSession where
  readBufLimit : ℕ
  pendingReadSize : ℕ := 0
  reads : SocketState := .unpaused
  /-- by number; a destroyed transaction keeps its place -/
  streams : List Stream := []
  /-- the sizes that the running calls of `onBodyImpl` have seen at their start -/
  oldSizes : List ℕ := []
  deriving DecidableEq

inductive Action
  | newTransaction (isUpstream : Bool) (initial : Fin (2^31))
  /-- a step of one transaction; a DATA event is delivered by `onBodyImpl` -/
  | transaction (i : ℕ) (e : Step)
  | onBodyReturns
  | pauseReads
  | resumeReads
  | shutdownReads
  deriving DecidableEq

namespace HTTPSession

def ingressLimitExceeded (s : HTTPSession) : Bool := s.readBufLimit < s.pendingReadSize

def pauseReads (s : HTTPSession) : HTTPSession :=
  if s.reads = .unpaused ∧ s.ingressLimitExceeded then {s with reads := .paused} else s

def resumeReads (s : HTTPSession) : HTTPSession :=
  if s.reads = .paused ∧ !s.ingressLimitExceeded then {s with reads := .unpaused} else s

def notifyBodyProcessed (s : HTTPSession) (bytes : ℕ) : Option HTTPSession :=
  if bytes ≤ s.pendingReadSize then
    let t := {s with pendingReadSize := s.pendingReadSize-bytes}
    some (if s.readBufLimit < s.pendingReadSize ∧ t.pendingReadSize≤t.readBufLimit then t.resumeReads else t)
  else none

/-- The other calls reach the counter only through `pauseReads` and `resumeReads`. -/
def transport (s : HTTPSession) : TransportCall → Option HTTPSession
  | .notifyIngressBodyProcessed bytes => s.notifyBodyProcessed bytes
  | _ => some s

/-- `onBodyImpl` up to the call of the transaction. -/
def enterBody (s : HTTPSession) (length : ℕ) (padding : UInt16) : Option HTTPSession :=
  if s.pendingReadSize ≤ 2^32-1-length-padding.toNat then
    some {s with
      pendingReadSize := s.pendingReadSize+(length+padding.toNat)
      oldSizes := s.pendingReadSize::s.oldSizes}
  else none

/-- `onBodyImpl` after the call of the transaction. -/
def leaveBody (s : HTTPSession) : HTTPSession :=
  match s.oldSizes with
  | [] => s
  | oldSize::oldSizes =>
    let t := {s with oldSizes}
    if oldSize<t.pendingReadSize ∧ t.ingressLimitExceeded ∧ oldSize≤t.readBufLimit then t.pauseReads else t

def enter (s : HTTPSession) : Step → Option HTTPSession
  | .call (.onIngressBody length padding) => s.enterBody length padding
  | _ => some s

def onTransaction (s : HTTPSession) (i : ℕ) (e : Step) : Option HTTPSession :=
  match s.streams[i]? with
  | none => some s
  | some x =>
    if x.txn.deleting then some s
    else do
      let s ← s.enter e
      (x.advance e).txn.calls.foldlM transport {s with streams := s.streams.set i (x.advance e)}

def act (s : HTTPSession) : Action → Option HTTPSession
  | .newTransaction isUpstream initial => some {s with streams := s.streams++[{txn := .new isUpstream initial}]}
  | .transaction i e => s.onTransaction i e
  | .onBodyReturns => some s.leaveBody
  | .pauseReads => some s.pauseReads
  | .resumeReads => some s.resumeReads
  | .shutdownReads => some {s with reads := .shutdown}

def step (s : Option HTTPSession) (a : Action) : Option HTTPSession := s.bind (act · a)

def deferred (s : HTTPSession) : ℕ := (s.streams.map Stream.deferred).sum

/-- The counter is exact, a destroyed transaction has reported all that it was given, and reads are paused
only while the limit is exceeded. -/
structure Accounted (s : HTTPSession) : Prop where
  pending : s.pendingReadSize=s.deferred
  destroyed : ∀ x ∈ s.streams,x.txn.deleting = true → x.notified=x.received
  reads : s.reads = .paused → s.ingressLimitExceeded=true

end HTTPSession

namespace HTTPTransaction
variable {t t' : HTTPTransaction}

def Drops (t : HTTPTransaction) (c : Call) : Prop :=
  t.deferredBytes≠0 ∧ (t.step (.call c)).deferredIngress = none

/-- A DATA event has no padding and is taken in, or has nothing; and no other call throws body bytes away. -/
def Settles (t : HTTPTransaction) : Step → Prop
  | .call (.onIngressBody length padding) =>
    padding = 0 ∧ (t.Accepts length padding ∨ length.val=0 ∧ ¬t.Drops (.onIngressBody length padding))
  | .call c => c.isQuiet = true → ¬t.Drops c
  | .callbackReturns _ => True

lemma Settles.used {e : Step} (h : t.Settles e) : e.used=e.received := by
  cases e with
  | callbackReturns draining => rfl
  | call c =>
    cases c with
    | onIngressBody length padding => simp [Step.used,Step.received,h.1]
    | _ => rfl

lemma Quiet.lost_eq_zero (h : Quiet t t') (hlost : t.lost=0) :
    t'.lost = 0 ↔ ¬(t.deferredBytes≠0 ∧ t'.deferredIngress=none) := by
  rcases h with h | h
  · have hgone : t'.deferredBytes=0 := by simp [deferredBytes,h.events]
    simp only [lost,hgone,h.recvWindow,h.deferredIngress,Nat.cast_zero,sub_zero,and_true,not_not] at hlost ⊢
    omega
  · refine iff_of_true (h.lost.trans hlost) fun hgone => hgone.1 ?_
    rw [← h.deferredBytes]
    simp [deferredBytes,events,hgone.2]

end HTTPTransaction

namespace Stream
variable {x : Stream} {e : Step}

structure Sound (x : Stream) : Prop where
  wellFormed : x.txn.WellFormed
  books : (x.notified : ℤ)+x.held = x.received
  exact : x.held=x.deferred

lemma held_nonneg (h : x.txn.WellFormed) : 0≤x.held := by
  unfold held
  split_ifs
  exacts [le_rfl,h.window.nonneg]

lemma deferred_le_held (h : x.txn.WellFormed) : (x.deferred : ℤ) ≤ x.held := by
  unfold held deferred
  split_ifs
  exacts [le_rfl,h.held]

/-- A step of a live stream; the session counts `leak` bytes that the stream will never report. -/
structure Stepped (x : Stream) (e : Step) (leak : ℕ) : Prop where
  wellFormed : (x.advance e).txn.WellFormed
  balance : ((x.txn.step e).notified : ℤ)+(x.advance e).held+leak = x.held+e.used
  settles : leak=0 ∧ (x.advance e).held = (x.advance e).deferred ↔ x.txn.Settles e

lemma Stepped.sound {leak : ℕ} (h : Stepped x e leak) (hx : x.Sound) (hsettles : x.txn.Settles e) :
    (x.advance e).Sound := by
  obtain ⟨hleak,hexact⟩ := h.settles.mpr hsettles
  refine ⟨h.wellFormed,?_,hexact⟩
  have hbalance := h.balance
  have hbooks := hx.books
  have hused := hsettles.used
  have hnotified : (x.advance e).notified = x.notified+(x.txn.step e).notified := rfl
  have hreceived : (x.advance e).received = x.received+e.received := rfl
  omega

lemma stepped_of_moves {l leak : ℕ} {a : ℤ} (hlive : x.txn.deleting=false)
    (h : Moves x.txn.clear (x.txn.step e) l a) (hwell : (x.txn.step e).WellFormed)
    (hl : l+leak = e.used) (hiff : leak=0 ∧ (x.txn.step e).lost = 0 ↔ x.txn.Settles e) : Stepped x e leak := by
  have hlive' : (x.advance e).txn.deleting = false := h.deleting.trans hlive
  have hheld : (x.advance e).held = (x.txn.step e).recvWindow.outstanding := by simp only [held,hlive']; rfl
  refine ⟨hwell,?_,?_⟩
  · have hnotified := h.notified
    have hbefore : x.held=x.txn.recvWindow.outstanding := by simp only [held,hlive]; rfl
    have hsame : x.txn.clear.recvWindow=x.txn.recvWindow := rfl
    rw [clear_notified,hsame] at hnotified
    omega
  · rw [← hiff,hheld]
    simp only [deferred,hlive',lost,sub_eq_zero]
    rfl

lemma stepped_onIngressBody (hx : x.Sound) (hlive : x.txn.deleting=false) (hlost : x.txn.lost=0)
    (length : Fin (2^24)) (padding : UInt16) :
    ∃ leak,Stepped x (.call (.onIngressBody length padding)) leak := by
  have hzero : padding.toNat=0 ↔ padding=0 := by rw [← UInt16.toNat_inj]; rfl
  have hdrops : ∀ h : Quiet x.txn.clear (x.txn.step (.call (.onIngressBody length padding))),
      (x.txn.step (.call (.onIngressBody length padding))).lost = 0 ↔ ¬x.txn.Drops (.onIngressBody length padding) :=
    fun h => h.lost_eq_zero hlost
  rcases onIngressBody_cases hx.wellFormed.clear length padding with
    ⟨-,hempty,heq⟩ | ⟨haccepts,heffect⟩ | ⟨hrejects,hquiet,-⟩
  · have hsame : x.txn.step (.call (.onIngressBody length padding)) = x.txn.clear := heq
    have hquiet : Quiet x.txn.clear (x.txn.step (.call (.onIngressBody length padding))) :=
      hsame ▸ .inr (.refl _)
    refine ⟨padding.toNat,stepped_of_moves hlive hquiet.moves (hquiet.wellFormed hx.wellFormed.clear) ?_ ?_⟩
    · simp [Step.used,hempty]
    · have hkept := (hdrops hquiet).mp (by rw [hsame]; exact hlost)
      rw [hdrops hquiet]
      simp [Settles,hempty,hkept,hzero]
  · refine ⟨padding.toNat,stepped_of_moves hlive heffect.toMoves heffect.wellFormed rfl ?_⟩
    have hkept := heffect.lost.trans hlost
    rw [hzero]
    exact and_congr_right fun _ => iff_of_true hkept (.inl (clear_accepts.mp haccepts))
  · refine ⟨length+padding.toNat,
      stepped_of_moves hlive hquiet.moves (hquiet.wellFormed hx.wellFormed.clear) (zero_add _) ?_⟩
    have hrejected : ¬x.txn.Accepts length padding := fun h => hrejects (clear_accepts.mpr h)
    rw [hdrops hquiet]
    simp only [Settles,hrejected,false_or,← hzero]
    constructor
    · exact fun ⟨hnothing,hkept⟩ => ⟨by omega,by omega,hkept⟩
    · exact fun ⟨hpadding,hlength,hkept⟩ => ⟨by omega,hkept⟩

theorem stepped (hx : x.Sound) (hlive : x.txn.deleting=false) (e : Step) : ∃ leak,Stepped x e leak := by
  have hlost : x.txn.lost=0 := by
    have hexact := hx.exact
    simp only [held,deferred,hlive,Bool.false_eq_true,if_false] at hexact
    exact sub_eq_zero.mpr hexact
  have hclear := hx.wellFormed.clear
  have hexact : ∀ {a : ℤ} {e : Step}, Effect x.txn.clear (x.txn.step e) 0 a → e.used=0 →
      x.txn.Settles e → ∃ leak,Stepped x e leak := fun h hused hsettles =>
    ⟨0,stepped_of_moves hlive h.toMoves h.wellFormed hused.symm (iff_of_true ⟨rfl,h.lost.trans hlost⟩ hsettles)⟩
  cases e with
  | callbackReturns draining =>
    cases hstack : x.txn.stack with
    | nil => exact hexact (step_nothing hx.wellFormed hstack draining) rfl trivial
    | cons f stack => exact hexact (step_callbackReturns hx.wellFormed hstack draining) rfl trivial
  | call c =>
    by_cases hquiet : c.isQuiet=true
    · have hcall := call_quiet x.txn.clear hquiet
      refine ⟨0,stepped_of_moves hlive hcall.moves (hcall.wellFormed hclear) ?_ ?_⟩
      · cases c <;> first | rfl | exact absurd hquiet Bool.false_ne_true
      · have hsettles : x.txn.Settles (.call c) ↔ ¬x.txn.Drops c := by
          cases c <;> first | exact forall_prop_of_true hquiet | exact absurd hquiet Bool.false_ne_true
        rw [hsettles,eq_self_iff_true,true_and]
        exact hcall.lost_eq_zero hlost
    · cases c with
      | onIngressBody length padding => exact stepped_onIngressBody hx hlive hlost length padding
      | resumeIngress => exact hexact (resumeIngress_effect hclear) rfl fun h => absurd h hquiet
      | setReceiveWindow capacity => exact hexact (setReceiveWindow_effect hclear capacity) rfl fun h => absurd h hquiet
      | flushWindowUpdate => exact hexact (flushWindowUpdate_effect hclear) rfl fun h => absurd h hquiet
      | setHandler handler =>
        have hshape : SameShape x.txn.clear (x.txn.step (.call (.setHandler handler))) :=
          ⟨⟨rfl,rfl,rfl,rfl⟩,rfl,rfl⟩
        refine ⟨0,hshape.wellFormed hclear,?_,iff_of_true ⟨rfl,?_⟩ fun h => absurd h hquiet⟩
        · change ((0 : ℕ) : ℤ)+x.held+(0 : ℕ) = x.held+(0 : ℕ)
          simp
        · exact hx.exact
      | onDelayedDestroy isEnqueued pendingByteEvents =>
        rcases onDelayedDestroy_cases x.txn.clear isEnqueued pendingByteEvents with
          heq | ⟨-,hshape,hdeleting,hnotified⟩
        · have hsame : x.txn.step (.call (.onDelayedDestroy isEnqueued pendingByteEvents)) = x.txn.clear := heq
          exact hexact (a := 0) (by rw [hsame]; exact .refl hclear) rfl fun h => absurd h hquiet
        · have hgone : (x.advance (.call (.onDelayedDestroy isEnqueued pendingByteEvents))).txn.deleting = true :=
            hdeleting
          refine ⟨0,hshape.wellFormed hclear,?_,iff_of_true ⟨rfl,?_⟩ fun h => absurd h hquiet⟩
          · have hnonneg := hclear.window.nonneg
            have hnotified' : (x.txn.step (.call (.onDelayedDestroy isEnqueued pendingByteEvents))).notified =
                0+x.txn.clear.recvWindow.outstanding.toNat := hnotified
            rw [hnotified',held,held,hgone,hlive,if_pos rfl]
            change _ = x.txn.clear.recvWindow.outstanding+_
            simp only [Step.used]
            omega
          · rw [held,deferred,hgone]
            rfl
      | _ => exact absurd rfl hquiet

end Stream

namespace HTTPSession
variable {s s' : HTTPSession}

def PausedForLimit (s : HTTPSession) : Prop := s.reads = .paused → s.ingressLimitExceeded=true

lemma pauseReads_spec (s : HTTPSession) (h : s.PausedForLimit) :
    s.pauseReads.PausedForLimit ∧ s.pauseReads.pendingReadSize=s.pendingReadSize ∧ s.pauseReads.streams=s.streams := by
  unfold pauseReads
  split_ifs with hpause
  · exact ⟨fun _ => hpause.2,rfl,rfl⟩
  · exact ⟨h,rfl,rfl⟩

lemma resumeReads_spec (s : HTTPSession) :
    (s.PausedForLimit → s.resumeReads.PausedForLimit) ∧ (s.ingressLimitExceeded=false → s.resumeReads.PausedForLimit) ∧
      s.resumeReads.pendingReadSize = s.pendingReadSize ∧ s.resumeReads.streams=s.streams := by
  unfold resumeReads
  split_ifs with hresume
  · exact ⟨fun _ h => by simp at h,fun _ h => by simp at h,rfl,rfl⟩
  · refine ⟨id,fun hbelow hpaused => ?_,rfl,rfl⟩
    exact absurd ⟨hpaused,by simp [hbelow]⟩ hresume

lemma notifyBodyProcessed_spec {bytes : ℕ} (h : s.PausedForLimit) (hbytes : bytes ≤ s.pendingReadSize) :
    ∃ s',s.notifyBodyProcessed bytes = some s' ∧ s'.PausedForLimit ∧ s'.pendingReadSize+bytes = s.pendingReadSize ∧
      s'.streams = s.streams := by
  unfold notifyBodyProcessed
  rw [if_pos hbytes]
  refine ⟨_,rfl,?_⟩
  generalize ht : ({s with pendingReadSize := s.pendingReadSize-bytes} : HTTPSession) = t
  have hpending : t.pendingReadSize+bytes = s.pendingReadSize := by rw [← ht]; simp only; omega
  have hstreams : t.streams=s.streams := by rw [← ht]
  have hlimit : t.readBufLimit=s.readBufLimit := by rw [← ht]
  have hreads : t.reads=s.reads := by rw [← ht]
  split_ifs with hcross
  · obtain ⟨-,hbelow,hsize,hsame⟩ := t.resumeReads_spec
    refine ⟨hbelow ?_,hsize ▸ hpending,hsame.trans hstreams⟩
    simpa [ingressLimitExceeded] using hcross.2
  · refine ⟨fun hpaused => ?_,hpending,hstreams⟩
    have hover := h (hreads ▸ hpaused)
    simp only [ingressLimitExceeded,decide_eq_true_eq] at hover ⊢
    by_contra hbelow
    exact hcross ⟨hover,by omega⟩

lemma transport_spec (calls : List TransportCall) (h : s.PausedForLimit)
    (hbytes : (calls.map TransportCall.processedBytes).sum ≤ s.pendingReadSize) :
    ∃ s',calls.foldlM transport s = some s' ∧ s'.PausedForLimit ∧
      s'.pendingReadSize+(calls.map TransportCall.processedBytes).sum = s.pendingReadSize ∧ s'.streams=s.streams := by
  induction calls generalizing s with
  | nil => exact ⟨s,rfl,h,rfl,rfl⟩
  | cons c calls ih =>
    have hfirst : ∃ s',s.transport c = some s' ∧ s'.PausedForLimit ∧
        s'.pendingReadSize+c.processedBytes = s.pendingReadSize ∧ s'.streams=s.streams := by
      cases c with
      | notifyIngressBodyProcessed bytes =>
        refine notifyBodyProcessed_spec h ?_
        simp only [map_cons,sum_cons,TransportCall.processedBytes] at hbytes
        omega
      | _ => exact ⟨s,rfl,h,rfl,rfl⟩
    obtain ⟨u,hu,hpaused,hpending,hstreams⟩ := hfirst
    simp only [map_cons,sum_cons] at hbytes ⊢
    obtain ⟨v,hv,hpaused',hpending',hstreams'⟩ := ih hpaused (by omega)
    exact ⟨v,by simp [foldlM_cons,hu,hv],hpaused',by omega,hstreams'.trans hstreams⟩

lemma enter_spec {e : Step} (h : s.PausedForLimit) (henter : s.enter e = some s') :
    s'.PausedForLimit ∧ s'.pendingReadSize = s.pendingReadSize+e.used ∧ s'.streams=s.streams := by
  have hstays : some s = some s' → e.used=0 →
      s'.PausedForLimit ∧ s'.pendingReadSize = s.pendingReadSize+e.used ∧ s'.streams=s.streams := by
    rintro hsame hused
    obtain rfl := Option.some.inj hsame
    exact ⟨h,by rw [hused,add_zero],rfl⟩
  cases e with
  | callbackReturns draining => exact hstays henter rfl
  | call c =>
    cases c with
    | onIngressBody length padding =>
      simp only [enter,enterBody,Option.ite_none_right_eq_some] at henter
      obtain ⟨-,hentered⟩ := henter
      obtain rfl := Option.some.inj hentered
      refine ⟨fun hpaused => ?_,rfl,rfl⟩
      have hover := h hpaused
      simp only [ingressLimitExceeded,decide_eq_true_eq] at hover ⊢
      omega
    | _ => exact hstays henter rfl

def held (s : HTTPSession) : ℤ := (s.streams.map Stream.held).sum

/-- The state of a session as long as nothing has leaked. -/
structure Kept (s : HTTPSession) : Prop where
  streams : ∀ x ∈ s.streams,x.Sound
  pending : (s.pendingReadSize : ℤ) = s.held
  reads : s.PausedForLimit

lemma Kept.of_same (hs : s.Kept) (hreads : s'.PausedForLimit) (hpending : s'.pendingReadSize=s.pendingReadSize)
    (hstreams : s'.streams=s.streams) : s'.Kept where
  streams := hstreams ▸ hs.streams
  pending := by rw [held,hpending,hstreams]; exact hs.pending
  reads := hreads

lemma sum_map_set {α : Type} (f : α → ℤ) {l : List α} {i : ℕ} {x : α} (h : l[i]? = some x) (y : α) :
    ((l.set i y).map f).sum = (l.map f).sum+(f y-f x) := by
  obtain ⟨hi,hx⟩ := List.getElem?_eq_some_iff.mp h
  rw [List.map_set,List.sum_set',dif_pos (by simpa using hi),List.getElem_map,hx]
  ring

lemma held_eq_deferred {l : List Stream} (h : ∀ x ∈ l,x.held = x.deferred) :
    (l.map Stream.held).sum = ((l.map Stream.deferred).sum : ℕ) := by
  rw [map_congr_left h,Nat.cast_list_sum,map_map]
  rfl

lemma Kept.accounted (hs : s.Kept) : s.Accounted where
  pending := by
    have hpending := hs.pending
    rw [held,held_eq_deferred fun x hx => (hs.streams x hx).exact] at hpending
    exact_mod_cast hpending
  destroyed x hx hdeleting := by
    have hbooks := (hs.streams x hx).books
    rw [Stream.held,if_pos hdeleting] at hbooks
    omega
  reads := hs.reads

lemma onTransaction_cases (hs : s.Kept) {i : ℕ} {e : Step} (hact : s.onTransaction i e = some s') :
    (s'=s ∧ ∀ x ∈ s.streams[i]?, x.txn.deleting = true) ∨
    ∃ x leak,s.streams[i]? = some x ∧ x.txn.deleting=false ∧ x.Stepped e leak ∧
      s'.streams = s.streams.set i (x.advance e) ∧ (s'.pendingReadSize : ℤ) = s'.held+leak ∧ s'.PausedForLimit := by
  unfold onTransaction at hact
  cases hx : s.streams[i]? with
  | none => exact .inl ⟨by simpa [hx] using hact.symm,by simp⟩
  | some x =>
    simp only [hx] at hact
    by_cases hdeleting : x.txn.deleting=true
    · rw [if_pos hdeleting] at hact
      exact .inl ⟨(Option.some.inj hact).symm,by simpa using hdeleting⟩
    · rw [if_neg hdeleting] at hact
      obtain ⟨u,hu,hcalls⟩ := Option.bind_eq_some_iff.mp hact
      have hlive : x.txn.deleting=false := by simpa using hdeleting
      have hmem := mem_of_getElem? hx
      obtain ⟨leak,hstep⟩ := Stream.stepped (hs.streams x hmem) hlive e
      obtain ⟨hpaused,hpending,hstreams⟩ := enter_spec hs.reads hu
      have hbalance := hstep.balance
      have hheld := Stream.held_nonneg hstep.wellFormed
      have hpart : x.held ≤ s.held := single_le_sum (by
        simpa using fun y hy => Stream.held_nonneg (hs.streams y hy).wellFormed) _ (mem_map_of_mem hmem)
      have hkept := hs.pending
      -- the transaction reports no more than the session counts
      have henough : (x.txn.step e).notified ≤ u.pendingReadSize := by omega
      obtain ⟨v,hv,hpaused',hpending',hstreams'⟩ := transport_spec
        (s := {u with streams := u.streams.set i (x.advance e)}) (x.advance e).txn.calls hpaused henough
      obtain rfl := Option.some.inj (hv.symm.trans hcalls)
      have hset : v.streams = s.streams.set i (x.advance e) := by rw [hstreams',hstreams]
      refine .inr ⟨x,leak,rfl,hlive,hstep,hset,?_,hpaused'⟩
      have hsum : v.held = s.held+((x.advance e).held-x.held) := by
        rw [held,hset]
        exact sum_map_set Stream.held hx (x.advance e)
      change v.pendingReadSize+(x.txn.step e).notified = u.pendingReadSize at hpending'
      omega

def Clean (s : HTTPSession) : Action → Prop
  | .transaction i e => ∀ x ∈ s.streams[i]?, x.txn.deleting = false → x.txn.Settles e
  | _ => True

lemma onTransaction_accounted (hs : s.Kept) {i : ℕ} {e : Step} (hact : s.onTransaction i e = some s') :
    (s'.Accounted ↔ s.Clean (.transaction i e)) ∧ (s.Clean (.transaction i e) → s'.Kept) := by
  rcases onTransaction_cases hs hact with ⟨rfl,hgone⟩ | ⟨x,leak,hx,hlive,hstep,hstreams,hpending,hpaused⟩
  · have hclean : s'.Clean (.transaction i e) := fun x hx hlive => by simp [hgone x hx] at hlive
    exact ⟨iff_of_true hs.accounted hclean,fun _ => hs⟩
  · have hclean : s.Clean (.transaction i e) ↔ x.txn.Settles e := by simp [Clean,hx,hlive]
    have hmem := mem_of_getElem? hx
    have hkept : x.txn.Settles e → s'.Kept := fun hsettles => {
      streams := fun y hy => by
        rcases mem_or_eq_of_mem_set (hstreams ▸ hy) with hy | rfl
        · exact hs.streams y hy
        · exact hstep.sound (hs.streams x hmem) hsettles
      pending := by rw [hpending,(hstep.settles.mpr hsettles).1,Nat.cast_zero,add_zero]
      reads := hpaused}
    rw [hclean]
    refine ⟨⟨fun haccounted => hstep.settles.mp ?_,fun hsettles => (hkept hsettles).accounted⟩,hkept⟩
    -- all streams but this one hold exactly what they have deferred
    have hexact : s.held = (s.deferred : ℤ) := held_eq_deferred fun y hy => (hs.streams y hy).exact
    have hsame := (hs.streams x hmem).exact
    have hheld : s'.held = s.held+((x.advance e).held-x.held) := by
      rw [held,hstreams]
      exact sum_map_set Stream.held hx (x.advance e)
    have hdeferred : (s'.deferred : ℤ) = s.deferred+((x.advance e).deferred-x.deferred) := by
      have hsum := sum_map_set (fun y => (y.deferred : ℤ)) hx (x.advance e)
      simpa [deferred,hstreams,Nat.cast_list_sum,Function.comp_def] using hsum
    have hle := Stream.deferred_le_held hstep.wellFormed
    have htotal := haccounted.pending
    omega

lemma act_accounted (hs : s.Kept) {a : Action} (hact : s.act a = some s') :
    (s'.Accounted ↔ s.Clean a) ∧ (s.Clean a → s'.Kept) := by
  have hkept : s'.Kept → s.Clean a → (s'.Accounted ↔ s.Clean a) ∧ (s.Clean a → s'.Kept) :=
    fun h hclean => ⟨iff_of_true h.accounted hclean,fun _ => h⟩
  have hpaused := hs.reads
  cases a with
  | transaction i e => exact onTransaction_accounted hs hact
  | newTransaction isUpstream initial =>
    obtain rfl := Option.some.inj hact
    refine hkept ⟨fun x hx => ?_,?_,hpaused⟩ trivial
    · rcases mem_append.mp hx with hx | hx
      · exact hs.streams x hx
      · obtain rfl := mem_singleton.mp hx
        exact ⟨wellFormed_new isUpstream initial,rfl,rfl⟩
    · have hpending := hs.pending
      simpa [held,Stream.held,HTTPTransaction.new] using hpending
  | onBodyReturns =>
    obtain rfl := Option.some.inj hact
    refine hkept ?_ trivial
    unfold leaveBody
    cases s.oldSizes with
    | nil => exact hs
    | cons oldSize oldSizes =>
      dsimp only
      split_ifs
      · obtain ⟨hreads,hpending,hstreams⟩ := pauseReads_spec {s with oldSizes} hpaused
        exact hs.of_same hreads hpending hstreams
      · exact hs.of_same hpaused rfl rfl
  | pauseReads =>
    obtain rfl := Option.some.inj hact
    obtain ⟨hreads,hpending,hstreams⟩ := s.pauseReads_spec hpaused
    exact hkept (hs.of_same hreads hpending hstreams) trivial
  | resumeReads =>
    obtain rfl := Option.some.inj hact
    obtain ⟨hreads,-,hpending,hstreams⟩ := s.resumeReads_spec
    exact hkept (hs.of_same (hreads hpaused) hpending hstreams) trivial
  | shutdownReads =>
    obtain rfl := Option.some.inj hact
    exact hkept (hs.of_same (fun h => by simp at h) rfl rfl) trivial

end HTTPSession

end QuicWestwood.HTTP
