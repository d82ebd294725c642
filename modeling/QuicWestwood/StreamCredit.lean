import QuicWestwood.TransactionBooks

/-! The credit of the peer is the initial window and all updates, less the bytes of all DATA frames. It agrees
with the books of the transaction as long as no frame without a body carries padding and the counter of
unacknowledged bytes does not overflow. -/
namespace QuicWestwood.HTTP
open HTTP2 HTTPTransaction

/-- A transaction, the window granted to its peer, and the part of it that was used. -/
structure StreamAccount where
  txn : HTTPTransaction
  granted : ℤ
  used : ℕ
  deriving DecidableEq

namespace StreamAccount

def start (isUpstream : Bool) (initial : Fin (2^31)) : StreamAccount where
  txn := .new isUpstream initial
  granted := initial
  used := 0

def step (s : StreamAccount) (e : Step) : StreamAccount where
  txn := s.txn.step e
  granted := s.granted+(s.txn.step e).granted
  used := s.used+e.used

def credit (s : StreamAccount) : ℤ := s.granted-s.used

/-- The credit is the capacity but for the bytes that are deferred, processed but not yet acknowledged,
or in the hands of a callback that has not returned. -/
def Balanced (s : StreamAccount) : Prop :=
  s.credit = s.txn.recvWindow.capacity-s.txn.deferredBytes-s.txn.recvToAck-s.txn.processing

instance (s : StreamAccount) : Decidable s.Balanced := inferInstanceAs (Decidable (_=_))

end StreamAccount

namespace HTTPTransaction
variable {t : HTTPTransaction}

def FitsInt32 (x : ℤ) : Prop := -2^31 ≤ x ∧ x < 2^31

instance (x : ℤ) : Decidable (FitsInt32 x) := inferInstanceAs (Decidable (_ ∧ _))

/-- Padding comes with a body, and `recvToAck` stays in its 32 bits. -/
def Acknowledges (t : HTTPTransaction) : Step → Prop
  | .call (.onIngressBody length padding) =>
    if length.val=0 then padding = 0 else FitsInt32 (t.recvToAck+padding.toNat)
  | .call (.setReceiveWindow capacity) =>
    t.Grows capacity → FitsInt32 (t.recvToAck+(capacity.toNat-t.recvWindow.capacity))
  | .callbackReturns _ => ∀ f ∈ t.stack.head?,f≠.deferred → FitsInt32 (t.recvToAck+f.bodyLength)
  | _ => True

instance (t : HTTPTransaction) (e : Step) : Decidable (t.Acknowledges e) := by
  unfold Acknowledges
  split <;> infer_instance

lemma slip_eq_zero (f : Frame) : t.slip f = 0 ↔ (f≠.deferred → FitsInt32 (t.recvToAck+f.bodyLength)) := by
  cases f with
  | deferred => simp [slip]
  | body length | deferredBody length => simpa [slip,Frame.bodyLength,FitsInt32] using wrap_eq_zero

/-- A step that leaves ingress open notes `ack` bytes in the ledger, and these are the bytes that it used
exactly if they are acknowledged. -/
structure Notes (t : HTTPTransaction) (e : Step) : Prop where
  wellFormed : (t.step e).WellFormed
  seen : t.isIngressEOMSeen=true → (t.step e).isIngressEOMSeen = true
  ledger : (t.step e).isIngressEOMSeen = false → t.handler=true → (t.step e).handler = true ∧
    ∃ ack,(t.step e).ledger = t.clear.ledger+ack ∧ (ack=e.used ↔ t.Acknowledges e)

lemma Moves.notes {e : Step} {l : ℕ} {a : ℤ} (h : Moves t.clear (t.step e) l a)
    (hwell : (t.step e).WellFormed)
    (hack : (t.step e).isIngressEOMSeen = false → (a=e.used ↔ t.Acknowledges e)) : Notes t e where
  wellFormed := hwell
  seen := h.seen
  ledger hlive hhandler := ⟨h.handler.trans hhandler,a,h.ledger hlive hhandler,hack hlive⟩

lemma Effect.notes {e : Step} {l : ℕ} {a : ℤ} (h : Effect t.clear (t.step e) l a)
    (hack : (t.step e).isIngressEOMSeen = false → (a=e.used ↔ t.Acknowledges e)) : Notes t e :=
  h.toMoves.notes h.wellFormed hack

lemma ledger_clear (t : HTTPTransaction) : t.clear.ledger =
    t.recvToAck+t.deferredBytes+t.processing-t.recvWindow.capacity := by
  simp [ledger,granted,deferredBytes,events,processing,clear]

lemma onIngressBody_notes (ht : WellFormed t) (length : Fin (2^24)) (padding : UInt16) :
    Notes t (.call (.onIngressBody length padding)) := by
  have hzero : padding.toNat=0 ↔ padding=0 := by rw [← UInt16.toNat_inj]; rfl
  rcases onIngressBody_cases ht.clear length padding with ⟨hlive,hempty,heq⟩ | ⟨haccepts,heffect⟩ | ⟨-,hquiet,hends⟩
  · refine Effect.notes (l := 0) (a := 0) ?_ fun _ => ?_
    · change Effect _ (t.clear.onIngressBody _ _) 0 0
      rw [heq]
      exact .refl ht.clear
    · simp only [Step.used,Acknowledges,hempty,if_true,zero_add,← hzero]
      omega
  · refine heffect.notes fun _ => ?_
    have hwrap := wrap_eq_zero (x := t.recvToAck+padding.toNat)
    simp only [wrap,sub_eq_zero] at hwrap
    have hsame : t.clear.recvToAck=t.recvToAck := rfl
    simp only [Step.used,Acknowledges,if_neg haccepts.pos.ne',FitsInt32,← hwrap,hsame]
    push_cast
    constructor <;> intro h <;> omega
  · refine ⟨hquiet.wellFormed ht.clear,hquiet.moves.seen,fun hlive hhandler => ?_⟩
    exact absurd (hends hhandler) (Bool.eq_false_iff.mp hlive)

theorem step_notes (ht : WellFormed t) (e : Step) (he : ∀ handler,e≠.call (.setHandler handler)) : Notes t e := by
  cases e with
  | callbackReturns draining =>
    cases hstack : t.stack with
    | nil => exact (step_nothing ht hstack draining).notes fun _ => by simp [Step.used,Acknowledges,hstack]
    | cons f stack =>
      refine (step_callbackReturns ht hstack draining).notes fun _ => ?_
      simpa [Step.used,Acknowledges,hstack] using slip_eq_zero f
  | call c =>
    by_cases hquiet : c.isQuiet=true
    · have hcall := call_quiet t.clear hquiet
      refine hcall.moves.notes (hcall.wellFormed ht.clear) fun _ => ?_
      cases c <;> first | exact ⟨fun _ => trivial,fun _ => rfl⟩ | exact absurd hquiet Bool.false_ne_true
    · cases c with
      | onIngressBody length padding => exact onIngressBody_notes ht length padding
      | setReceiveWindow capacity =>
        refine (setReceiveWindow_effect ht.clear capacity).notes fun _ => ?_
        change (if t.Grows capacity then wrap (t.recvToAck+(capacity.toNat-t.recvWindow.capacity)) else 0) =
          (0 : ℕ) ↔ (t.Grows capacity → FitsInt32 _)
        by_cases hgrows : t.Grows capacity
        · simpa [hgrows,FitsInt32] using wrap_eq_zero
        · simp [hgrows]
      | resumeIngress => exact (resumeIngress_effect ht.clear).notes fun _ => by simp [Step.used,Acknowledges]
      | flushWindowUpdate => exact (flushWindowUpdate_effect ht.clear).notes fun _ => by simp [Step.used,Acknowledges]
      | setHandler handler => exact absurd rfl (he handler)
      | onDelayedDestroy isEnqueued pendingByteEvents =>
        rcases onDelayedDestroy_cases t.clear isEnqueued pendingByteEvents with
          heq | ⟨hcomplete,hshape,-,-⟩
        · refine Effect.notes (l := 0) (a := 0) ?_ fun _ => by simp [Step.used,Acknowledges]
          change Effect _ (t.clear.onDelayedDestroy _ _) 0 0
          rw [heq]
          exact .refl ht.clear
        · have hseen := hshape.seen.trans (isIngressEOMSeen_of_complete hcomplete)
          exact ⟨hshape.wellFormed ht.clear,fun _ => hseen,fun hlive => absurd hseen (Bool.eq_false_iff.mp hlive)⟩
      | _ => exact absurd rfl hquiet

end HTTPTransaction

namespace StreamAccount

structure Kept (s : StreamAccount) : Prop where
  wellFormed : s.txn.WellFormed
  handler : s.txn.isIngressEOMSeen=false → s.txn.handler=true
  balanced : s.txn.isIngressEOMSeen=false → s.Balanced

lemma start_kept (isUpstream : Bool) (initial : Fin (2^31)) : (start isUpstream initial).Kept where
  wellFormed := wellFormed_new isUpstream initial
  handler _ := rfl
  balanced _ := by simp [Balanced,credit,start,new,deferredBytes,events,processing]

lemma balanced_step (s : StreamAccount) (hs : s.Kept) {e : Step} (hnotes : s.txn.Notes e)
    (hlive : (s.step e).txn.isIngressEOMSeen = false) :
    (s.step e).txn.handler = true ∧ ((s.step e).Balanced ↔ s.txn.Acknowledges e) := by
  have hlive' : s.txn.isIngressEOMSeen=false := by
    by_contra h
    exact absurd (hnotes.seen (by simpa using h)) (by simpa [step] using hlive)
  obtain ⟨hhandler,ack,hledger,hiff⟩ := hnotes.ledger hlive (hs.handler hlive')
  have hbalanced := hs.balanced hlive'
  refine ⟨hhandler,Iff.trans ?_ hiff⟩
  rw [ledger_clear,ledger] at hledger
  simp only [Balanced,credit,step,Nat.cast_add] at hbalanced ⊢
  constructor <;> intro h <;> omega

/-- With a handler, the credit of the peer agrees with the books after every step that leaves ingress open,
exactly if each of these steps acknowledges what it uses. -/
theorem stream_credit_conserved_iff (isUpstream : Bool) (initial : Fin (2^31)) (steps : List Step)
    (hhandler : ∀ e ∈ steps,∀ handler,e≠.call (.setHandler handler)) :
    Run.EveryStep step (fun s e => (s.step e).txn.isIngressEOMSeen = false → (s.step e).Balanced)
        (start isUpstream initial) steps ↔
      Run.EveryStep step (fun s e => (s.step e).txn.isIngressEOMSeen = false → s.txn.Acknowledges e)
        (start isUpstream initial) steps := by
  refine Run.everyStep_congr_while (start_kept isUpstream initial) fun s hs e he => ?_
  have hnotes := step_notes hs.wellFormed e (hhandler e he)
  have hstep := balanced_step s hs hnotes
  refine ⟨forall_congr' fun hlive => (hstep hlive).2,fun hack => ⟨hnotes.wellFormed,fun hlive => ?_,fun hlive => ?_⟩⟩
  · exact (hstep hlive).1
  · exact (hstep hlive).2.mpr (hack hlive)

theorem stream_credit_of_padded_bodies :
    Run.EveryStep step (fun s e => (s.step e).txn.isIngressEOMSeen = false → (s.step e).Balanced) (start false 65535)
      [.call (.onIngressHeadersComplete true none),.call (.onIngressBody 1000 8),.call .pauseIngress,
        .callbackReturns false,.call (.onIngressBody 40000 8),.call (.setReceiveWindow 100000),
        .call .resumeIngress,.callbackReturns false] :=
  (stream_credit_conserved_iff false 65535 _ (by decide)).mpr (by decide)

/-- A DATA frame of nothing but eight bytes of padding: the peer has lost them, and no counter knows. -/
theorem padding_only_frame_loses_credit :
    let s := Run.run step (start false 65535)
      [.call (.onIngressHeadersComplete true none),.call (.onIngressBody 0 8),.call .flushWindowUpdate]
    s.txn.isIngressEOMSeen = false ∧ s.txn.handler=true ∧ s.txn.aborted=false ∧
      s.credit = 65527 ∧ s.txn.recvWindow.capacity=65535 ∧ s.txn.deferredBytes=0 ∧ s.txn.recvToAck=0 ∧
      s.txn.processing = 0 := by
  decide

end StreamAccount

end QuicWestwood.HTTP
