import QuicWestwood.Outcome
import QuicWestwood.PacketTypes

/-! `CongestionControlFunctions`, the view of the connection a controller writes to, and the calls both Westwood
variants answer in the same way. -/
namespace QuicWestwood

def kDefaultUDPSendPacketLen : ℕ := 1232

def boundedCwnd (cwndBytes packetLength maxCwndInMss minCwndInMss : ℕ) : ℕ :=
  max (min cwndBytes (maxCwndInMss*packetLength % 2^64))
    (minCwndInMss*packetLength % 2^64)

lemma boundedCwnd_idem (c l hi lo : ℕ) :
    boundedCwnd (boundedCwnd c l hi lo) l hi lo = boundedCwnd c l hi lo := by
  unfold boundedCwnd
  omega

def overflowBytesInFlight : Failure :=
  .quicInternalException "Overflow bytes in flight" .cwndOverflow

def underflowBytesInFlight : Failure :=
  .quicInternalException "Underflow bytes in flight" .cwndOverflow

def addAndCheckOverflow (value toAdd : ℕ) : Except Failure ℕ :=
  if 2^64-1-toAdd < value then .error overflowBytesInFlight else .ok (value+toAdd)

def subtractAndCheckUnderflow (value toSub : ℕ) : Except Failure ℕ :=
  if value<toSub then .error underflowBytesInFlight else .ok (value-toSub)

lemma addAndCheckOverflow_eq_ok {value toAdd : ℕ} (h : value+toAdd < 2^64) :
    addAndCheckOverflow value toAdd = .ok (value+toAdd) := by
  rw [addAndCheckOverflow,if_neg (by omega)]

lemma subtractAndCheckUnderflow_eq_ok {value toSub : ℕ} (h : toSub≤value) :
    subtractAndCheckUnderflow value toSub = .ok (value-toSub) := by
  rw [subtractAndCheckUnderflow,if_neg (by omega)]

lemma subtractAndCheckUnderflow_eq_error {value toSub : ℕ} (h : value<toSub) :
    subtractAndCheckUnderflow value toSub = .error underflowBytesInFlight := by
  rw [subtractAndCheckUnderflow,if_pos h]

/-- `udpSendPacketLen` and the window settings of the transport, with their defaults. -/
structure CwndSettings where
  udpSendPacketLen : ℕ := kDefaultUDPSendPacketLen
  initCwndInMss : ℕ := 10
  minCwndInMss : ℕ := 2
  maxCwndInMss : ℕ := 2000
  deriving DecidableEq

def CwndSettings.bounded (c : CwndSettings) (cwndBytes : ℕ) : ℕ :=
  boundedCwnd cwndBytes c.udpSendPacketLen c.maxCwndInMss c.minCwndInMss

@[simp] lemma CwndSettings.bounded_idem (c : CwndSettings) (n : ℕ) :
    c.bounded (c.bounded n) = c.bounded n := boundedCwnd_idem _ _ _ _

/-- A controller inside its connection: the shared in-flight counter of the loss
state, and how many times the clock has been read so far. -/
structure Controlled (σ : Type*) where
  inflightBytes : ℕ := 0
  ticks : ℕ := 0
  cc : σ
  deriving DecidableEq

inductive CcEvent
  | packetSent (encodedSize : UInt16)
  | removeBytesFromInflight (bytes : ℕ)
  | packetAckOrLoss (ackEvent : Option AckEvent) (lossEvent : Option LossEvent)
  deriving DecidableEq

def CcEvent.ackOfOne (ackTime rtt : ℤ) : CcEvent :=
  .packetAckOrLoss (some {
    ackTime, ackedBytes := 1000, largestNewlyAckedPacket := some 0, rttSample := some rtt
    ackedPackets := [{
      packetNum := 0, outstandingPacketMetadata := {time := 0, encodedSize := 1000}}]}) none

def CcEvent.lossOfOne (lossTime sent : ℤ) : CcEvent :=
  .packetAckOrLoss none (some {
    largestLostPacketNum := some 1, lostPacketNumbers := [1], lostBytes := 1000, lostPackets := 1
    lossTime, largestLostSentTime := some sent, smallestLostSentTime := some sent})

namespace Controlled
variable {σ : Type*}

def onRemoveBytesFromInflight (s : Controlled σ) (bytes : ℕ) : Outcome Failure (Controlled σ) :=
  match subtractAndCheckUnderflow s.inflightBytes bytes with
  | .error e => .fail e s
  | .ok inflight => .done {s with inflightBytes := inflight}

def onPacketSent (s : Controlled σ) (encodedSize : UInt16) : Outcome Failure (Controlled σ) :=
  match addAndCheckOverflow s.inflightBytes encodedSize.toNat with
  | .error e => .fail e s
  | .ok inflight => .done {s with inflightBytes := inflight}

def ifSome {α : Type*} (f : Controlled σ → α → Outcome Failure (Controlled σ)) (s : Controlled σ) :
    Option α → Outcome Failure (Controlled σ)
  | some a => f s a
  | none => .done s

def getWritableBytes (s : Controlled σ) (getCongestionWindow : σ → ℕ) : Except Failure ℕ :=
  if getCongestionWindow s.cc < s.inflightBytes then .ok 0
  else subtractAndCheckUnderflow (getCongestionWindow s.cc) s.inflightBytes

/-- `onPacketAckOrLoss` of both controllers: the loss first, then the ack if it acks
anything new. -/
def onPacketAckOrLoss (onPacketLoss : Controlled σ → LossEvent → Outcome Failure (Controlled σ))
    (onAckEvent : Controlled σ → AckEvent → Outcome Failure (Controlled σ)) (s : Controlled σ)
    (ackEvent : Option AckEvent) (lossEvent : Option LossEvent) :
    Outcome Failure (Controlled σ) :=
  (ifSome onPacketLoss s lossEvent).andThen fun s =>
    ifSome onAckEvent s (ackEvent.filter fun ack => ack.largestNewlyAckedPacket.isSome)

section Acks
variable (noteRtt : Controlled σ → AckEvent → Controlled σ)
  (perPacket : Controlled σ → AckPacket → Outcome Failure (Controlled σ)) (clamp : Controlled σ → Controlled σ)

/-- `onAckEvent` of both controllers: note the RTT sample, settle the acked bytes, go
through the acked packets, clamp the window. -/
def ackEventWith (s : Controlled σ) (ack : AckEvent) : Outcome Failure (Controlled σ) :=
  match subtractAndCheckUnderflow (noteRtt s ack).inflightBytes ack.ackedBytes with
  | .error e => .fail e (noteRtt s ack)
  | .ok inflight =>
    (Outcome.each perPacket {noteRtt s ack with inflightBytes := inflight}
      ack.ackedPackets).andThen fun s => .done (clamp s)

/-- The packets, each with the state in which it is looked at, of one ack event. -/
def ackEntriesWith (s : Controlled σ) (ack : AckEvent) : List (Controlled σ × AckPacket) :=
  match subtractAndCheckUnderflow (noteRtt s ack).inflightBytes ack.ackedBytes with
  | .error _ => []
  | .ok inflight =>
    Outcome.entries perPacket {noteRtt s ack with inflightBytes := inflight} ack.ackedPackets

variable {s : Controlled σ}

/-- What holds once the RTT sample is noted and is kept by every packet and by the clamp
holds after the ack event, together with the log of its packets. -/
theorem ackEventWith_logged_invariant {P : Controlled σ → List (Controlled σ × AckPacket) → Prop}
    (hbytes : ∀ s n l,P s l → P {s with inflightBytes := n} l)
    (hpkt : ∀ s p l,P s l → P (perPacket s p).state (l++[(s,p)])) (hclamp : ∀ s l,P s l → P (clamp s) l)
    {ack : AckEvent} {l : List (Controlled σ × AckPacket)} (h : P (noteRtt s ack) l) :
    P (ackEventWith noteRtt perPacket clamp s ack).state
      (l++ackEntriesWith noteRtt perPacket s ack) := by
  unfold ackEventWith ackEntriesWith
  split
  · simpa using h
  · rename_i inflight _
    have hloop := Outcome.each_logged_invariant hpkt (hbytes _ inflight l h) ack.ackedPackets
    exact Outcome.andThen_invariant (P := fun t => P t _) hloop fun ht => hclamp _ _ ht

end Acks

variable {s : Controlled σ} {P : Controlled σ → Prop}

/-- What a loss comes to in both controllers: it is more than is in flight, or the rest is settled and a new
loss starts a recovery period. -/
def Answered (o : Outcome Failure (Controlled σ)) (isNew : Except Failure Bool) (lostBytes : ℕ)
    (s settled started kept : Controlled σ) : Prop :=
  (s.inflightBytes<lostBytes ∧ o = .fail underflowBytesInFlight s) ∨ (lostBytes ≤ s.inflightBytes ∧
    ((∃ e,isNew = .error e ∧ o = .fail e settled) ∨ (isNew = .ok true ∧ o = .done started) ∨
      (isNew = .ok false ∧ o = .done kept)))

namespace Answered
variable {o : Outcome Failure (Controlled σ)} {isNew : Except Failure Bool} {lostBytes : ℕ}
  {settled started kept : Controlled σ} (h : Answered o isNew lostBytes s settled started kept)
include h

lemma invariant (hs : P s) (hsettled : P settled) (hstarted : P started) (hkept : P kept) : P o.state := by
  obtain ⟨-,rfl⟩ | ⟨-,⟨_,-,rfl⟩ | ⟨-,rfl⟩ | ⟨-,rfl⟩⟩ := h
  exacts [hs,hsettled,hstarted,hkept]

lemma eq_done (hle : lostBytes ≤ s.inflightBytes) (hnew : isNew = .ok true) : o = .done started := by
  obtain ⟨hlt,-⟩ | ⟨-,⟨_,hn,-⟩ | ⟨-,h⟩ | ⟨hn,-⟩⟩ := h
  · omega
  · simp [hnew] at hn
  · exact h
  · simp [hnew] at hn

lemma thrown {e : Failure} (he : o.thrown = some e) : e = underflowBytesInFlight ∨ isNew = .error e := by
  obtain ⟨-,rfl⟩ | ⟨-,⟨_,hn,rfl⟩ | ⟨-,rfl⟩ | ⟨-,rfl⟩⟩ := h
  · exact .inl (Option.some.inj he).symm
  · exact .inr (Option.some.inj he ▸ hn)
  all_goals cases he

end Answered

section Events
variable (onPacketLoss : Controlled σ → LossEvent → Outcome Failure (Controlled σ))
variable (onAckEvent : Controlled σ → AckEvent → Outcome Failure (Controlled σ))

def handle (s : Controlled σ) : CcEvent → Outcome Failure (Controlled σ)
  | .packetSent encodedSize => s.onPacketSent encodedSize
  | .removeBytesFromInflight bytes => s.onRemoveBytesFromInflight bytes
  | .packetAckOrLoss ackEvent lossEvent =>
    onPacketAckOrLoss onPacketLoss onAckEvent s ackEvent lossEvent

def lossOf : CcEvent → Option LossEvent
  | .packetAckOrLoss _ lossEvent => lossEvent
  | _ => none

def ackOf : CcEvent → Option AckEvent
  | .packetAckOrLoss ackEvent _ => ackEvent
  | _ => none

/-- The state in which, and the ack with which, an event enters `onAckEvent`. -/
def ackEntry (s : Controlled σ) : CcEvent → Option (Controlled σ × AckEvent)
  | .packetAckOrLoss ackEvent lossEvent =>
    if (ifSome onPacketLoss s lossEvent).thrown.isSome then none
    else (ackEvent.filter fun ack => ack.largestNewlyAckedPacket.isSome).map fun ack =>
      ((ifSome onPacketLoss s lossEvent).state,ack)
  | _ => none

def noteEvent {γ : Type*} (lossNote : Controlled σ → LossEvent → List γ)
    (ackNote : Controlled σ → AckEvent → List γ) (s : Controlled σ) (e : CcEvent) : List γ :=
  (lossOf e).toList.flatMap (lossNote s) ++
    (ackEntry onPacketLoss s e).toList.flatMap fun x => ackNote x.1 x.2

variable {onPacketLoss onAckEvent}

/-- A relation between the state and a log is kept by an event if its loss and its ack
keep it and it does not depend on the in-flight counter. -/
theorem handle_logged_invariant {γ : Type*} (lossNote : Controlled σ → LossEvent → List γ)
    (ackNote : Controlled σ → AckEvent → List γ) {P : Controlled σ → List γ → Prop} {l : List γ} {e : CcEvent}
    (hbytes : ∀ n,P s l → P {s with inflightBytes := n} l) (hloss : ∀ loss,lossOf e = some loss → P s l →
      P (onPacketLoss s loss).state (l++lossNote s loss))
    (hack : ∀ t ack l,ackOf e = some ack → P t l → P (onAckEvent t ack).state (l++ackNote t ack))
    (h : P s l) : P (handle onPacketLoss onAckEvent s e).state
      (l++noteEvent onPacketLoss lossNote ackNote s e) := by
  cases e with
  | packetSent size =>
    simp only [handle,onPacketSent,noteEvent,lossOf,ackEntry]
    split <;> simpa using by first | exact h | exact hbytes _ h
  | removeBytesFromInflight bytes =>
    simp only [handle,onRemoveBytesFromInflight,noteEvent,lossOf,ackEntry]
    split <;> simpa using by first | exact h | exact hbytes _ h
  | packetAckOrLoss ackEvent lossEvent =>
    have hfirst : P (ifSome onPacketLoss s lossEvent).state
        (l++lossEvent.toList.flatMap (lossNote s)) := by
      cases lossEvent with
      | none => simpa [ifSome] using h
      | some loss => simpa [ifSome] using hloss loss rfl h
    simp only [handle,onPacketAckOrLoss,noteEvent,lossOf,ackEntry,← List.append_assoc]
    have hnew : ∀ ack,ackEvent.filter (fun ack => ack.largestNewlyAckedPacket.isSome) = some ack →
        ackEvent = some ack := fun ack h => (Option.filter_eq_some_iff.mp h).1
    generalize ackEvent.filter (fun ack => ack.largestNewlyAckedPacket.isSome) = newAck at hnew ⊢
    cases ht : (ifSome onPacketLoss s lossEvent).thrown with
    | some e => simpa [Outcome.andThen_of_some ht] using hfirst
    | none =>
      rw [Outcome.andThen_of_none ht]
      cases newAck with
      | none => simpa [ifSome] using hfirst
      | some ack => simpa [ifSome] using hack _ ack _ (hnew ack rfl) hfirst

lemma ackEntry_invariant {s t : Controlled σ} {e : CcEvent} {ack : AckEvent}
    (hloss : ∀ loss,P (onPacketLoss s loss).state) (h : P s)
    (hentry : ackEntry onPacketLoss s e = some (t,ack)) : P t := by
  cases e with
  | packetAckOrLoss ackEvent lossEvent =>
    simp only [ackEntry] at hentry
    split_ifs at hentry
    obtain ⟨_,-,heq⟩ := Option.map_eq_some_iff.mp hentry
    obtain ⟨rfl,-⟩ := Prod.mk.inj heq
    cases lossEvent with
    | none => exact h
    | some loss => exact hloss loss
  | _ => cases hentry

theorem handle_invariant (hbytes : ∀ n,P s → P {s with inflightBytes := n})
    (hloss : ∀ loss,P s → P (onPacketLoss s loss).state) (hack : ∀ t ack,P t → P (onAckEvent t ack).state)
    (h : P s) (e : CcEvent) : P (handle onPacketLoss onAckEvent s e).state :=
  handle_logged_invariant (γ := Unit) (fun _ _ => []) (fun _ _ => []) (P := fun s _ => P s)
    (l := []) hbytes (fun loss _ => hloss loss) (fun t ack _ _ => hack t ack) h

variable {noteRtt : Controlled σ → AckEvent → Controlled σ}
  {perPacket : Controlled σ → AckPacket → Outcome Failure (Controlled σ)} {clamp : Controlled σ → Controlled σ}

/-- A property of the controller that a loss, the RTT sample and every packet keep. -/
structure Keeps (P : σ → Prop) (onPacketLoss : Controlled σ → LossEvent → Outcome Failure (Controlled σ))
    (noteRtt : Controlled σ → AckEvent → Controlled σ)
    (perPacket : Controlled σ → AckPacket → Outcome Failure (Controlled σ)) : Prop where
  loss : ∀ s loss,P s.cc → P (onPacketLoss s loss).state.cc
  note : ∀ s ack,P s.cc → P (noteRtt s ack).cc
  packet : ∀ s p,P s.cc → P (perPacket s p).state.cc

variable {P : σ → Prop}

theorem Keeps.handle (h : Keeps P onPacketLoss noteRtt perPacket) (hclamp : ∀ s,P (clamp s).cc) (hs : P s.cc)
    (e : CcEvent) : P (handle onPacketLoss (ackEventWith noteRtt perPacket clamp) s e).state.cc :=
  handle_invariant (P := fun t : Controlled σ => P t.cc) (fun _ h => h) (fun loss => h.loss s loss)
    (fun t ack ht => ackEventWith_logged_invariant noteRtt perPacket clamp (l := []) (P := fun t _ => P t.cc)
      (fun _ _ _ h => h) (fun t p _ => h.packet t p) (fun t _ _ => hclamp t) (h.note t ack ht)) hs e

theorem Keeps.thrown {E : Failure → Prop} (h : Keeps P onPacketLoss noteRtt perPacket)
    (hE : E underflowBytesInFlight) (hloss : ∀ s loss e,(onPacketLoss s loss).thrown = some e → E e)
    (hpkt : ∀ s p,P s.cc → (perPacket s p).thrown = none) (hs : P s.cc) (ackEvent : Option AckEvent)
    (lossEvent : Option LossEvent) : ∀ e,(onPacketAckOrLoss onPacketLoss
      (ackEventWith noteRtt perPacket clamp) s ackEvent lossEvent).thrown = some e → E e := by
  have hP : P (ifSome onPacketLoss s lossEvent).state.cc := by
    cases lossEvent with
    | none => exact hs
    | some loss => exact h.loss s loss hs
  refine Outcome.andThen_thrown ?_ ?_
  · cases lossEvent with
    | none => simp [ifSome]
    | some loss => exact hloss s loss
  · generalize ackEvent.filter (fun ack => ack.largestNewlyAckedPacket.isSome) = newAck
    cases newAck with
    | none => simp [ifSome]
    | some ack =>
      generalize (ifSome onPacketLoss s lossEvent).state = t at hP ⊢
      rw [ifSome,ackEventWith]
      rcases lt_or_ge (noteRtt t ack).inflightBytes ack.ackedBytes with hlt | hle
      · rw [subtractAndCheckUnderflow_eq_error hlt]
        rintro e ⟨⟩
        exact hE
      · rw [subtractAndCheckUnderflow_eq_ok hle]
        refine Outcome.andThen_thrown (Outcome.each_thrown (P := fun t : Controlled σ => P t.cc) h.packet
          (fun t p ht e he => ?_) ?_ _) (by simp)
        · simp [hpkt t p ht] at he
        · exact h.note t ack hP

end Events

theorem getWritableBytes_eq (s : Controlled σ) (w : σ → ℕ) :
    s.getWritableBytes w = .ok (if s.inflightBytes ≤ w s.cc then w s.cc-s.inflightBytes else 0) := by
  unfold getWritableBytes
  split_ifs with h h' h'
  · omega
  · rfl
  · exact subtractAndCheckUnderflow_eq_ok h'
  · omega

end Controlled

end QuicWestwood
