import QuicWestwood.Westwood
import QuicWestwood.WestwoodOWD

/-! Every write of `cwndBytes_` ends in `boundedCwnd`, so with sensible settings the window never leaves
`[minCwndInMss, maxCwndInMss]` packets, whatever the floating-point unit computes; it is then never zero and far
from overflow. -/
namespace QuicWestwood
open Controlled

/-- Window limits that describe a window and fit their type. -/
structure CwndSettings.Sane (c : CwndSettings) : Prop where
  packetLen : 1 ≤ c.udpSendPacketLen
  one_le_min : 1 ≤ c.minCwndInMss
  min_le_max : c.minCwndInMss ≤ c.maxCwndInMss
  max_lt : c.maxCwndInMss*c.udpSendPacketLen < 2^63

def CwndSettings.Within (c : CwndSettings) (n : ℕ) : Prop :=
  c.minCwndInMss*c.udpSendPacketLen ≤ n ∧ n ≤ c.maxCwndInMss*c.udpSendPacketLen

variable {c : CwndSettings}

lemma CwndSettings.Sane.bounded (hc : c.Sane) (n : ℕ) : c.Within (c.bounded n) := by
  have hle : c.minCwndInMss*c.udpSendPacketLen ≤ c.maxCwndInMss*c.udpSendPacketLen :=
    Nat.mul_le_mul_right _ hc.min_le_max
  have hlt := hc.max_lt
  simp only [Within,CwndSettings.bounded,boundedCwnd]
  rw [Nat.mod_eq_of_lt (by omega),Nat.mod_eq_of_lt (by omega)]
  omega

lemma CwndSettings.Sane.pos (hc : c.Sane) {n : ℕ} (h : c.Within n) : 0<n :=
  (Nat.mul_pos hc.one_le_min hc.packetLen).trans_le h.1

/-- A property that `boundedCwnd` establishes holds of every value the window takes. -/
def CwndSettings.Established (c : CwndSettings) (Q : ℕ → Prop) : Prop := ∀ n,Q (c.bounded n)

variable {Q : ℕ → Prop}

namespace WestwoodCore
variable {w : WestwoodCore}

lemma addToCwnd_cwndBytes (hQ : c.Established Q) (h : Q w.cwndBytes) (n : ℕ) :
    Q (w.addToCwnd c n).state.cwndBytes := by
  unfold addToCwnd
  split
  exacts [h,hQ _]

lemma grow_cwndBytes (hQ : c.Established Q) (h : Q w.cwndBytes) (n : ℕ) :
    Q (w.grow c n).state.cwndBytes := by
  unfold grow
  split_ifs
  exacts [addToCwnd_cwndBytes hQ h _,h,addToCwnd_cwndBytes hQ h _]

lemma addToCwnd_thrown (hc : c.Sane) (h : c.Within w.cwndBytes) {n : ℕ} (hn : n < 2^63) :
    (w.addToCwnd c n).thrown = none := by
  have hmax := hc.max_lt
  have hle := h.2
  rw [addToCwnd,addAndCheckOverflow_eq_ok (by omega)]
  rfl

/-- Inside the limits neither phase of the growth can divide by zero or overflow. -/
theorem grow_thrown (hc : c.Sane) (h : c.Within w.cwndBytes) {n : ℕ} (hn : n < 2^16) :
    (w.grow c n).thrown = none := by
  have hpos := hc.pos h
  unfold grow
  split_ifs with hss hz
  · exact addToCwnd_thrown hc h (by omega)
  · omega
  · refine addToCwnd_thrown hc h ?_
    have hle := Nat.div_le_self (kDefaultUDPSendPacketLen*n % 2^64) w.cwndBytes
    have hmod := Nat.mod_le (kDefaultUDPSendPacketLen*n) (2^64)
    simp only [kDefaultUDPSendPacketLen] at hle hmod ⊢
    omega

lemma isNewLoss_error {loss : LossEvent} {e : Failure} (h : w.isNewLoss loss = .error e) :
    e = .optionalEmptyException := by
  unfold isNewLoss at h
  split at h <;> cases h
  rfl

end WestwoodCore

namespace Westwood
variable {clock : ℕ → ℤ} {fp : FloatUnit} {s : Controlled Westwood}

lemma onPacketAcked_cwndBytes (hQ : c.Established Q) (h : Q s.cc.cwndBytes) (packet : AckPacket) :
    Q (onPacketAcked clock fp c s packet).state.cc.cwndBytes := by
  unfold onPacketAcked
  split_ifs
  · exact h
  · exact WestwoodCore.grow_cwndBytes hQ (by simpa using h) _

lemma onPacketAcked_thrown (hc : c.Sane) (h : c.Within s.cc.cwndBytes) (packet : AckPacket) :
    (onPacketAcked clock fp c s packet).thrown = none := by
  unfold onPacketAcked
  split_ifs
  · rfl
  · exact WestwoodCore.grow_thrown hc (by simpa using h) packet.size_lt

lemma onPacketLoss_cwndBytes (hQ : c.Established Q) (h : Q s.cc.cwndBytes) (loss : LossEvent) :
    Q (onPacketLoss clock fp c s loss).state.cc.cwndBytes := by
  have hpersist : ∀ t,Q t.cc.cwndBytes → Q (ifPersistent c loss t).cc.cwndBytes := by
    intro t ht
    unfold ifPersistent
    split_ifs
    exacts [hQ _,ht]
  have hsettled : Q (settleLoss clock s loss).cc.cwndBytes := by simpa using h
  exact (onPacketLoss_cases clock fp c s loss).invariant (P := fun t => Q t.cc.cwndBytes) h hsettled
    (hpersist _ (hQ _)) (hpersist _ hsettled)

@[simp] lemma noteRtt_cwndBytes (s : Controlled Westwood) (ack : AckEvent) :
    (noteRtt s ack).cc.cwndBytes = s.cc.cwndBytes := by
  unfold noteRtt
  split <;> rfl

lemma keeps_cwndBytes (hQ : c.Established Q) :
    Keeps (fun w : Westwood => Q w.cwndBytes) (onPacketLoss clock fp c) noteRtt (onPacketAcked clock fp c) :=
  ⟨fun _ loss h => onPacketLoss_cwndBytes hQ h loss,fun _ _ h => by simpa using h,
    fun _ packet h => onPacketAcked_cwndBytes hQ h packet⟩

theorem next_cwndBytes (hQ : c.Established Q) (h : Q s.cc.cwndBytes) (e : CcEvent) :
    Q (next clock fp c s e).cc.cwndBytes := (keeps_cwndBytes hQ).handle (fun _ => hQ _) h e

theorem run_cwndBytes (clock : ℕ → ℤ) (fp : FloatUnit) (hQ : c.Established Q) (inflight : ℕ)
    (es : List CcEvent) :
    Q (Run.run (next clock fp c) (construct clock c inflight) es).cc.cwndBytes :=
  Run.run_invariant (P := fun t : Controlled Westwood => Q t.cc.cwndBytes) (hQ _)
    fun _ h e _ => next_cwndBytes hQ h e

theorem onPacketAckOrLoss_thrown (hc : c.Sane) (h : c.Within s.cc.cwndBytes)
    (ack : Option AckEvent) (loss : Option LossEvent) :
    ∀ e,(handle clock fp c s (.packetAckOrLoss ack loss)).thrown = some e →
      e = underflowBytesInFlight ∨ e = .optionalEmptyException := by
  refine (keeps_cwndBytes hc.bounded).thrown (.inl rfl) (fun t loss e he => ?_)
    (fun _ packet h => onPacketAcked_thrown hc h packet) h ack loss
  exact ((onPacketLoss_cases clock fp c t loss).thrown he).imp_right WestwoodCore.isNewLoss_error

end Westwood

namespace WestwoodOWD
variable {clock : ℕ → ℤ} {fp : DelayFloatUnit} {s : Controlled WestwoodOWD}

lemma delayReaction_cwndBytes (hQ : c.Established Q) {w : WestwoodOWD} (h : Q w.cwndBytes) :
    Q (w.delayReaction fp c).cwndBytes := by
  unfold delayReaction
  split_ifs
  exacts [hQ _,h]

lemma measured_cwndBytes (hQ : c.Established Q) (h : Q s.cc.cwndBytes) (packet : AckPacket) :
    Q (measured clock fp c s packet).cwndBytes :=
  delayReaction_cwndBytes hQ (by simpa using h)

lemma perPacket_cwndBytes (hQ : c.Established Q) (h : Q s.cc.cwndBytes) (packet : AckPacket) :
    Q (perPacket clock fp c s packet).state.cc.cwndBytes := by
  unfold perPacket onPacketAcked
  split_ifs
  · simpa using h
  · exact WestwoodCore.grow_cwndBytes hQ (measured_cwndBytes hQ (by simpa using h) _) _

lemma perPacket_thrown (hc : c.Sane) (h : c.Within s.cc.cwndBytes) (packet : AckPacket) :
    (perPacket clock fp c s packet).thrown = none := by
  unfold perPacket onPacketAcked
  split_ifs
  · rfl
  · exact WestwoodCore.grow_thrown hc (measured_cwndBytes hc.bounded (by simpa using h) _)
      packet.size_lt

lemma onPacketLoss_cwndBytes (hQ : c.Established Q) (h : Q s.cc.cwndBytes) (loss : LossEvent) :
    Q (onPacketLoss clock fp c s loss).state.cc.cwndBytes := by
  have hpersist : ∀ t,Q t.cc.cwndBytes → Q (ifPersistent c loss t).cc.cwndBytes := by
    intro t ht
    unfold ifPersistent
    split_ifs
    exacts [hQ _,ht]
  have hsettled : Q (settleLoss clock s loss).cc.cwndBytes := by simpa using h
  exact (onPacketLoss_cases clock fp c s loss).invariant (P := fun t => Q t.cc.cwndBytes) h hsettled
    (hpersist _ (hQ _)) (hpersist _ hsettled)

@[simp] lemma noteRtt_cwndBytes (s : Controlled WestwoodOWD) (ack : AckEvent) :
    (noteRtt s ack).cc.cwndBytes = s.cc.cwndBytes := by
  unfold noteRtt
  split <;> rfl

lemma keeps_cwndBytes (hQ : c.Established Q) :
    Keeps (fun w : WestwoodOWD => Q w.cwndBytes) (onPacketLoss clock fp c) noteRtt (perPacket clock fp c) :=
  ⟨fun _ loss h => onPacketLoss_cwndBytes hQ h loss,fun _ _ h => by simpa using h,
    fun _ packet h => perPacket_cwndBytes hQ h packet⟩

theorem next_cwndBytes (hQ : c.Established Q) (h : Q s.cc.cwndBytes) (e : CcEvent) :
    Q (next clock fp c s e).cc.cwndBytes := (keeps_cwndBytes hQ).handle (fun _ => hQ _) h e

theorem run_cwndBytes (clock : ℕ → ℤ) (fp : DelayFloatUnit) (hQ : c.Established Q) (inflight : ℕ)
    (es : List CcEvent) :
    Q (Run.run (next clock fp c) (construct clock c inflight) es).cc.cwndBytes :=
  Run.run_invariant (P := fun t : Controlled WestwoodOWD => Q t.cc.cwndBytes) (hQ _)
    fun _ h e _ => next_cwndBytes hQ h e

theorem onPacketAckOrLoss_thrown (hc : c.Sane) (h : c.Within s.cc.cwndBytes)
    (ack : Option AckEvent) (loss : Option LossEvent) :
    ∀ e,(handle clock fp c s (.packetAckOrLoss ack loss)).thrown = some e →
      e = underflowBytesInFlight ∨ e = .optionalEmptyException := by
  refine (keeps_cwndBytes hc.bounded).thrown (.inl rfl) (fun t loss e he => ?_)
    (fun _ packet h => perPacket_thrown hc h packet) h ack loss
  exact ((onPacketLoss_cases clock fp c t loss).thrown he).imp_right WestwoodCore.isNewLoss_error

end WestwoodOWD

/-- What the transport relies on in a state: the window is within its limits, the next
ack or loss neither divides by zero nor overflows the window, and the writable bytes are
what the window leaves. -/
structure WindowOk {σ : Type*} (c : CwndSettings) (getCongestionWindow : σ → ℕ)
    (handle : Controlled σ → CcEvent → Outcome Failure (Controlled σ)) (s : Controlled σ) :
    Prop where
  within : c.Within (getCongestionWindow s.cc)
  no_overflow : ∀ ack loss,(handle s (.packetAckOrLoss ack loss)).thrown ∉
    [some .divisionByZero,some overflowBytesInFlight]
  writable : s.getWritableBytes getCongestionWindow = .ok (if s.inflightBytes ≤ getCongestionWindow s.cc then
      getCongestionWindow s.cc-s.inflightBytes else 0)

private lemma not_mem_overflows {t : Option Failure}
    (ht : ∀ e,t = some e → e=underflowBytesInFlight ∨ e = .optionalEmptyException) :
    t ∉ [some .divisionByZero,some overflowBytesInFlight] := by
  rcases t with _ | e
  · simp
  · rcases ht e rfl with rfl | rfl <;> decide

/-- After the constructor and after every event of a run the window is in order. -/
theorem window_invariant (hc : c.Sane) (clock : ℕ → ℤ) (fp : FloatUnit) (fp' : DelayFloatUnit)
    (inflight : ℕ) (es : List CcEvent) :
    WindowOk c (·.cwndBytes) (Westwood.handle clock fp c)
      (Run.run (Westwood.next clock fp c) (Westwood.construct clock c inflight) es) ∧
    WindowOk c (·.cwndBytes) (WestwoodOWD.handle clock fp' c)
      (Run.run (WestwoodOWD.next clock fp' c) (WestwoodOWD.construct clock c inflight) es) := by
  have hw := Westwood.run_cwndBytes clock fp hc.bounded inflight es
  have ho := WestwoodOWD.run_cwndBytes clock fp' hc.bounded inflight es
  exact ⟨⟨hw,fun ack loss => not_mem_overflows (Westwood.onPacketAckOrLoss_thrown hc hw ack loss),
      getWritableBytes_eq _ _⟩,
    ⟨ho,fun ack loss => not_mem_overflows (WestwoodOWD.onPacketAckOrLoss_thrown hc ho ack loss),
      getWritableBytes_eq _ _⟩⟩

theorem window_invariant_default :
    WindowOk {} (·.cwndBytes) (Westwood.handle (fun k => k) ⟨0,0,0,0⟩ {})
      (Run.run (Westwood.next (fun k => k) ⟨0,0,0,0⟩ {}) (Westwood.construct (fun k => k) {} 2000)
        [.lossOfOne 5 0,.ackOfOne 7 100]) :=
  (window_invariant ⟨by decide,by decide,by decide,by decide⟩ (fun k => k) ⟨0,0,0,0⟩
    (.exact fun _ => 0) 2000 [.lossOfOne 5 0,.ackOfOne 7 100]).1

end QuicWestwood
