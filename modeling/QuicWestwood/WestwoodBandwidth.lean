import QuicWestwood.Westwood
import QuicWestwood.WestwoodOWD

/-! Every call of `onPacketAcked` is logged with the state it finds. The bytes of a packet sent before the end
of the recovery period in force are left out on purpose; all other bytes are in exactly one measurement
interval, closed or current. -/
namespace QuicWestwood

namespace WestwoodCore

lemma measure_bytesAckedInCurrentInterval (fp : FloatUnit) (minRtt : ℤ) (w : WestwoodCore)
    (ackedBytes : ℕ) (now : ℤ) :
    (measure fp minRtt w ackedBytes now).bytesAckedInCurrentInterval =
      if (w.countAcked ackedBytes).closesInterval now then 0
      else (w.countAcked ackedBytes).bytesAckedInCurrentInterval := by
  unfold measure
  split_ifs <;> rfl

end WestwoodCore

/-- A call of `onPacketAcked`: what it finds, its argument and the clock. -/
structure AckedCall where
  entry : WestwoodCore
  packet : AckPacket
  now : ℤ

namespace AckedCall

def skipped (a : AckedCall) : Bool := a.entry.inRecovery a.packet.time

def countedBytes (a : AckedCall) : ℕ := if a.skipped then 0 else a.packet.size

def closureBytes (a : AckedCall) : ℕ :=
  if a.skipped then 0
  else if (a.entry.countAcked a.packet.size).closesInterval a.now then
    (a.entry.countAcked a.packet.size).bytesAckedInCurrentInterval
  else 0

def remainingBytes (a : AckedCall) : ℕ :=
  if a.skipped then a.entry.bytesAckedInCurrentInterval
  else if (a.entry.countAcked a.packet.size).closesInterval a.now then 0
  else (a.entry.countAcked a.packet.size).bytesAckedInCurrentInterval

lemma remainingBytes_of_skipped {a : AckedCall} (h : a.entry.inRecovery a.packet.time = true) :
    a.remainingBytes = a.entry.bytesAckedInCurrentInterval := if_pos h

lemma remainingBytes_of_not_skipped {a : AckedCall}
    (h : ¬a.entry.inRecovery a.packet.time = true) (fp : FloatUnit) (minRtt : ℤ) :
    a.remainingBytes = (a.entry.measure fp minRtt a.packet.size a.now).bytesAckedInCurrentInterval :=
  (if_neg h).trans (WestwoodCore.measure_bytesAckedInCurrentInterval _ _ _ _ _).symm

lemma closure_add_remaining (a : AckedCall) :
    (a.closureBytes+a.remainingBytes ≡ a.entry.bytesAckedInCurrentInterval+a.countedBytes [MOD 2^64]) ∧
    a.closureBytes+a.remainingBytes ≤ a.entry.bytesAckedInCurrentInterval+a.countedBytes := by
  unfold closureBytes remainingBytes countedBytes
  split_ifs
  · simp [Nat.ModEq]
  all_goals
    simp only [WestwoodCore.countAcked,Nat.add_zero,Nat.zero_add]
    exact ⟨Nat.mod_modEq _ _,Nat.mod_le _ _⟩

end AckedCall

/-- Closed intervals and the current one hold the counted bytes, up to the wrap of the
counter, and never more than them. -/
structure Accounts (current : ℕ) (calls : List AckedCall) : Prop where
  modEq : (calls.map AckedCall.closureBytes).sum+current ≡
    (calls.map AckedCall.countedBytes).sum [MOD 2^64]
  le : (calls.map AckedCall.closureBytes).sum+current ≤ (calls.map AckedCall.countedBytes).sum

namespace Accounts

lemma nil : Accounts 0 [] := ⟨rfl,le_rfl⟩

lemma snoc {calls : List AckedCall} {a : AckedCall}
    (h : Accounts a.entry.bytesAckedInCurrentInterval calls) :
    Accounts a.remainingBytes (calls++[a]) := by
  obtain ⟨hmod,hle⟩ := a.closure_add_remaining
  constructor
  · simp only [List.map_append,List.sum_append,List.map_cons,List.map_nil,List.sum_singleton]
    calc (calls.map AckedCall.closureBytes).sum+a.closureBytes+a.remainingBytes
        = (calls.map AckedCall.closureBytes).sum+(a.closureBytes+a.remainingBytes) := by ring
      _ ≡ (calls.map AckedCall.closureBytes).sum+(a.entry.bytesAckedInCurrentInterval+a.countedBytes)
          [MOD 2^64] := hmod.add_left _
      _ = (calls.map AckedCall.closureBytes).sum+a.entry.bytesAckedInCurrentInterval+a.countedBytes := by
          ring
      _ ≡ (calls.map AckedCall.countedBytes).sum+a.countedBytes [MOD 2^64] := h.modEq.add_right _
  · have := h.le
    simp only [List.map_append,List.sum_append,List.map_cons,List.map_nil,List.sum_singleton]
    omega

lemma eq_of_lt {current : ℕ} {calls : List AckedCall} (h : Accounts current calls)
    (hlt : (calls.map AckedCall.countedBytes).sum < 2^64) :
    (calls.map AckedCall.closureBytes).sum+current = (calls.map AckedCall.countedBytes).sum :=
  h.modEq.eq_of_lt_of_lt (h.le.trans_lt hlt) hlt

end Accounts

namespace Westwood
variable (clock : ℕ → ℤ) (fp : FloatUnit) (c : CwndSettings)

def ackedCall (x : Controlled Westwood × AckPacket) : AckedCall :=
  ⟨x.1.cc.toWestwoodCore,x.2,clock x.1.ticks⟩

def accounted : Controlled Westwood × List AckedCall → CcEvent → Controlled Westwood × List AckedCall :=
  Run.logged (next clock fp c) (Controlled.noteEvent (onPacketLoss clock fp c) (fun _ _ => [])
    fun s ack => (Controlled.ackEntriesWith noteRtt (onPacketAcked clock fp c) s ack).map (ackedCall clock))

lemma onPacketAcked_remainingBytes (s : Controlled Westwood) (packet : AckPacket) :
    (onPacketAcked clock fp c s packet).state.cc.bytesAckedInCurrentInterval =
      (ackedCall clock (s,packet)).remainingBytes := by
  by_cases h : s.cc.inRecovery packet.time = true
  · rw [AckedCall.remainingBytes_of_skipped h,onPacketAcked,if_pos h]
    rfl
  · rw [AckedCall.remainingBytes_of_not_skipped h fp s.cc.rttSampler.minRtt,onPacketAcked,if_neg h]
    exact WestwoodCore.grow_bytesAckedInCurrentInterval _ _ _

lemma onPacketLoss_bytesAckedInCurrentInterval (s : Controlled Westwood) (loss : LossEvent) :
    (onPacketLoss clock fp c s loss).state.cc.bytesAckedInCurrentInterval =
      s.cc.bytesAckedInCurrentInterval := by
  have hpersist : ∀ t,(ifPersistent c loss t).cc.bytesAckedInCurrentInterval =
      t.cc.bytesAckedInCurrentInterval := fun t => by unfold ifPersistent; split_ifs <;> rfl
  obtain ⟨-,h⟩ | ⟨-,⟨_,-,h⟩ | ⟨-,h⟩ | ⟨-,h⟩⟩ := onPacketLoss_cases clock fp c s loss
  all_goals simp [h,hpersist,startRecovery,WestwoodCore.reduceTo]

variable {clock fp c}

lemma accounted_step {x : Controlled Westwood × List AckedCall}
    (h : Accounts x.1.cc.bytesAckedInCurrentInterval x.2) (e : CcEvent) :
    Accounts (accounted clock fp c x e).1.cc.bytesAckedInCurrentInterval
      (accounted clock fp c x e).2 := by
  refine Controlled.handle_logged_invariant _ _
    (P := fun (s : Controlled Westwood) calls => Accounts s.cc.bytesAckedInCurrentInterval calls)
    (fun _ h => h) ?_ ?_ h
  · intro loss _ h
    simpa [onPacketLoss_bytesAckedInCurrentInterval] using h
  · intro t ack calls _ h
    refine Controlled.ackEventWith_logged_invariant noteRtt (onPacketAcked clock fp c) (clampCwnd c)
      (l := []) (P := fun s l => Accounts s.cc.bytesAckedInCurrentInterval
        (calls++l.map (ackedCall clock))) (fun _ _ _ h => h) ?_ (fun _ _ h => h) ?_
    · intro s packet l h
      have hsnoc := Accounts.snoc (a := ackedCall clock (s,packet)) h
      simpa [onPacketAcked_remainingBytes,← List.append_assoc] using hsnoc
    · unfold noteRtt
      split <;> simpa using h

theorem accounted_run (inflight : ℕ) (es : List CcEvent) :
    let x := Run.run (accounted clock fp c) (construct clock c inflight,[]) es
    Accounts x.1.cc.bytesAckedInCurrentInterval x.2 :=
  Run.run_invariant (P := fun x : Controlled Westwood × List AckedCall =>
    Accounts x.1.cc.bytesAckedInCurrentInterval x.2) Accounts.nil fun _ h e _ => accounted_step h e

end Westwood

namespace WestwoodOWD
variable (clock : ℕ → ℤ) (fp : DelayFloatUnit) (c : CwndSettings)

def ackedCall (x : Controlled WestwoodOWD × AckPacket) : AckedCall :=
  ⟨x.1.cc.toWestwoodCore,x.2,clock x.1.ticks⟩

def accounted : Controlled WestwoodOWD × List AckedCall → CcEvent → Controlled WestwoodOWD × List AckedCall :=
  Run.logged (next clock fp c) (Controlled.noteEvent (onPacketLoss clock fp c) (fun _ _ => [])
    fun s ack => (Controlled.ackEntriesWith noteRtt (perPacket clock fp c) s ack).map (ackedCall clock))

lemma perPacket_remainingBytes (s : Controlled WestwoodOWD) (packet : AckPacket) :
    (perPacket clock fp c s packet).state.cc.bytesAckedInCurrentInterval =
      (ackedCall clock (s,packet)).remainingBytes := by
  have hcore := updateOneWayDelay_toWestwoodCore s.cc packet
  by_cases h : s.cc.inRecovery packet.time = true
  · rw [AckedCall.remainingBytes_of_skipped h,perPacket,onPacketAcked,if_pos (by rwa [hcore])]
    simp [ackedCall]
  · rw [AckedCall.remainingBytes_of_not_skipped h fp.toFloatUnit s.cc.rttSampler.minRtt,perPacket,
      onPacketAcked,if_neg (by rwa [hcore])]
    simp [measured,ackedCall]

lemma onPacketLoss_bytesAckedInCurrentInterval (s : Controlled WestwoodOWD) (loss : LossEvent) :
    (onPacketLoss clock fp c s loss).state.cc.bytesAckedInCurrentInterval =
      s.cc.bytesAckedInCurrentInterval := by
  have hpersist : ∀ t,(ifPersistent c loss t).cc.bytesAckedInCurrentInterval =
      t.cc.bytesAckedInCurrentInterval := fun t => by unfold ifPersistent; split_ifs <;> rfl
  obtain ⟨-,h⟩ | ⟨-,⟨_,-,h⟩ | ⟨-,h⟩ | ⟨-,h⟩⟩ := onPacketLoss_cases clock fp c s loss
  all_goals simp [h,hpersist,startRecovery,WestwoodCore.reduceTo]

variable {clock fp c}

lemma accounted_step {x : Controlled WestwoodOWD × List AckedCall}
    (h : Accounts x.1.cc.bytesAckedInCurrentInterval x.2) (e : CcEvent) :
    Accounts (accounted clock fp c x e).1.cc.bytesAckedInCurrentInterval
      (accounted clock fp c x e).2 := by
  refine Controlled.handle_logged_invariant _ _
    (P := fun (s : Controlled WestwoodOWD) calls => Accounts s.cc.bytesAckedInCurrentInterval calls)
    (fun _ h => h) ?_ ?_ h
  · intro loss _ h
    simpa [onPacketLoss_bytesAckedInCurrentInterval] using h
  · intro t ack calls _ h
    refine Controlled.ackEventWith_logged_invariant noteRtt (perPacket clock fp c) (clampCwnd c)
      (l := []) (P := fun s l => Accounts s.cc.bytesAckedInCurrentInterval
        (calls++l.map (ackedCall clock))) (fun _ _ _ h => h) ?_ (fun _ _ h => h) ?_
    · intro s packet l h
      have hsnoc := Accounts.snoc (a := ackedCall clock (s,packet)) h
      simpa [perPacket_remainingBytes,← List.append_assoc] using hsnoc
    · unfold noteRtt
      split <;> simpa using h

theorem accounted_run (inflight : ℕ) (es : List CcEvent) :
    let x := Run.run (accounted clock fp c) (construct clock c inflight,[]) es
    Accounts x.1.cc.bytesAckedInCurrentInterval x.2 :=
  Run.run_invariant (P := fun x : Controlled WestwoodOWD × List AckedCall =>
    Accounts x.1.cc.bytesAckedInCurrentInterval x.2) Accounts.nil fun _ h e _ => accounted_step h e

end WestwoodOWD

end QuicWestwood
