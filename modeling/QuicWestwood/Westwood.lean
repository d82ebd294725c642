import QuicWestwood.Run
import QuicWestwood.WestwoodCore

/-! `clock k` is the value of the `k`-th call of `Clock::now()` by the controller; the constructor makes the
first one. -/
namespace QuicWestwood

structure Westwood extends WestwoodCore where
  rttSampler : WestwoodRttSampler
  deriving DecidableEq

namespace Westwood

/-- The controller as built by its constructor, for a connection that already has
`inflight` bytes in flight. -/
def construct (clock : ℕ → ℤ) (c : CwndSettings) (inflight : ℕ) : Controlled Westwood where
  inflightBytes := inflight
  ticks := 1
  cc :=
    {WestwoodCore.construct c (clock 0) with
      rttSampler := {expiration := kWestwoodRttExpirationSeconds*10^9}}

section Calls
variable (clock : ℕ → ℤ) (fp : FloatUnit) (c : CwndSettings)

def onPacketAcked (s : Controlled Westwood) (packet : AckPacket) :
    Outcome Failure (Controlled Westwood) :=
  if s.cc.inRecovery packet.time then .done s
  else
    let w := s.cc.measure fp s.cc.rttSampler.minRtt packet.size (clock s.ticks)
    (w.grow c packet.size).within fun w =>
      {s with ticks := s.ticks+1, cc := {s.cc with toWestwoodCore := w}}

def noteRtt (s : Controlled Westwood) (ack : AckEvent) : Controlled Westwood :=
  match ack.rttSample with
  | none => s
  | some rtt =>
    {s with cc :=
     {s.cc with
       rttSampler := (s.cc.rttSampler.newRttSample rtt ack.ackTime).1
       latestRttSample := rtt}}

def clampCwnd (s : Controlled Westwood) : Controlled Westwood :=
  {s with cc := {s.cc with toWestwoodCore := s.cc.toWestwoodCore.clampCwnd c}}

def onAckEvent : Controlled Westwood → AckEvent → Outcome Failure (Controlled Westwood) :=
  Controlled.ackEventWith noteRtt (onPacketAcked clock fp c) (clampCwnd c)

def expireMinRtt (s : Controlled Westwood) : Controlled Westwood :=
  if s.cc.rttSampler.minRttExpired then
    {s with
      ticks := s.ticks+1
      cc := {s.cc with rttSampler := s.cc.rttSampler.resetRttSample (clock s.ticks)}}
  else s

/-- Mark the recovery period and cut the window to the estimated pipe. -/
def startRecovery (s : Controlled Westwood) : Controlled Westwood :=
  let target := fp.lossTarget s.cc.bandwidthEstimate (u64 s.cc.rttSampler.minRtt) % 2^64
  {s with
    ticks := s.ticks+1
    cc := {s.cc with toWestwoodCore :=
      {s.cc.toWestwoodCore with endOfRecovery := some (clock s.ticks)}.reduceTo c target}}

def resetToMinimum (s : Controlled Westwood) : Controlled Westwood :=
  {s with cc := {s.cc with toWestwoodCore := s.cc.toWestwoodCore.resetToMinimum c}}

def ifPersistent (loss : LossEvent) (s : Controlled Westwood) : Controlled Westwood :=
  if loss.persistentCongestion then resetToMinimum c s else s

def onPacketLoss (s : Controlled Westwood) (loss : LossEvent) :
    Outcome Failure (Controlled Westwood) :=
  match subtractAndCheckUnderflow s.inflightBytes loss.lostBytes with
  | .error e => .fail e s
  | .ok inflight =>
    let s := expireMinRtt clock {s with inflightBytes := inflight}
    match s.cc.isNewLoss loss with
    | .error e => .fail e s
    | .ok isNew =>
      .done (ifPersistent c loss (if isNew then startRecovery clock fp c s else s))

def handle : Controlled Westwood → CcEvent → Outcome Failure (Controlled Westwood) :=
  Controlled.handle (onPacketLoss clock fp c) (onAckEvent clock fp c)

def next (s : Controlled Westwood) (e : CcEvent) : Controlled Westwood :=
  (handle clock fp c s e).state

@[simp] lemma expireMinRtt_toWestwoodCore (s : Controlled Westwood) :
    (expireMinRtt clock s).cc.toWestwoodCore = s.cc.toWestwoodCore := by
  unfold expireMinRtt
  split_ifs <;> rfl

@[simp] lemma ifPersistent_rttSampler (loss : LossEvent) (s : Controlled Westwood) :
    (ifPersistent c loss s).cc.rttSampler = s.cc.rttSampler := by
  unfold ifPersistent
  split_ifs <;> rfl

@[simp] lemma ifPersistent_ssthresh (loss : LossEvent) (s : Controlled Westwood) :
    (ifPersistent c loss s).cc.ssthresh = s.cc.ssthresh := by
  unfold ifPersistent
  split_ifs <;> rfl

lemma startRecovery_ssthresh (s : Controlled Westwood) :
    (startRecovery clock fp c s).cc.ssthresh =
      max (fp.lossTarget s.cc.bandwidthEstimate (u64 s.cc.rttSampler.minRtt) % 2^64)
        (2*c.udpSendPacketLen % 2^64) := rfl

@[simp] lemma startRecovery_rttSampler (s : Controlled Westwood) :
    (startRecovery clock fp c s).cc.rttSampler = s.cc.rttSampler := rfl

@[simp] lemma onPacketAcked_rttSampler (s : Controlled Westwood) (packet : AckPacket) :
    (onPacketAcked clock fp c s packet).state.cc.rttSampler = s.cc.rttSampler := by
  unfold onPacketAcked
  split_ifs <;> rfl

variable {s : Controlled Westwood}

lemma onPacketAcked_of_inRecovery {packet : AckPacket} (h : s.cc.inRecovery packet.time = true) :
    onPacketAcked clock fp c s packet = .done s :=
  if_pos h

@[simp] lemma onPacketAcked_endOfRecovery (s : Controlled Westwood) (packet : AckPacket) :
    (onPacketAcked clock fp c s packet).state.cc.endOfRecovery = s.cc.endOfRecovery := by
  unfold onPacketAcked
  split_ifs <;> simp

lemma le_onPacketAcked_ticks (s : Controlled Westwood) (packet : AckPacket) :
    s.ticks ≤ (onPacketAcked clock fp c s packet).state.ticks := by
  unfold onPacketAcked
  split_ifs
  exacts [le_rfl,Nat.le_succ _]

/-- The state of a loss event once its bytes are settled and an expired minimum dropped. -/
def settleLoss (s : Controlled Westwood) (loss : LossEvent) : Controlled Westwood :=
  expireMinRtt clock {s with inflightBytes := s.inflightBytes-loss.lostBytes}

section
variable (s : Controlled Westwood) (loss : LossEvent)

@[simp] lemma settleLoss_toWestwoodCore :
    (settleLoss clock s loss).cc.toWestwoodCore = s.cc.toWestwoodCore := by
  simp [settleLoss]

lemma settleLoss_rttSampler :
    (settleLoss clock s loss).cc.rttSampler =
      if s.cc.rttSampler.minRttExpired then s.cc.rttSampler.resetRttSample (clock s.ticks)
      else s.cc.rttSampler := by
  by_cases h : s.cc.rttSampler.minRttExpired <;> simp [settleLoss,expireMinRtt,h]

lemma le_settleLoss_ticks :
    s.ticks ≤ (settleLoss clock s loss).ticks := by
  unfold settleLoss expireMinRtt
  split_ifs
  exacts [Nat.le_succ _,le_rfl]

theorem onPacketLoss_cases :
    Controlled.Answered (onPacketLoss clock fp c s loss) (s.cc.isNewLoss loss) loss.lostBytes s
      (settleLoss clock s loss) (ifPersistent c loss (startRecovery clock fp c (settleLoss clock s loss)))
      (ifPersistent c loss (settleLoss clock s loss)) := by
  rcases lt_or_ge s.inflightBytes loss.lostBytes with h | h
  · exact .inl ⟨h,by simp [onPacketLoss,subtractAndCheckUnderflow_eq_error h]⟩
  · refine .inr ⟨h,?_⟩
    simp only [onPacketLoss,subtractAndCheckUnderflow_eq_ok h,expireMinRtt_toWestwoodCore,settleLoss]
    rcases hn : s.cc.isNewLoss loss with e | _ | _ <;> simp

end

lemma onPacketLoss_of_startsRecovery {loss : LossEvent} (h : s.cc.StartsRecovery s.inflightBytes loss) :
    onPacketLoss clock fp c s loss =
      .done (ifPersistent c loss (startRecovery clock fp c (settleLoss clock s loss))) :=
  (onPacketLoss_cases clock fp c s loss).eq_done h.1 h.2

lemma onPacketLoss_of_not_startsRecovery {loss : LossEvent} (h : ¬s.cc.StartsRecovery s.inflightBytes loss) :
    (onPacketLoss clock fp c s loss).state = s ∨
      (onPacketLoss clock fp c s loss).state = settleLoss clock s loss ∨
      (onPacketLoss clock fp c s loss).state = ifPersistent c loss (settleLoss clock s loss) := by
  obtain ⟨-,hl⟩ | ⟨hle,⟨_,-,hl⟩ | ⟨hn,-⟩ | ⟨-,hl⟩⟩ := onPacketLoss_cases clock fp c s loss
  · exact .inl (by simp [hl])
  · exact .inr (.inl (by simp [hl]))
  · exact absurd ⟨hle,hn⟩ h
  · exact .inr (.inr (by simp [hl]))

lemma onPacketLoss_rttSampler {P : WestwoodRttSampler → Prop} (h : P s.cc.rttSampler)
    (hreset : ∀ t,P (s.cc.rttSampler.resetRttSample t)) (loss : LossEvent) :
    P (onPacketLoss clock fp c s loss).state.cc.rttSampler := by
  have hsettled : P (settleLoss clock s loss).cc.rttSampler := by
    rw [settleLoss_rttSampler]
    split_ifs
    exacts [hreset _,h]
  exact (onPacketLoss_cases clock fp c s loss).invariant (P := fun t => P t.cc.rttSampler) h hsettled
    (by simpa using hsettled) (by simpa using hsettled)

lemma onAckEvent_rttSampler (s : Controlled Westwood) (ack : AckEvent) :
    (onAckEvent clock fp c s ack).state.cc.rttSampler = (noteRtt s ack).cc.rttSampler := by
  refine Controlled.ackEventWith_logged_invariant noteRtt (onPacketAcked clock fp c) (clampCwnd c) (l := [])
    (P := fun t _ => t.cc.rttSampler = (noteRtt s ack).cc.rttSampler) ?_ ?_ ?_ rfl
  · exact fun _ _ _ h => h
  · exact fun _ _ _ h => by simpa using h
  · exact fun _ _ h => h

end Calls

end Westwood

end QuicWestwood
