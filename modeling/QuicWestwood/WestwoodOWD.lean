import QuicWestwood.Run
import QuicWestwood.WestwoodCore

/-! Westwood with a running one-way delay, fed by the receive timestamps of acked packets, that cuts the window
when the delay passes a fraction of the queue the path is known to hold. The clock reading that
`updateOneWayDelay` only prints is left out. -/
namespace QuicWestwood

structure WestwoodOWDRttSampler extends WestwoodRttSampler where
  maxRttSinceLastLoss : ℤ := 0
  deriving DecidableEq

/-- Every sample is reported as new, whether or not it lowers the minimum. -/
def WestwoodOWDRttSampler.newRttSample (r : WestwoodOWDRttSampler) (rttSample sampledTime : ℤ) :
    WestwoodOWDRttSampler × Bool :=
  ({toWestwoodRttSampler := (r.toWestwoodRttSampler.newRttSample rttSample sampledTime).1
    maxRttSinceLastLoss := max r.maxRttSinceLastLoss rttSample},true)

def WestwoodOWDRttSampler.resetRttSample (r : WestwoodOWDRttSampler) (sampledTime : ℤ) :
    WestwoodOWDRttSampler :=
  {r with toWestwoodRttSampler := r.toWestwoodRttSampler.resetRttSample sampledTime}

/-- The floating-point steps of the delay control, besides the shared ones. -/
structure DelayFloatUnit extends FloatUnit where
  /-- a 64-bit product `/ 1.0e6` as `uint64_t` -/
  perMillion : ℕ → ℕ
  /-- `owd > 0.8 * range` -/
  delayExceeds : ℤ → ℕ → Bool

def DelayFloatUnit.exact (undef : ℕ → ℕ) : DelayFloatUnit where
  toFloatUnit := .exact undef (fun _ => 1/4) 40000
  perMillion n := n/10^6
  delayExceeds owd range := decide (8*(range : ℤ) < 10*owd)

/-- `steady_clock::time_point::min()`, the mark for "no packet seen". -/
def timePointMin : ℤ := -2^63

structure WestwoodOWD extends WestwoodCore where
  rttSampler : WestwoodOWDRttSampler
  latestSendTimeStamp : ℤ := timePointMin
  latestReceiveTimeStamp : ℤ := 0
  interDeparture : ℤ := 0
  interArrival : ℤ := 0
  owdv : ℤ := 0
  owd : ℤ := 0
  lossMaxRtt : ℤ := 250000
  deriving DecidableEq

namespace WestwoodOWD

def construct (clock : ℕ → ℤ) (c : CwndSettings) (inflight : ℕ) : Controlled WestwoodOWD where
  inflightBytes := inflight
  ticks := 1
  cc :=
    {WestwoodCore.construct c (clock 0) with
      rttSampler := {expiration := kWestwoodRttExpirationSeconds*10^9}}

def isFirstPacket (w : WestwoodOWD) : Bool := decide (w.latestSendTimeStamp=timePointMin)

/-- A send gap in nanoseconds becomes whole microseconds, towards zero. -/
def updateOneWayDelay (w : WestwoodOWD) (packet : AckPacket) : WestwoodOWD :=
  match packet.receiveRelativeTimeStampUsec with
  | none => w
  | some receive =>
    if w.isFirstPacket then
      {w with latestReceiveTimeStamp := receive, latestSendTimeStamp := packet.time}
    else
      let interDeparture := (packet.time-w.latestSendTimeStamp).tdiv 1000
      let interArrival := receive-w.latestReceiveTimeStamp
      let owdv := interArrival-interDeparture
      {w with
        interDeparture, interArrival, owdv
        latestSendTimeStamp := packet.time
        latestReceiveTimeStamp := receive
        owd := max 0 (w.owd+owdv)}

def resetDelay (w : WestwoodOWD) : WestwoodOWD := {w with owd := 0, owdv := 0}

section Calls
variable (clock : ℕ → ℤ) (fp : DelayFloatUnit) (c : CwndSettings)

def delayControl (w : WestwoodOWD) : Bool :=
  if w.lossMaxRtt=0 then false
  else
    let rttMinUs := u64 w.rttSampler.minRtt
    decide (rttMinUs < u64 w.lossMaxRtt) && fp.delayExceeds w.owd (u64 w.lossMaxRtt-rttMinUs)

def delayReaction (w : WestwoodOWD) : WestwoodOWD :=
  if w.delayControl fp then
    let rttMinUs := u64 w.rttSampler.minRtt
    let target := fp.perMillion (w.bandwidthEstimate*rttMinUs % 2^64) % 2^64
    {w with toWestwoodCore := w.toWestwoodCore.reduceTo c target}.resetDelay
  else w

/-- The bandwidth measurement and the delay reaction to an acked packet. -/
def measured (s : Controlled WestwoodOWD) (packet : AckPacket) : WestwoodOWD :=
  let core := s.cc.measure fp.toFloatUnit s.cc.rttSampler.minRtt packet.size (clock s.ticks)
  delayReaction fp c {s.cc with toWestwoodCore := core}

def onPacketAcked (s : Controlled WestwoodOWD) (packet : AckPacket) :
    Outcome Failure (Controlled WestwoodOWD) :=
  if s.cc.inRecovery packet.time then .done s
  else
    ((measured clock fp c s packet).toWestwoodCore.grow c packet.size).within fun core =>
      {s with
        ticks := s.ticks+1
        cc := {measured clock fp c s packet with toWestwoodCore := core}}

def perPacket (s : Controlled WestwoodOWD) (packet : AckPacket) :
    Outcome Failure (Controlled WestwoodOWD) :=
  onPacketAcked clock fp c {s with cc := s.cc.updateOneWayDelay packet} packet

def noteRtt (s : Controlled WestwoodOWD) (ack : AckEvent) : Controlled WestwoodOWD :=
  match ack.rttSample with
  | none => s
  | some rtt =>
    {s with cc :=
     {s.cc with
       rttSampler := (s.cc.rttSampler.newRttSample rtt ack.ackTime).1
       latestRttSample := rtt}}

def clampCwnd (s : Controlled WestwoodOWD) : Controlled WestwoodOWD :=
  {s with cc := {s.cc with toWestwoodCore := s.cc.toWestwoodCore.clampCwnd c}}

def onAckEvent : Controlled WestwoodOWD → AckEvent → Outcome Failure (Controlled WestwoodOWD) :=
  Controlled.ackEventWith noteRtt (perPacket clock fp c) (clampCwnd c)

def expireMinRtt (s : Controlled WestwoodOWD) : Controlled WestwoodOWD :=
  if s.cc.rttSampler.minRttExpired then
    {s with
      ticks := s.ticks+1
      cc := {s.cc with rttSampler := s.cc.rttSampler.resetRttSample (clock s.ticks)}}
  else s

/-- As in Westwood, with a margin on the min RTT that is part of `fp.lossTarget`. -/
def startRecovery (s : Controlled WestwoodOWD) : Controlled WestwoodOWD :=
  let target := fp.lossTarget s.cc.bandwidthEstimate (u64 s.cc.rttSampler.minRtt) % 2^64
  {s with
    ticks := s.ticks+1
    cc := {s.cc with toWestwoodCore :=
      {s.cc.toWestwoodCore with endOfRecovery := some (clock s.ticks)}.reduceTo c target}}

def resetToMinimum (s : Controlled WestwoodOWD) : Controlled WestwoodOWD :=
  {s with cc := {s.cc with toWestwoodCore := s.cc.toWestwoodCore.resetToMinimum c}}

def ifPersistent (loss : LossEvent) (s : Controlled WestwoodOWD) : Controlled WestwoodOWD :=
  if loss.persistentCongestion then resetToMinimum c s else s

def onPacketLoss (s : Controlled WestwoodOWD) (loss : LossEvent) :
    Outcome Failure (Controlled WestwoodOWD) :=
  match subtractAndCheckUnderflow s.inflightBytes loss.lostBytes with
  | .error e => .fail e s
  | .ok inflight =>
    let s := expireMinRtt clock {s with inflightBytes := inflight, cc := s.cc.resetDelay}
    match s.cc.isNewLoss loss with
    | .error e => .fail e s
    | .ok isNew =>
      .done (ifPersistent c loss (if isNew then startRecovery clock fp c s else s))

def handle : Controlled WestwoodOWD → CcEvent → Outcome Failure (Controlled WestwoodOWD) :=
  Controlled.handle (onPacketLoss clock fp c) (onAckEvent clock fp c)

def next (s : Controlled WestwoodOWD) (e : CcEvent) : Controlled WestwoodOWD :=
  (handle clock fp c s e).state

variable (w : WestwoodOWD)

@[simp] lemma updateOneWayDelay_toWestwoodCore (packet : AckPacket) :
    (w.updateOneWayDelay packet).toWestwoodCore = w.toWestwoodCore := by
  unfold updateOneWayDelay
  split
  · rfl
  · split_ifs <;> rfl

@[simp] lemma updateOneWayDelay_rttSampler (packet : AckPacket) :
    (w.updateOneWayDelay packet).rttSampler = w.rttSampler := by
  unfold updateOneWayDelay
  split
  · rfl
  · split_ifs <;> rfl

@[simp] lemma updateOneWayDelay_lossMaxRtt (packet : AckPacket) :
    (w.updateOneWayDelay packet).lossMaxRtt = w.lossMaxRtt := by
  unfold updateOneWayDelay
  split
  · rfl
  · split_ifs <;> rfl

@[simp] lemma delayReaction_rttSampler : (w.delayReaction fp c).rttSampler = w.rttSampler := by
  unfold delayReaction
  split_ifs <;> rfl

@[simp] lemma delayReaction_bytesAckedInCurrentInterval :
    (w.delayReaction fp c).bytesAckedInCurrentInterval = w.bytesAckedInCurrentInterval := by
  unfold delayReaction
  split_ifs <;> rfl

variable (s : Controlled WestwoodOWD)

@[simp] lemma expireMinRtt_toWestwoodCore : (expireMinRtt clock s).cc.toWestwoodCore = s.cc.toWestwoodCore := by
  unfold expireMinRtt
  split_ifs <;> rfl

@[simp] lemma ifPersistent_rttSampler (loss : LossEvent) (s : Controlled WestwoodOWD) :
    (ifPersistent c loss s).cc.rttSampler = s.cc.rttSampler := by
  unfold ifPersistent
  split_ifs <;> rfl

@[simp] lemma ifPersistent_ssthresh (loss : LossEvent) (s : Controlled WestwoodOWD) :
    (ifPersistent c loss s).cc.ssthresh = s.cc.ssthresh := by
  unfold ifPersistent
  split_ifs <;> rfl

lemma startRecovery_ssthresh : (startRecovery clock fp c s).cc.ssthresh =
      max (fp.lossTarget s.cc.bandwidthEstimate (u64 s.cc.rttSampler.minRtt) % 2^64)
        (2*c.udpSendPacketLen % 2^64) := rfl

@[simp] lemma startRecovery_rttSampler : (startRecovery clock fp c s).cc.rttSampler = s.cc.rttSampler := rfl

@[simp] lemma onPacketAcked_rttSampler (packet : AckPacket) :
    (onPacketAcked clock fp c s packet).state.cc.rttSampler = s.cc.rttSampler := by
  unfold onPacketAcked measured
  split_ifs <;> simp

/-- The state of a loss event once its bytes are settled, the delay is forgotten and an
expired minimum is dropped. -/
def settleLoss (s : Controlled WestwoodOWD) (loss : LossEvent) : Controlled WestwoodOWD :=
  expireMinRtt clock
    {s with inflightBytes := s.inflightBytes-loss.lostBytes, cc := s.cc.resetDelay}

@[simp] lemma settleLoss_toWestwoodCore (loss : LossEvent) :
    (settleLoss clock s loss).cc.toWestwoodCore = s.cc.toWestwoodCore := by
  simp [settleLoss,resetDelay]

lemma settleLoss_rttSampler (loss : LossEvent) : (settleLoss clock s loss).cc.rttSampler =
      if s.cc.rttSampler.minRttExpired then s.cc.rttSampler.resetRttSample (clock s.ticks)
      else s.cc.rttSampler := by
  by_cases h : s.cc.rttSampler.minRttExpired <;> simp [settleLoss,expireMinRtt,h,resetDelay]

theorem onPacketLoss_cases (loss : LossEvent) :
    Controlled.Answered (onPacketLoss clock fp c s loss) (s.cc.isNewLoss loss) loss.lostBytes s
      (settleLoss clock s loss) (ifPersistent c loss (startRecovery clock fp c (settleLoss clock s loss)))
      (ifPersistent c loss (settleLoss clock s loss)) := by
  rcases lt_or_ge s.inflightBytes loss.lostBytes with h | h
  · exact .inl ⟨h,by simp [onPacketLoss,subtractAndCheckUnderflow_eq_error h]⟩
  · refine .inr ⟨h,?_⟩
    simp only [onPacketLoss,subtractAndCheckUnderflow_eq_ok h,expireMinRtt_toWestwoodCore,
      settleLoss,resetDelay]
    rcases hn : s.cc.isNewLoss loss with e | _ | _ <;> simp

lemma onPacketLoss_of_startsRecovery {s : Controlled WestwoodOWD} {loss : LossEvent}
    (h : s.cc.StartsRecovery s.inflightBytes loss) : onPacketLoss clock fp c s loss =
      .done (ifPersistent c loss (startRecovery clock fp c (settleLoss clock s loss))) :=
  (onPacketLoss_cases clock fp c s loss).eq_done h.1 h.2

lemma onPacketLoss_rttSampler {P : WestwoodRttSampler → Prop} (h : P s.cc.rttSampler.toWestwoodRttSampler)
    (hreset : ∀ t,P (s.cc.rttSampler.toWestwoodRttSampler.resetRttSample t)) (loss : LossEvent) :
    P (onPacketLoss clock fp c s loss).state.cc.rttSampler.toWestwoodRttSampler := by
  have hsettled : P (settleLoss clock s loss).cc.rttSampler.toWestwoodRttSampler := by
    rw [settleLoss_rttSampler]
    split_ifs
    exacts [hreset _,h]
  exact (onPacketLoss_cases clock fp c s loss).invariant (P := fun t => P t.cc.rttSampler.toWestwoodRttSampler) h
    hsettled (by simpa using hsettled) (by simpa using hsettled)

lemma onAckEvent_rttSampler (ack : AckEvent) :
    (onAckEvent clock fp c s ack).state.cc.rttSampler = (noteRtt s ack).cc.rttSampler := by
  refine Controlled.ackEventWith_logged_invariant noteRtt (perPacket clock fp c) (clampCwnd c) (l := [])
    (P := fun t _ => t.cc.rttSampler = (noteRtt s ack).cc.rttSampler) ?_ ?_ ?_ rfl
  · exact fun _ _ _ h => h
  · exact fun _ _ _ h => by simpa [perPacket] using h
  · exact fun _ _ h => h

end Calls

end WestwoodOWD

end QuicWestwood
