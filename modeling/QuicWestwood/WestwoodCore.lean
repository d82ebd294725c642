import QuicWestwood.CongestionControl

/-! The two controllers share their bandwidth measurement, their window growth, their reaction to a loss and the
min-RTT sampler. Each piece is named here once; the controllers assemble them in the order of their own source.
-/
namespace QuicWestwood

/-- `std::chrono::microseconds::max()`, the sampler's mark for "no sample". -/
def microsecondsMax : ℤ := 2^63-1

/-- Arithmetic the code leaves to the floating-point unit. Converting a value that is
out of range is undefined, so any result is possible; the callers reduce it to its type. -/
structure FloatUnit where
  /-- `bytes / (delta / 1e6)` as `uint64_t` -/
  rate64 : ℕ → ℕ → ℕ
  /-- `bytes / (delta / 1e6)` as `uint32_t` -/
  rate32 : ℕ → ℕ → ℕ
  /-- `westwoodLowPassFilter` at a value of `step_` -/
  lowPass : ℕ → ℕ → ℕ → ℕ
  /-- estimate and min RTT to the `uint64_t` that `onPacketLoss` aims at -/
  lossTarget : ℕ → ℕ → ℕ

/-- Truncating conversion of a non-negative value to `w` bits. -/
def truncTo (undef : ℕ → ℕ) (w n : ℕ) : ℕ := if n < 2^w then n else undef n

/-- The floating-point unit read as exact arithmetic; `margin` microseconds are added
to the min RTT, `coef` is the filter coefficient at each step. -/
def FloatUnit.exact (undef : ℕ → ℕ) (coef : ℕ → ℚ) (margin : ℕ) : FloatUnit where
  rate64 bytes delta :=
    if delta=0 then undef bytes else truncTo undef 64 (bytes*10^6/delta)
  rate32 bytes delta :=
    if delta=0 then undef bytes else truncTo undef 32 (bytes*10^6/delta)
  lowPass step a b := truncTo undef 32 ⌊coef step*a+(1-coef step)*b⌋₊
  lossTarget bandwidth rtt := truncTo undef 64 (bandwidth*(rtt+margin)/10^6)

structure WestwoodRttSampler where
  expiration : ℤ
  minRtt : ℤ := microsecondsMax
  minRttTimestamp : Option ℤ := none
  rttExpired : Bool := true
  deriving DecidableEq

namespace WestwoodRttSampler

def minRttExpired (r : WestwoodRttSampler) : Bool := r.rttExpired

def newRttSample (r : WestwoodRttSampler) (rttSample sampledTime : ℤ) :
    WestwoodRttSampler × Bool :=
  let expired := match r.minRttTimestamp with
    | some t => decide (t+r.expiration < sampledTime)
    | none => false
  if expired=true ∨ rttSample < r.minRtt then
    ({r with minRtt := rttSample, minRttTimestamp := some sampledTime, rttExpired := expired},true)
  else ({r with rttExpired := expired},false)

def resetRttSample (r : WestwoodRttSampler) (sampledTime : ℤ) : WestwoodRttSampler :=
  {r with minRtt := microsecondsMax, minRttTimestamp := some sampledTime, rttExpired := true}

lemma newRttSample_cases (r : WestwoodRttSampler) (s t : ℤ) :
    (r.newRttSample s t).1.minRtt = s ∨ ((r.newRttSample s t).1.minRtt = r.minRtt ∧ r.minRtt ≤ s ∧
        (r.newRttSample s t).1.rttExpired = false) := by
  simp only [newRttSample]
  split_ifs with h
  · exact .inl rfl
  · push Not at h
    exact .inr ⟨rfl,h.2,by simpa using h.1⟩

end WestwoodRttSampler

structure WestwoodCore where
  rttWindowStartTime : ℤ
  latestRttSample : ℤ
  bandwidthNewestEstimate : ℕ := 0
  bandwidthEstimate : ℕ := 0
  step : ℕ := 0
  bytesAckedInCurrentInterval : ℕ := 0
  ssthresh : ℕ := 2^64-1
  cwndBytes : ℕ
  endOfRecovery : Option ℤ := none
  deriving DecidableEq

def kWestwoodMinRttMicroseconds : ℕ := 50000
def kWestwoodInitialRttMicroseconds : ℤ := 20000000
def kWestwoodRttExpirationSeconds : ℤ := 20

namespace WestwoodCore

def construct (c : CwndSettings) (now : ℤ) : WestwoodCore where
  rttWindowStartTime := now
  latestRttSample := kWestwoodInitialRttMicroseconds
  cwndBytes := c.bounded (c.initCwndInMss*c.udpSendPacketLen % 2^64)

def inRecovery (w : WestwoodCore) (sentTime : ℤ) : Bool :=
  match w.endOfRecovery with
  | some t => decide (sentTime<t)
  | none => false

def delta (w : WestwoodCore) (now : ℤ) : ℕ := u64 ((now-w.rttWindowStartTime).tdiv 1000)

def closesInterval (w : WestwoodCore) (now : ℤ) : Bool :=
  decide (max (u64 w.latestRttSample) kWestwoodMinRttMicroseconds < w.delta now)

/-- The argument is a `uint32_t`: the caller's 64-bit interval is truncated. -/
def updateWestwoodBandwidthEstimates (fp : FloatUnit) (minRtt : ℤ) (w : WestwoodCore)
    (delta : ℕ) : WestwoodCore :=
  if minRtt=microsecondsMax then w
  else
    let bwNsEst :=
      if w.bandwidthNewestEstimate=0 ∧ w.bandwidthEstimate=0 then
        fp.rate64 w.bytesAckedInCurrentInterval delta % 2^64
      else
        fp.lowPass w.step w.bandwidthNewestEstimate
          (fp.rate32 w.bytesAckedInCurrentInterval delta % 2^32) % 2^32
    {w with
      bandwidthNewestEstimate := bwNsEst % 2^32
      bandwidthEstimate :=
        fp.lowPass w.step w.bandwidthEstimate (bwNsEst % 2^32) % 2^32}

def closeInterval (fp : FloatUnit) (minRtt : ℤ) (w : WestwoodCore) (now : ℤ) : WestwoodCore :=
  let w' := updateWestwoodBandwidthEstimates fp minRtt {w with step := (w.step+1) % 2^32}
    (w.delta now % 2^32)
  {w' with rttWindowStartTime := now, bytesAckedInCurrentInterval := 0}

def countAcked (w : WestwoodCore) (ackedBytes : ℕ) : WestwoodCore :=
  {w with bytesAckedInCurrentInterval := (w.bytesAckedInCurrentInterval+ackedBytes) % 2^64}

/-- Count an acked packet and close the measurement interval when it has run long enough. -/
def measure (fp : FloatUnit) (minRtt : ℤ) (w : WestwoodCore) (ackedBytes : ℕ) (now : ℤ) :
    WestwoodCore :=
  if (w.countAcked ackedBytes).closesInterval now then
    closeInterval fp minRtt (w.countAcked ackedBytes) now
  else w.countAcked ackedBytes

/-- `cwndBytes_ += toAdd` through `addAndCheckOverflow`, then the clamp. -/
def addToCwnd (c : CwndSettings) (w : WestwoodCore) (toAdd : ℕ) : Outcome Failure WestwoodCore :=
  match addAndCheckOverflow w.cwndBytes toAdd with
  | .error e => .fail e w
  | .ok cwnd => .done {w with cwndBytes := c.bounded cwnd}

/-- Slow start adds the acked bytes, congestion avoidance scales them by the window. -/
def grow (c : CwndSettings) (w : WestwoodCore) (ackedBytes : ℕ) : Outcome Failure WestwoodCore :=
  if w.cwndBytes<w.ssthresh then w.addToCwnd c ackedBytes
  else if w.cwndBytes=0 then .fail .divisionByZero w
  else w.addToCwnd c (kDefaultUDPSendPacketLen*ackedBytes % 2^64/w.cwndBytes)

def reduceTo (c : CwndSettings) (w : WestwoodCore) (target : ℕ) : WestwoodCore :=
  {w with
    ssthresh := max target (2*c.udpSendPacketLen % 2^64)
    cwndBytes := c.bounded (max target (2*c.udpSendPacketLen % 2^64))}

/-- `!endOfRecovery_ || *endOfRecovery_ < *loss.largestLostSentTime` -/
def isNewLoss (w : WestwoodCore) (loss : LossEvent) : Except Failure Bool :=
  match w.endOfRecovery, loss.largestLostSentTime with
  | none, _ => .ok true
  | some t, some sent => .ok (decide (t < sent))
  | some _, none => .error .optionalEmptyException

/-- The loss passes the underflow check and opens a new recovery period. -/
def StartsRecovery (w : WestwoodCore) (inflightBytes : ℕ) (loss : LossEvent) : Prop :=
  loss.lostBytes ≤ inflightBytes ∧ w.isNewLoss loss = .ok true

instance (w : WestwoodCore) (inflightBytes : ℕ) (loss : LossEvent) :
    Decidable (w.StartsRecovery inflightBytes loss) := inferInstanceAs (Decidable (_ ∧ _))

def resetToMinimum (c : CwndSettings) (w : WestwoodCore) : WestwoodCore :=
  {w with cwndBytes := c.bounded (c.minCwndInMss*c.udpSendPacketLen % 2^64)}

def clampCwnd (c : CwndSettings) (w : WestwoodCore) : WestwoodCore :=
  {w with cwndBytes := c.bounded w.cwndBytes}

section Frames
variable (fp : FloatUnit) (minRtt : ℤ) (c : CwndSettings) (w : WestwoodCore)

lemma updateWestwoodBandwidthEstimates_frame (delta : ℕ) :
    ∃ newest estimate,updateWestwoodBandwidthEstimates fp minRtt w delta =
      {w with bandwidthNewestEstimate := newest, bandwidthEstimate := estimate} := by
  unfold updateWestwoodBandwidthEstimates
  split_ifs
  · exact ⟨w.bandwidthNewestEstimate,w.bandwidthEstimate,rfl⟩
  all_goals exact ⟨_,_,rfl⟩

lemma measure_frame (ackedBytes : ℕ) (now : ℤ) :
    ∃ start newest estimate step bytes,measure fp minRtt w ackedBytes now =
      {w with rttWindowStartTime := start, bandwidthNewestEstimate := newest,
              bandwidthEstimate := estimate, step := step,
              bytesAckedInCurrentInterval := bytes} := by
  unfold measure
  split_ifs
  · unfold closeInterval
    obtain ⟨newest,estimate,h⟩ := updateWestwoodBandwidthEstimates_frame fp minRtt
      {w.countAcked ackedBytes with step := ((w.countAcked ackedBytes).step+1) % 2^32}
      ((w.countAcked ackedBytes).delta now % 2^32)
    exact ⟨now,newest,estimate,(w.step+1) % 2^32,0,by rw [h]; rfl⟩
  · exact ⟨w.rttWindowStartTime,_,_,_,_,rfl⟩

@[simp] lemma measure_cwndBytes (ackedBytes : ℕ) (now : ℤ) :
    (measure fp minRtt w ackedBytes now).cwndBytes = w.cwndBytes := by
  obtain ⟨_,_,_,_,_,h⟩ := measure_frame fp minRtt w ackedBytes now
  rw [h]

@[simp] lemma measure_endOfRecovery (ackedBytes : ℕ) (now : ℤ) :
    (measure fp minRtt w ackedBytes now).endOfRecovery = w.endOfRecovery := by
  obtain ⟨_,_,_,_,_,h⟩ := measure_frame fp minRtt w ackedBytes now
  rw [h]

lemma addToCwnd_frame (toAdd : ℕ) :
    ∃ cwnd,(w.addToCwnd c toAdd).state = {w with cwndBytes := cwnd} := by
  unfold addToCwnd
  split
  · exact ⟨w.cwndBytes,rfl⟩
  · exact ⟨_,rfl⟩

lemma grow_frame (ackedBytes : ℕ) :
    ∃ cwnd,(w.grow c ackedBytes).state = {w with cwndBytes := cwnd} := by
  unfold grow
  split_ifs
  · exact addToCwnd_frame c w _
  · exact ⟨w.cwndBytes,rfl⟩
  · exact addToCwnd_frame c w _

@[simp] lemma grow_endOfRecovery (ackedBytes : ℕ) :
    (w.grow c ackedBytes).state.endOfRecovery = w.endOfRecovery := by
  obtain ⟨_,h⟩ := grow_frame c w ackedBytes
  rw [h]

@[simp] lemma grow_bytesAckedInCurrentInterval (ackedBytes : ℕ) :
    (w.grow c ackedBytes).state.bytesAckedInCurrentInterval = w.bytesAckedInCurrentInterval := by
  obtain ⟨_,h⟩ := grow_frame c w ackedBytes
  rw [h]

end Frames

end WestwoodCore

end QuicWestwood
