import QuicWestwood.Westwood
import QuicWestwood.WestwoodOWD

/-! An interval gives one raw sample, which two low-pass filters smooth one after the other. The interval length
loses its upper half on the way into `updateWestwoodBandwidthEstimates`, so that the samples of long intervals
are wrong. The filters keep to the range of the samples; fed with one constant rate, the second ends one below
it. -/
namespace QuicWestwood
open WestwoodCore FloatUnit

namespace WestwoodCore

/-- The quotient of bytes and seconds, converted to the type that takes it. -/
def rawSample (fp : FloatUnit) (w : WestwoodCore) (delta : ℕ) : ℕ :=
  if w.bandwidthNewestEstimate=0 ∧ w.bandwidthEstimate=0 then
    fp.rate64 w.bytesAckedInCurrentInterval delta % 2^64
  else fp.rate32 w.bytesAckedInCurrentInterval delta % 2^32

/-- The two filters, one after the other; without estimates the sample passes the first one as it is. -/
def feed (fp : FloatUnit) (w : WestwoodCore) (sample : ℕ) : ℕ × ℕ :=
  let bwNsEst :=
    if w.bandwidthNewestEstimate=0 ∧ w.bandwidthEstimate=0 then sample
    else fp.lowPass w.step w.bandwidthNewestEstimate sample % 2^32
  (bwNsEst % 2^32,fp.lowPass w.step w.bandwidthEstimate (bwNsEst % 2^32) % 2^32)

variable {minRtt : ℤ} {w : WestwoodCore}

lemma updateWestwoodBandwidthEstimates_feed (fp : FloatUnit) (w : WestwoodCore) (hmin : minRtt≠microsecondsMax) (delta : ℕ) :
    let w' := updateWestwoodBandwidthEstimates fp minRtt w delta
    (w'.bandwidthNewestEstimate,w'.bandwidthEstimate) = w.feed fp (w.rawSample fp delta) := by
  unfold updateWestwoodBandwidthEstimates feed rawSample
  rw [if_neg hmin]
  split_ifs <;> rfl

lemma div_truncated_eq_iff {x T : ℕ} (hT : 0 < T % 2^32) :
    x/(T % 2^32) = x/T ↔ T < 2^32 ∨ x < T % 2^32 := by
  rcases Nat.lt_or_ge T (2^32) with hsmall | hlarge
  · rw [Nat.mod_eq_of_lt hsmall]
    exact ⟨fun _ => .inl hsmall,fun _ => rfl⟩
  · have hdouble : T % 2^32*2 ≤ T := by omega
    have hle : x/T ≤ x/(T % 2^32*2) := Nat.div_le_div_left hdouble (by omega)
    rw [← Nat.div_div_eq_div_mul] at hle
    have hzero : x/(T % 2^32) = 0 ↔ x < T % 2^32 := Nat.div_eq_zero_iff_lt hT
    rw [or_iff_right (by omega),← hzero]
    generalize x/(T % 2^32) = q at hle ⊢
    generalize x/T = q' at hle ⊢
    omega

lemma rawSample_exact (w : WestwoodCore) (coef : ℕ → ℚ) (delta : ℕ) : ∃ bits,32≤bits ∧ ∀ undef margin,
    w.rawSample (.exact undef coef margin) delta = (if delta=0 then undef w.bytesAckedInCurrentInterval
        else truncTo undef bits (w.bytesAckedInCurrentInterval*10^6/delta)) % 2^bits := by
  by_cases hstart : w.bandwidthNewestEstimate=0 ∧ w.bandwidthEstimate=0
  · simp only [rawSample,if_pos hstart]
    exact ⟨64,by omega,fun _ _ => rfl⟩
  · simp only [rawSample,if_neg hstart]
    exact ⟨32,le_rfl,fun _ _ => rfl⟩

/-- Whatever undefined conversions yield, the sample is exact if and only if the length of the interval fits its
parameter or both quotients are zero. -/
lemma rawSample_exact_iff (w : WestwoodCore) (coef : ℕ → ℚ) {T : ℕ} (hT : 0<T)
    (hrange : w.bytesAckedInCurrentInterval*10^6/T < 2^32) :
    (∀ undef margin,w.rawSample (.exact undef coef margin) (T % 2^32) = w.bytesAckedInCurrentInterval*10^6/T) ↔
      T < 2^32 ∨ w.bytesAckedInCurrentInterval*10^6 < T % 2^32 := by
  obtain ⟨bits,hbits,hraw⟩ := w.rawSample_exact coef (T % 2^32)
  have hpow : 2^32 ≤ 2^bits := Nat.pow_le_pow_right (by omega) hbits
  -- an undefined conversion may yield 0 as well as 1
  have hundefined : ∀ v : ℕ,¬∀ k : ℕ,k % 2^bits = v := by
    intro v hall
    have hzero := hall 0
    have hone := hall 1
    rw [Nat.zero_mod] at hzero
    rw [Nat.mod_eq_of_lt (by omega)] at hone
    omega
  generalize w.bytesAckedInCurrentInterval*10^6 = x at hrange hraw ⊢
  rcases Nat.eq_zero_or_pos (T % 2^32) with hdelta | hdelta
  · simp only [hraw,if_pos hdelta]
    constructor
    · exact fun hall => absurd (fun k => hall (fun _ => k) 0) (hundefined _)
    · omega
  · simp only [hraw,if_neg hdelta.ne',← div_truncated_eq_iff hdelta]
    rcases Nat.lt_or_ge (x/(T % 2^32)) (2^bits) with hfits | hlarge
    · simp only [truncTo,if_pos hfits,Nat.mod_eq_of_lt hfits,forall_const]
    · simp only [truncTo,if_neg (not_lt.mpr hlarge)]
      constructor
      · exact fun hall => absurd (fun k => hall (fun _ => k) 0) (hundefined _)
      · intro heq
        omega

/-- The state in which the packet that closes an interval has the estimates updated. -/
def atClosure (w : WestwoodCore) (packet : AckPacket) : WestwoodCore :=
  {w.countAcked packet.size with step := (w.step+1) % 2^32}

structure Closes (w : WestwoodCore) (minRtt : ℤ) (packet : AckPacket) (now : ℤ) : Prop where
  counted : w.inRecovery packet.time = false
  closes : (w.countAcked packet.size).closesInterval now = true
  known : minRtt≠microsecondsMax

def estimates (w : WestwoodCore) : ℕ × ℕ := (w.bandwidthNewestEstimate,w.bandwidthEstimate)

variable {packet : AckPacket}

lemma Closes.measure {now : ℤ} (h : w.Closes minRtt packet now) (fp : FloatUnit) :
    (w.measure fp minRtt packet.size now).estimates =
      (w.atClosure packet).feed fp ((w.atClosure packet).rawSample fp ((w.atClosure packet).delta now % 2^32)) := by
  rw [WestwoodCore.measure,if_pos h.closes]
  exact updateWestwoodBandwidthEstimates_feed fp _ h.known _

lemma Closes.delta_pos {now : ℤ} (h : w.Closes minRtt packet now) : 0 < (w.atClosure packet).delta now := by
  have hlong := of_decide_eq_true h.closes
  exact (Nat.zero_le _).trans_lt hlong

lemma grow_estimates (c : CwndSettings) (w : WestwoodCore) (ackedBytes : ℕ) :
    (w.grow c ackedBytes).state.estimates = w.estimates := by
  obtain ⟨_,h⟩ := grow_frame c w ackedBytes
  rw [h]
  rfl

end WestwoodCore

lemma Westwood.onPacketAcked_estimates {clock : ℕ → ℤ} {s : Controlled Westwood}
    (h : s.cc.Closes s.cc.rttSampler.minRtt packet (clock s.ticks)) (fp : FloatUnit) (c : CwndSettings) :
    let w := s.cc.atClosure packet
    (onPacketAcked clock fp c s packet).state.cc.estimates =
      w.feed fp (w.rawSample fp (w.delta (clock s.ticks) % 2^32)) := by
  rw [onPacketAcked,if_neg (by simp [h.counted])]
  exact (grow_estimates c _ _).trans (h.measure fp)

lemma WestwoodOWD.onPacketAcked_estimates {clock : ℕ → ℤ} {s : Controlled WestwoodOWD}
    (h : s.cc.Closes s.cc.rttSampler.minRtt packet (clock s.ticks)) (fp : DelayFloatUnit) (c : CwndSettings) :
    let w := s.cc.atClosure packet
    (onPacketAcked clock fp c s packet).state.cc.estimates =
      w.feed fp.toFloatUnit (w.rawSample fp.toFloatUnit (w.delta (clock s.ticks) % 2^32)) := by
  rw [onPacketAcked,if_neg (by simp [h.counted])]
  refine (grow_estimates c _ _).trans (Eq.trans ?_ (h.measure fp.toFloatUnit))
  unfold measured delayReaction
  dsimp only
  split_ifs <;> rfl

/-- When an acked packet closes an interval, the filters of both controllers are fed the raw sample, and it is the
exact rate, whatever undefined conversions yield, if and only if the length of the interval fits 32 bits or the bytes
are too few for the truncated length. -/
theorem raw_sample_exact_iff (clock : ℕ → ℤ) (c : CwndSettings) (coef : ℕ → ℚ) (packet : AckPacket) :
    (∀ s : Controlled Westwood,s.cc.Closes s.cc.rttSampler.minRtt packet (clock s.ticks) →
      let w := s.cc.atClosure packet
      let T := w.delta (clock s.ticks)
      (∀ fp,(Westwood.onPacketAcked clock fp c s packet).state.cc.estimates =
        w.feed fp (w.rawSample fp (T % 2^32))) ∧
      (w.bytesAckedInCurrentInterval*10^6/T < 2^32 →
        ((∀ undef margin,w.rawSample (.exact undef coef margin) (T % 2^32) =
          w.bytesAckedInCurrentInterval*10^6/T) ↔
        T < 2^32 ∨ w.bytesAckedInCurrentInterval*10^6 < T % 2^32))) ∧
    (∀ s : Controlled WestwoodOWD,s.cc.Closes s.cc.rttSampler.minRtt packet (clock s.ticks) →
      let w := s.cc.atClosure packet
      let T := w.delta (clock s.ticks)
      (∀ fp : DelayFloatUnit,(WestwoodOWD.onPacketAcked clock fp c s packet).state.cc.estimates =
        w.feed fp.toFloatUnit (w.rawSample fp.toFloatUnit (T % 2^32))) ∧
      (w.bytesAckedInCurrentInterval*10^6/T < 2^32 →
        ((∀ undef margin,w.rawSample (.exact undef coef margin) (T % 2^32) =
          w.bytesAckedInCurrentInterval*10^6/T) ↔
        T < 2^32 ∨ w.bytesAckedInCurrentInterval*10^6 < T % 2^32))) :=
  ⟨fun _ h => ⟨fun fp => Westwood.onPacketAcked_estimates h fp c,rawSample_exact_iff _ coef h.delta_pos⟩,
    fun _ h => ⟨fun fp => WestwoodOWD.onPacketAcked_estimates h fp c,rawSample_exact_iff _ coef h.delta_pos⟩⟩

theorem raw_sample_exact_one_second :
    let clock : ℕ → ℤ := fun k => 1000000000*k
    let new := Westwood.construct clock {} 1000
    let s : Controlled Westwood := {new with cc := {new.cc with
      latestRttSample := 100000, rttSampler := {new.cc.rttSampler with minRtt := 100000}}}
    let packet : AckPacket := {packetNum := 0, outstandingPacketMetadata := {time := 0, encodedSize := 1000}}
    ∀ undef margin,(s.cc.atClosure packet).rawSample (.exact undef (fun _ => 0) margin) 1000000 = 1000 := by
  intro clock new s packet undef margin
  have h := (((raw_sample_exact_iff clock {} (fun _ => 0) packet).1 s ⟨by decide,by decide,by decide⟩).2
    (by decide)).mpr (by decide) undef margin
  have hdelta : (s.cc.atClosure packet).delta (clock s.ticks) = 1000000 := by decide
  have hbytes : (s.cc.atClosure packet).bytesAckedInCurrentInterval = 1000 := by decide
  rw [hdelta,hbytes] at h
  exact h

/-- An interval of `2 ^ 32 + 1` microseconds counts as one microsecond, and one of `2 ^ 32` as none. -/
theorem long_interval_truncated :
    let clock : ℕ → ℤ := fun k => 4294967297000*k
    let new := Westwood.construct clock {} 1000
    let s : Controlled Westwood := {new with cc := {new.cc with
      latestRttSample := 100000, rttSampler := {new.cc.rttSampler with minRtt := 100000}}}
    let packet : AckPacket := {packetNum := 0, outstandingPacketMetadata := {time := 0, encodedSize := 1000}}
    let w := s.cc.atClosure packet
    w.delta (clock s.ticks) = 4294967297 ∧ w.bytesAckedInCurrentInterval*10^6/4294967297 = 0 ∧
      w.rawSample (.exact (fun _ => 0) (fun _ => 0) 0) (4294967297 % 2^32) = 1000000000 ∧
      (Westwood.onPacketAcked clock (.exact (fun _ => 0) (fun _ => 0) 0) {} s
        packet).state.cc.bandwidthNewestEstimate = 1000000000 ∧ 4294967296 % 2^32 = 0 := by
  decide

structure FilterInterval where
  coef : ℚ
  bytes : ℕ
  delta : ℕ

namespace FilterInterval

def sample (i : FilterInterval) : ℕ := i.bytes*10^6/i.delta

structure Valid (i : FilterInterval) : Prop where
  coef_nonneg : 0 ≤ i.coef
  coef_le : i.coef ≤ 3/4
  delta_pos : 0 < i.delta
  sample_lt : i.sample < 2^32

end FilterInterval

lemma FloatUnit.exact_lowPass_mem (undef : ℕ → ℕ) (margin : ℕ) {coef : ℕ → ℚ} {step a b lo hi : ℕ} (h0 : 0 ≤ coef step)
    (h1 : coef step ≤ 1) (ha : lo≤a ∧ a≤hi) (hb : lo≤b ∧ b≤hi) (hhi : hi < 2^32) :
    lo ≤ (exact undef coef margin).lowPass step a b % 2^32 ∧
      (exact undef coef margin).lowPass step a b % 2^32 ≤ hi := by
  have hcast : ∀ m n : ℕ,m ≤ n → (m : ℚ) ≤ n := fun m n h => by exact_mod_cast h
  have hlow : lo ≤ ⌊coef step*a+(1-coef step)*b⌋₊ := by
    apply Nat.le_floor
    nlinarith [hcast _ _ ha.1,hcast _ _ hb.1]
  have hhigh : ⌊coef step*a+(1-coef step)*b⌋₊ ≤ hi := by
    apply Nat.floor_le_of_le
    nlinarith [hcast _ _ ha.2,hcast _ _ hb.2]
  have hvalue : (exact undef coef margin).lowPass step a b = ⌊coef step*a+(1-coef step)*b⌋₊ :=
    if_pos (by omega)
  rw [hvalue,Nat.mod_eq_of_lt (by omega)]
  exact ⟨hlow,hhigh⟩

lemma FloatUnit.exact_lowPass_quarter {undef : ℕ → ℕ} {margin step a b : ℕ} (h : a+3*b < 2^34) :
    (exact undef (fun _ => 1/4) margin).lowPass step a b % 2^32 = (a+3*b)/4 := by
  have hfloor : ⌊(1/4 : ℚ)*a+(1-1/4)*b⌋₊ = (a+3*b)/4 := by
    rw [← Nat.floor_div_eq_div (K := ℚ) (a+3*b) 4]
    congr 1
    push_cast
    ring
  have hvalue : (exact undef (fun _ => 1/4) margin).lowPass step a b = (a+3*b)/4 := by
    rw [← hfloor]
    exact if_pos (by rw [hfloor]; omega)
  rw [hvalue,Nat.mod_eq_of_lt (by omega)]

namespace WestwoodCore

def afterInterval (fp : FloatUnit) (minRtt : ℤ) (w : WestwoodCore) (bytes delta : ℕ) : WestwoodCore :=
  updateWestwoodBandwidthEstimates fp minRtt {w with bytesAckedInCurrentInterval := bytes} delta

lemma afterInterval_estimates (undef : ℕ → ℕ) (coef : ℕ → ℚ) (margin : ℕ) {minRtt : ℤ} (hmin : minRtt≠microsecondsMax)
    (w : WestwoodCore) {bytes delta : ℕ} (hdelta : 0<delta) (hlt : bytes*10^6/delta < 2^32) :
    (w.afterInterval (.exact undef coef margin) minRtt bytes delta).estimates =
      w.feed (.exact undef coef margin) (bytes*10^6/delta) := by
  have hraw : rawSample (.exact undef coef margin) {w with bytesAckedInCurrentInterval := bytes} delta =
      bytes*10^6/delta := by
    obtain ⟨bits,hbits,hraw⟩ := rawSample_exact {w with bytesAckedInCurrentInterval := bytes} coef delta
    have hfits := hlt.trans_le (Nat.pow_le_pow_right (by omega) hbits)
    rw [hraw,if_neg hdelta.ne',truncTo,if_pos hfits,Nat.mod_eq_of_lt hfits]
  have hfeed := updateWestwoodBandwidthEstimates_feed (.exact undef coef margin)
    {w with bytesAckedInCurrentInterval := bytes} hmin delta
  rw [hraw] at hfeed
  exact hfeed

variable {w : WestwoodCore}

def EstimatesIn (lo hi : ℕ) (w : WestwoodCore) : Prop :=
  (lo≤w.bandwidthNewestEstimate ∨ (w.bandwidthNewestEstimate=0 ∧ w.bandwidthEstimate=0)) ∧
    w.bandwidthNewestEstimate ≤ hi ∧ w.bandwidthEstimate≤hi

lemma EstimatesIn.feed {lo hi sample : ℕ} (h : w.EstimatesIn lo hi) (undef : ℕ → ℕ) (coef : ℕ → ℚ) (margin : ℕ)
    (h0 : 0 ≤ coef w.step) (h1 : coef w.step ≤ 1) (hsample : lo ≤ sample ∧ sample≤hi) (hlt : hi < 2^32) :
    (lo ≤ (w.feed (.exact undef coef margin) sample).1 ∧ (w.feed (.exact undef coef margin) sample).1 ≤ hi) ∧
      (w.feed (.exact undef coef margin) sample).2 ≤ hi := by
  obtain ⟨hnewest,hnewest_le,hestimate_le⟩ := h
  unfold WestwoodCore.feed
  dsimp only
  generalize hbw : (if w.bandwidthNewestEstimate=0 ∧ w.bandwidthEstimate=0 then sample
    else (exact undef coef margin).lowPass w.step w.bandwidthNewestEstimate sample % 2^32) = bwNsEst
  have hfirst : lo≤bwNsEst ∧ bwNsEst≤hi := by
    rw [← hbw]
    split_ifs with hstart
    · exact hsample
    · exact exact_lowPass_mem undef margin h0 h1 ⟨hnewest.resolve_right hstart,hnewest_le⟩ hsample hlt
  rw [Nat.mod_eq_of_lt (by omega)]
  have hsecond := exact_lowPass_mem undef margin h0 h1
    ⟨Nat.zero_le w.bandwidthEstimate,hestimate_le⟩ ⟨Nat.zero_le bwNsEst,hfirst.2⟩ hlt
  exact ⟨hfirst,hsecond.2⟩

lemma EstimatesIn.afterInterval {lo hi : ℕ} (h : w.EstimatesIn lo hi) (undef : ℕ → ℕ) (margin : ℕ) {minRtt : ℤ}
    (hmin : minRtt≠microsecondsMax) {i : FilterInterval} (hvalid : i.Valid)
    (hsample : lo ≤ i.sample ∧ i.sample≤hi) (hlt : hi < 2^32) :
    let w' := w.afterInterval (.exact undef (fun _ => i.coef) margin) minRtt i.bytes i.delta
    (lo≤w'.bandwidthNewestEstimate ∧ w'.bandwidthNewestEstimate≤hi) ∧ w'.bandwidthEstimate≤hi := by
  have hfeed := afterInterval_estimates undef (fun _ => i.coef) margin hmin w hvalid.delta_pos hvalid.sample_lt
  have hone : i.coef≤1 := hvalid.coef_le.trans (by norm_num)
  have hin := h.feed undef (fun _ => i.coef) margin hvalid.coef_nonneg hone hsample hlt
  unfold FilterInterval.sample at hin
  rw [← hfeed] at hin
  exact hin

lemma run_estimatesIn {lo hi : ℕ} (undef : ℕ → ℕ) (margin : ℕ) {minRtt : ℤ} (hmin : minRtt≠microsecondsMax)
    (hstart : w.estimates = (0,0)) {is : List FilterInterval} (hne : is≠[]) (hvalid : ∀ i ∈ is,i.Valid)
    (hsample : ∀ i ∈ is,lo ≤ i.sample ∧ i.sample≤hi) (hlt : hi < 2^32) :
    let w' := Run.run (fun w (i : FilterInterval) =>
      w.afterInterval (.exact undef (fun _ => i.coef) margin) minRtt i.bytes i.delta) w is
    (lo≤w'.bandwidthNewestEstimate ∧ w'.bandwidthNewestEstimate≤hi) ∧ w'.bandwidthEstimate≤hi := by
  obtain ⟨hnewest,hestimate⟩ := Prod.mk.inj hstart
  obtain ⟨i,is,rfl⟩ := List.exists_cons_of_ne_nil hne
  have hfirst : w.EstimatesIn lo hi := ⟨.inr ⟨hnewest,hestimate⟩,by omega,by omega⟩
  have hone := hfirst.afterInterval undef margin hmin (hvalid i (by simp)) (hsample i (by simp)) hlt
  rw [Run.run_cons]
  refine Run.run_invariant (P := fun w : WestwoodCore =>
    (lo≤w.bandwidthNewestEstimate ∧ w.bandwidthNewestEstimate≤hi) ∧ w.bandwidthEstimate≤hi) hone
    fun t ht j hj => ?_
  have hin : t.EstimatesIn lo hi := ⟨.inl ht.1.1,ht.1.2,ht.2⟩
  exact hin.afterInterval undef margin hmin (hvalid j (by simp [hj])) (hsample j (by simp [hj])) hlt

/-- Fed with the rate `r` and a coefficient of a quarter, the newest estimate is `r` at once and the distance of the
other one from `r - 1` is divided by four in each interval. -/
lemma run_constant_rate (undef : ℕ → ℕ) (margin : ℕ) {minRtt : ℤ} (hmin : minRtt≠microsecondsMax)
    (hstart : w.estimates = (0,0)) {r : ℕ} (hpos : 1 ≤ r) (hlt : r < 2^32) {is : List (ℕ × ℕ)}
    (hrate : ∀ i ∈ is,0 < i.2 ∧ i.1*10^6/i.2 = r) :
    let w' := Run.run (fun w (i : ℕ × ℕ) =>
      w.afterInterval (.exact undef (fun _ => 1/4) margin) minRtt i.1 i.2) w is
    w'.bandwidthEstimate = r-1-(r-1)/4^is.length ∧
      (w'.bandwidthNewestEstimate=r ∨ (w'.bandwidthNewestEstimate=0 ∧ w'.bandwidthEstimate=0)) := by
  obtain ⟨hnewest,hestimate⟩ := Prod.mk.inj hstart
  induction is using List.reverseRecOn with
  | nil => exact ⟨by simpa using hestimate,.inr ⟨hnewest,hestimate⟩⟩
  | append_singleton is i ih =>
    obtain ⟨hdelta,hsample⟩ := hrate i (by simp)
    obtain ⟨hbefore,hphase⟩ := ih fun j hj => hrate j (by simp [hj])
    rw [Run.run_append,Run.run_cons,Run.run_nil]
    generalize Run.run _ w is = t at hbefore hphase ⊢
    have hless := hbefore ▸ Nat.sub_le _ _
    have hfeed := afterInterval_estimates undef (fun _ => 1/4) margin hmin t hdelta (hsample ▸ hlt)
    rw [hsample] at hfeed
    have hfirst : (t.feed (.exact undef (fun _ => 1/4) margin) r).1 = r := by
      unfold WestwoodCore.feed
      dsimp only
      split_ifs with hzero
      · exact Nat.mod_eq_of_lt hlt
      · rw [hphase.resolve_right hzero,exact_lowPass_quarter (by omega),Nat.mod_eq_of_lt (by omega)]
        omega
    have hsecond : (t.feed (.exact undef (fun _ => 1/4) margin) r).2 = (t.bandwidthEstimate+3*r)/4 := by
      change (exact undef (fun _ => 1/4) margin).lowPass t.step t.bandwidthEstimate
        (t.feed (.exact undef (fun _ => 1/4) margin) r).1 % 2^32 = _
      rw [hfirst,exact_lowPass_quarter (by omega)]
    refine ⟨(congrArg Prod.snd hfeed).trans ?_,.inl ((congrArg Prod.fst hfeed).trans hfirst)⟩
    rw [hsecond,hbefore,List.length_append,List.length_singleton,pow_succ,← Nat.div_div_eq_div_mul]
    have hle := Nat.div_le_self (r-1) (4^is.length)
    omega

end WestwoodCore

/-- After every interval the newest estimate lies between the smallest and the largest sample so far and the other
one does not exceed the largest. With the coefficient of WestwoodOWD and one rate `r` throughout, the estimate never
decreases, stays below `r`, and is `r - 1` from some interval on. -/
theorem bandwidth_filter_range_and_limit (undef : ℕ → ℕ) (minRtt : ℤ) (hmin : minRtt≠microsecondsMax) (margin : ℕ)
    (w : WestwoodCore) (hstart : w.estimates = (0,0)) :
    (∀ is : List FilterInterval,is≠[] → (∀ i ∈ is,i.Valid) → let w' := Run.run (fun w (i : FilterInterval) =>
        w.afterInterval (.exact undef (fun _ => i.coef) margin) minRtt i.bytes i.delta) w is
      (∃ i ∈ is,i.sample≤w'.bandwidthNewestEstimate) ∧ (∃ i ∈ is,w'.bandwidthNewestEstimate ≤ i.sample) ∧
        ∃ i ∈ is,w'.bandwidthEstimate ≤ i.sample) ∧ (∀ r,1 ≤ r → r < 2^32 →
      let after := Run.run (fun (w : WestwoodCore) (i : ℕ × ℕ) =>
        w.afterInterval (DelayFloatUnit.exact undef).toFloatUnit minRtt i.1 i.2) w
      (∀ is,(∀ i ∈ is,0 < i.2 ∧ i.1*10^6/i.2 = r) → (after is).bandwidthEstimate < r ∧
        ∀ i,0 < i.2 ∧ i.1*10^6/i.2 = r →
          (after is).bandwidthEstimate ≤ (after (is++[i])).bandwidthEstimate) ∧
      ∃ n,∀ is,(∀ i ∈ is,0 < i.2 ∧ i.1*10^6/i.2 = r) → n ≤ is.length →
        (after is).bandwidthEstimate = r-1) := by
  constructor
  · intro is hne hvalid w'
    obtain ⟨low,hlow⟩ := Option.ne_none_iff_exists'.mp
      (mt (List.argmin_eq_none (f := FilterInterval.sample)).mp hne)
    obtain ⟨high,hhigh⟩ := Option.ne_none_iff_exists'.mp
      (mt (List.argmax_eq_none (f := FilterInterval.sample)).mp hne)
    have hlow_mem := List.argmin_mem hlow
    have hhigh_mem := List.argmax_mem hhigh
    have h := run_estimatesIn undef margin hmin hstart hne hvalid
      (fun i hi => ⟨List.le_of_mem_argmin hi hlow,List.le_of_mem_argmax hi hhigh⟩) (hvalid high hhigh_mem).sample_lt
    exact ⟨⟨low,hlow_mem,h.1.1⟩,⟨high,hhigh_mem,h.1.2⟩,⟨high,hhigh_mem,h.2⟩⟩
  · intro r hpos hlt after
    have hrun : ∀ is,(∀ i ∈ is,0 < i.2 ∧ i.1*10^6/i.2 = r) →
        (after is).bandwidthEstimate = r-1-(r-1)/4^is.length :=
      fun is his => (run_constant_rate undef 40000 hmin hstart hpos hlt his).1
    refine ⟨fun is his => ⟨?_,fun i hi => ?_⟩,r,fun is his hlong => ?_⟩
    · rw [hrun is his]
      exact (Nat.sub_le _ _).trans_lt (by omega)
    · have hnext : ∀ j ∈ is++[i], 0 < j.2 ∧ j.1*10^6/j.2 = r := by
        intro j hj
        obtain hj | hj := List.mem_append.mp hj
        · exact his j hj
        · rw [List.mem_singleton.mp hj]
          exact hi
      rw [hrun is his,hrun _ hnext]
      apply Nat.sub_le_sub_left
      apply Nat.div_le_div_left _ (by positivity)
      exact Nat.pow_le_pow_right (by omega) (by simp)
    · rw [hrun is his]
      have hpow : r-1 < 4^is.length := by
        have hlen : is.length < 4^is.length := Nat.lt_pow_self (by omega)
        omega
      rw [Nat.div_eq_of_lt hpow,Nat.sub_zero]

theorem bandwidth_filter_range_and_limit_two_samples :
    let w := construct {} 0
    let after := Run.run (fun (w : WestwoodCore) (i : FilterInterval) =>
      w.afterInterval (.exact id (fun _ => i.coef) 0) 5000 i.bytes i.delta) w
    let constant := Run.run (fun (w : WestwoodCore) (i : ℕ × ℕ) =>
      w.afterInterval (DelayFloatUnit.exact id).toFloatUnit 5000 i.1 i.2) w
    (∃ i ∈ [(⟨1/2,1000,1000000⟩ : FilterInterval),⟨0,2000,1000000⟩],
      (after [⟨1/2,1000,1000000⟩,⟨0,2000,1000000⟩]).bandwidthEstimate ≤ i.sample) ∧
    (constant [(1000,1000000)]).bandwidthEstimate < 1000 := by
  intro w after constant
  have h := bandwidth_filter_range_and_limit id 5000 (by decide) 0 w rfl
  have hvalid : ∀ i ∈ [(⟨1/2,1000,1000000⟩ : FilterInterval),⟨0,2000,1000000⟩], i.Valid := by
    intro i hi
    obtain rfl | rfl := List.mem_pair.mp hi
    · exact ⟨by norm_num,by norm_num,by norm_num,by norm_num [FilterInterval.sample]⟩
    · exact ⟨by norm_num,by norm_num,by norm_num,by norm_num [FilterInterval.sample]⟩
  exact ⟨(h.1 _ (by simp) hvalid).2.2,((h.2 1000 (by decide) (by decide)).1 [(1000,1000000)] (by simp)).1⟩

end QuicWestwood
