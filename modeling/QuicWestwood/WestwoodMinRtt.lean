import QuicWestwood.Westwood
import QuicWestwood.WestwoodOWD

/-! `onPacketLoss` replaces an expired minimum by `microseconds::max()`. The sampler sets its expiry flag in the
very call that adopts a fresh sample, so a loss that follows such an ack throws the fresh minimum away and
multiplies by `microseconds::max()`. -/
namespace QuicWestwood
open CcEvent WestwoodOWD

namespace WestwoodRttSampler
variable {r : WestwoodRttSampler} {samples : List ℤ}

def Sound (r : WestwoodRttSampler) (samples : List ℤ) : Prop :=
  r.minRtt ∈ samples ∨ (r.minRtt=microsecondsMax ∧ r.minRttExpired=true)

lemma Sound.newRttSample (h : r.Sound samples) {s : ℤ} (hs : s ≤ microsecondsMax) (t : ℤ) :
    (r.newRttSample s t).1.Sound (samples++[s]) := by
  rcases newRttSample_cases r s t with hnew | ⟨hold,hle,-⟩
  · exact .inl (by simp [hnew])
  · left
    rw [hold]
    rcases h with hmem | ⟨hmax,-⟩
    · exact List.mem_append_left _ hmem
    · obtain rfl : s=r.minRtt := le_antisymm (hs.trans hmax.ge) hle
      simp

lemma resetRttSample_sound (t : ℤ) : (r.resetRttSample t).Sound samples := .inr ⟨rfl,rfl⟩

def unexpired (r : WestwoodRttSampler) : ℤ :=
  if r.minRttExpired then microsecondsMax else r.minRtt

lemma Sound.unexpired_mem_iff (h : r.Sound samples) :
    r.unexpired ∈ samples ↔ r.minRttExpired=false ∨ microsecondsMax ∈ samples := by
  unfold unexpired
  rcases h with hmem | ⟨-,hexp⟩
  · cases r.minRttExpired <;> simp [hmem]
  · simp [hexp]

end WestwoodRttSampler

/-- RTT samples are durations that fit their type. -/
def CcEvent.SampleInRange : CcEvent → Prop
  | .packetAckOrLoss (some ack) _ => ∀ rtt ∈ ack.rttSample,0 ≤ rtt ∧ rtt ≤ microsecondsMax
  | _ => True

lemma CcEvent.SampleInRange.ackOf {e : CcEvent} (h : e.SampleInRange) {ack : AckEvent}
    (hack : Controlled.ackOf e = some ack) :
    ∀ rtt ∈ ack.rttSample,0 ≤ rtt ∧ rtt ≤ microsecondsMax := by
  cases e with
  | packetAckOrLoss ack? loss? => cases hack; exact h
  | _ => cases hack

/-- The min RTT in use is a delivered sample, so that no sample bound is exceeded. -/
def FromSamples (udpSendPacketLen margin : ℕ) (samples : List ℤ) (minRtt : ℤ)
    (bandwidthEstimate ssthresh : ℕ) : Prop :=
  minRtt ∈ samples ∧ ∀ R : ℤ,(∀ rtt ∈ samples,rtt ≤ R) →
    ssthresh ≤ max (2*udpSendPacketLen) (bandwidthEstimate*(R.toNat+margin)/10^6)

lemma FloatUnit.exact_lossTarget_le (undef : ℕ → ℕ) (coef : ℕ → ℚ) (margin bandwidth : ℕ)
    {rtt R : ℤ} (h0 : 0 ≤ rtt) (hmax : rtt ≤ microsecondsMax) (hR : rtt≤R) :
    (FloatUnit.exact undef coef margin).lossTarget bandwidth (u64 rtt) % 2^64 ≤
      bandwidth*(R.toNat+margin)/10^6 := by
  have hrtt : u64 rtt ≤ R.toNat := by
    have := u64_of_nonneg h0 (by unfold microsecondsMax at hmax; omega)
    omega
  have hmono : bandwidth*(u64 rtt+margin)/10^6 ≤ bandwidth*(R.toNat+margin)/10^6 :=
    Nat.div_le_div_right (Nat.mul_le_mul_left _ (Nat.add_le_add_right hrtt _))
  simp only [FloatUnit.exact,truncTo]
  split_ifs with h
  · rwa [Nat.mod_eq_of_lt h]
  · have := Nat.mod_lt (undef (bandwidth*(u64 rtt+margin)/10^6))
      (show 0 < 2^64 by norm_num)
    omega

variable {samples : List ℤ}

lemma fromSamples_of_mem (undef : ℕ → ℕ) (coef : ℕ → ℚ) (c : CwndSettings) (margin bandwidth : ℕ) {rtt : ℤ}
    (hrange : ∀ x ∈ samples,0 ≤ x ∧ x ≤ microsecondsMax) (hmem : rtt ∈ samples) :
    FromSamples c.udpSendPacketLen margin samples rtt bandwidth
      (max ((FloatUnit.exact undef coef margin).lossTarget bandwidth (u64 rtt) % 2^64)
        (2*c.udpSendPacketLen % 2^64)) := by
  refine ⟨hmem,fun R hR => ?_⟩
  obtain ⟨h0,hmax⟩ := hrange rtt hmem
  have hle := FloatUnit.exact_lossTarget_le undef coef margin bandwidth h0 hmax (hR rtt hmem)
  have hmod := Nat.mod_le (2*c.udpSendPacketLen) (2^64)
  omega

namespace Westwood
variable (clock : ℕ → ℤ) (undef : ℕ → ℕ) (coef : ℕ → ℚ) (c : CwndSettings)

def sampled (fp : FloatUnit) : Controlled Westwood × List ℤ → CcEvent → Controlled Westwood × List ℤ :=
  Run.logged (next clock fp c) (Controlled.noteEvent (onPacketLoss clock fp c) (fun _ _ => [])
    fun _ ack => ack.rttSample.toList)

/-- A loss that cuts a positive estimate does so with a delivered sample. -/
def LossUsesSample (x : Controlled Westwood × List ℤ) (e : CcEvent) : Prop :=
  ∀ loss,Controlled.lossOf e = some loss → x.1.cc.StartsRecovery x.1.inflightBytes loss →
    0 < x.1.cc.bandwidthEstimate →
    FromSamples c.udpSendPacketLen 0 x.2 (settleLoss clock x.1 loss).cc.rttSampler.minRtt
      x.1.cc.bandwidthEstimate (onPacketLoss clock (.exact undef coef 0) c x.1 loss).state.cc.ssthresh

/-- No loss cuts a positive estimate while the expiry flag is up. -/
def LossFindsFreshMin (x : Controlled Westwood × List ℤ) (e : CcEvent) : Prop :=
  ∀ loss,Controlled.lossOf e = some loss → x.1.cc.StartsRecovery x.1.inflightBytes loss →
    0 < x.1.cc.bandwidthEstimate → x.1.cc.rttSampler.minRttExpired=false ∨ microsecondsMax ∈ x.2

def Sampled (s : Controlled Westwood) (samples : List ℤ) : Prop :=
  s.cc.rttSampler.Sound samples ∧ ∀ rtt ∈ samples,0 ≤ rtt ∧ rtt ≤ microsecondsMax

lemma settleLoss_minRtt (s : Controlled Westwood) (loss : LossEvent) :
    (settleLoss clock s loss).cc.rttSampler.minRtt = s.cc.rttSampler.unexpired := by
  unfold WestwoodRttSampler.unexpired
  rw [settleLoss_rttSampler]
  split_ifs <;> rfl

variable {clock c}

lemma Sampled.onAckEvent (fp : FloatUnit) {s : Controlled Westwood} (h : Sampled s samples) {ack : AckEvent}
    (hack : ∀ rtt ∈ ack.rttSample,0 ≤ rtt ∧ rtt ≤ microsecondsMax) :
    Sampled (onAckEvent clock fp c s ack).state (samples++ack.rttSample.toList) := by
  refine ⟨?_,List.forall_mem_append.mpr ⟨h.2,by simpa using hack⟩⟩
  rw [onAckEvent_rttSampler,noteRtt]
  cases hrtt : ack.rttSample with
  | none => simpa using h.1
  | some rtt => exact h.1.newRttSample (hack rtt hrtt).2 ack.ackTime

lemma Sampled.step (fp : FloatUnit) {x : Controlled Westwood × List ℤ} (h : Sampled x.1 x.2)
    {e : CcEvent} (he : e.SampleInRange) :
    Sampled (sampled clock c fp x e).1 (sampled clock c fp x e).2 := by
  refine Controlled.handle_logged_invariant _ _ (P := Sampled) (fun _ h => h) ?_ ?_ h
  · intro loss _ h
    rw [List.append_nil]
    refine ⟨onPacketLoss_rttSampler (P := (·.Sound x.2)) clock fp c h.1 (fun t => ?_) loss,h.2⟩
    exact WestwoodRttSampler.resetRttSample_sound t
  · intro t ack l hack h
    exact h.onAckEvent fp (he.ackOf hack)

lemma sampled_construct (inflight : ℕ) : Sampled (construct clock c inflight) [] :=
  ⟨.inr ⟨rfl,rfl⟩,by simp⟩

lemma lossUsesSample_iff {x : Controlled Westwood × List ℤ} (h : Sampled x.1 x.2) (e : CcEvent) :
    LossUsesSample clock undef coef c x e ↔ LossFindsFreshMin x e := by
  refine forall_congr' fun loss => forall_congr' fun _ => forall_congr' fun hstart =>
    forall_congr' fun _ => ?_
  rw [← h.1.unexpired_mem_iff,← settleLoss_minRtt clock x.1 loss,onPacketLoss_of_startsRecovery _ _ _ hstart]
  refine ⟨fun hlaw => hlaw.1,fun hmem => ?_⟩
  rw [Outcome.done_state,ifPersistent_ssthresh,startRecovery_ssthresh,settleLoss_toWestwoodCore]
  exact fromSamples_of_mem undef coef c 0 _ h.2 hmem

end Westwood

namespace WestwoodOWD
variable (clock : ℕ → ℤ) (undef : ℕ → ℕ) (c : CwndSettings)

def sampled (fp : DelayFloatUnit) : Controlled WestwoodOWD × List ℤ → CcEvent → Controlled WestwoodOWD × List ℤ :=
  Run.logged (next clock fp c) (Controlled.noteEvent (onPacketLoss clock fp c) (fun _ _ => [])
    fun _ ack => ack.rttSample.toList)

/-- A loss that cuts a positive estimate does so with a delivered sample. -/
def LossUsesSample (x : Controlled WestwoodOWD × List ℤ) (e : CcEvent) : Prop :=
  ∀ loss,Controlled.lossOf e = some loss → x.1.cc.StartsRecovery x.1.inflightBytes loss →
    0 < x.1.cc.bandwidthEstimate →
    FromSamples c.udpSendPacketLen 40000 x.2 (settleLoss clock x.1 loss).cc.rttSampler.minRtt
      x.1.cc.bandwidthEstimate (onPacketLoss clock (.exact undef) c x.1 loss).state.cc.ssthresh

/-- No loss cuts a positive estimate while the expiry flag is up. -/
def LossFindsFreshMin (x : Controlled WestwoodOWD × List ℤ) (e : CcEvent) : Prop :=
  ∀ loss,Controlled.lossOf e = some loss → x.1.cc.StartsRecovery x.1.inflightBytes loss →
    0 < x.1.cc.bandwidthEstimate → x.1.cc.rttSampler.minRttExpired=false ∨ microsecondsMax ∈ x.2

def Sampled (s : Controlled WestwoodOWD) (samples : List ℤ) : Prop :=
  s.cc.rttSampler.toWestwoodRttSampler.Sound samples ∧ ∀ rtt ∈ samples,0 ≤ rtt ∧ rtt ≤ microsecondsMax

lemma settleLoss_minRtt (s : Controlled WestwoodOWD) (loss : LossEvent) :
    (settleLoss clock s loss).cc.rttSampler.minRtt = s.cc.rttSampler.toWestwoodRttSampler.unexpired := by
  unfold WestwoodRttSampler.unexpired
  rw [settleLoss_rttSampler]
  split_ifs <;> rfl

variable {clock c}

lemma Sampled.onAckEvent (fp : DelayFloatUnit) {s : Controlled WestwoodOWD} (h : Sampled s samples)
    {ack : AckEvent} (hack : ∀ rtt ∈ ack.rttSample,0 ≤ rtt ∧ rtt ≤ microsecondsMax) :
    Sampled (onAckEvent clock fp c s ack).state (samples++ack.rttSample.toList) := by
  refine ⟨?_,List.forall_mem_append.mpr ⟨h.2,by simpa using hack⟩⟩
  rw [onAckEvent_rttSampler,noteRtt]
  cases hrtt : ack.rttSample with
  | none => simpa using h.1
  | some rtt => exact h.1.newRttSample (hack rtt hrtt).2 ack.ackTime

lemma Sampled.step (fp : DelayFloatUnit) {x : Controlled WestwoodOWD × List ℤ} (h : Sampled x.1 x.2)
    {e : CcEvent} (he : e.SampleInRange) :
    Sampled (sampled clock c fp x e).1 (sampled clock c fp x e).2 := by
  refine Controlled.handle_logged_invariant _ _ (P := Sampled) (fun _ h => h) ?_ ?_ h
  · intro loss _ h
    rw [List.append_nil]
    refine ⟨onPacketLoss_rttSampler (P := (·.Sound x.2)) clock fp c x.1 h.1 (fun t => ?_) loss,h.2⟩
    exact WestwoodRttSampler.resetRttSample_sound t
  · intro t ack l hack h
    exact h.onAckEvent fp (he.ackOf hack)

lemma sampled_construct (inflight : ℕ) : Sampled (construct clock c inflight) [] :=
  ⟨.inr ⟨rfl,rfl⟩,by simp⟩

lemma lossUsesSample_iff {x : Controlled WestwoodOWD × List ℤ} (h : Sampled x.1 x.2) (e : CcEvent) :
    LossUsesSample clock undef c x e ↔ LossFindsFreshMin x e := by
  refine forall_congr' fun loss => forall_congr' fun _ => forall_congr' fun hstart =>
    forall_congr' fun _ => ?_
  rw [← h.1.unexpired_mem_iff,← settleLoss_minRtt clock x.1 loss,onPacketLoss_of_startsRecovery _ _ _ hstart]
  refine ⟨fun hlaw => hlaw.1,fun hmem => ?_⟩
  rw [Outcome.done_state,ifPersistent_ssthresh,startRecovery_ssthresh,settleLoss_toWestwoodCore]
  exact fromSamples_of_mem undef (fun _ => 1/4) c 40000 _ h.2 hmem

end WestwoodOWD

def slowClock (k : ℕ) : ℤ := 40000000000*k

open Run in
/-- In every run, and for both controllers, all losses obey the law exactly if none of
those that cut a positive estimate meets a raised expiry flag. -/
theorem losses_use_samples_iff (clock : ℕ → ℤ) (undef : ℕ → ℕ) (coef : ℕ → ℚ) (c : CwndSettings)
    (inflight : ℕ) (es : List CcEvent) (hes : ∀ e ∈ es,e.SampleInRange) :
    (EveryStep (Westwood.sampled clock c (.exact undef coef 0))
        (Westwood.LossUsesSample clock undef coef c) (Westwood.construct clock c inflight,[]) es ↔
      EveryStep (Westwood.sampled clock c (.exact undef coef 0))
        Westwood.LossFindsFreshMin (Westwood.construct clock c inflight,[]) es) ∧
    (EveryStep (sampled clock c (.exact undef))
        (LossUsesSample clock undef c) (construct clock c inflight,[]) es ↔
      EveryStep (sampled clock c (.exact undef)) LossFindsFreshMin (construct clock c inflight,[]) es) := by
  constructor
  · exact everyStep_congr (P := fun x => Westwood.Sampled x.1 x.2)
      (Westwood.sampled_construct inflight) (fun _ ht e he => ht.step _ (hes e he))
      fun _ ht e _ => Westwood.lossUsesSample_iff undef coef ht e
  · exact everyStep_congr (P := fun x => Sampled x.1 x.2)
      (sampled_construct inflight) (fun _ ht e he => ht.step _ (hes e he))
      fun _ ht e _ => lossUsesSample_iff undef ht e

theorem losses_use_samples_first_sample :
    Run.EveryStep (Westwood.sampled slowClock {} (.exact (fun _ => 0) (fun _ => 1/4) 0))
        (Westwood.LossUsesSample slowClock (fun _ => 0) (fun _ => 1/4) {})
        (Westwood.construct slowClock {} 2000,[])
        [ackOfOne 40000000000 100000,lossOfOne 80000000000 0] ∧
    Run.EveryStep (sampled slowClock {} (.exact fun _ => 0))
        (WestwoodOWD.LossUsesSample slowClock (fun _ => 0) {})
        (construct slowClock {} 2000,[])
        [ackOfOne 40000000000 100000,lossOfOne 80000000000 0] := by
  have h := losses_use_samples_iff slowClock (fun _ => 0) (fun _ => 1/4) {} 2000
    [ackOfOne 40000000000 100000,lossOfOne 80000000000 0]
    (by simp [lossOfOne,ackOfOne,CcEvent.SampleInRange,microsecondsMax])
  refine ⟨h.1.mpr ⟨?_,?_,trivial⟩,h.2.mpr ⟨?_,?_,trivial⟩⟩
  · rintro loss ⟨⟩
  · rintro loss ⟨⟩ - -
    exact .inl (by decide +kernel)
  · rintro loss ⟨⟩
  · rintro loss ⟨⟩ - -
    exact .inl (by decide +kernel)

def beforeLateLoss : List CcEvent :=
  [.packetSent 1000,.packetSent 1000,.packetSent 1000,ackOfOne 40000000000 100000,ackOfOne 80000000000 150000]

/-- After the second ack the minimum is 150 ms and the flag is up, so the loss computes
with `microseconds::max()`. -/
theorem late_loss_uses_no_sample :
    Monotone slowClock ∧ (∀ e ∈ beforeLateLoss++[lossOfOne 80000000000 0], e.SampleInRange) ∧
    ¬Run.EveryStep (Westwood.sampled slowClock {} (.exact (fun _ => 0) (fun _ => 1/4) 0))
        (Westwood.LossUsesSample slowClock (fun _ => 0) (fun _ => 1/4) {})
        (Westwood.construct slowClock {} 0,[]) (beforeLateLoss++[lossOfOne 80000000000 0]) ∧
    ¬Run.EveryStep (sampled slowClock {} (.exact fun _ => 0))
        (WestwoodOWD.LossUsesSample slowClock (fun _ => 0) {})
        (construct slowClock {} 0,[]) (beforeLateLoss++[lossOfOne 80000000000 0]) := by
  refine ⟨fun a b h => ?_,?_,?_,?_⟩
  · exact mul_le_mul_of_nonneg_left (by exact_mod_cast h) (by norm_num)
  · simp [beforeLateLoss,lossOfOne,ackOfOne,SampleInRange,microsecondsMax]
  · intro h
    have hlaw := Run.everyStep_iff.mp h beforeLateLoss (lossOfOne 80000000000 0) [] rfl _ rfl (by decide +kernel)
      (by decide +kernel)
    exact absurd hlaw.1 (by decide +kernel)
  · intro h
    have hlaw := Run.everyStep_iff.mp h beforeLateLoss (lossOfOne 80000000000 0) [] rfl _ rfl (by decide +kernel)
      (by decide +kernel)
    exact absurd hlaw.1 (by decide +kernel)

end QuicWestwood
