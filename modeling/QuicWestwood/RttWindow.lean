import QuicWestwood.WestwoodOWD

/-! After every sample a sampler holds a sample that has not expired and that no later one undercuts. Its mark
for an expired minimum, however, is about the minimum that the call has just replaced, not about the one it
holds. -/
namespace QuicWestwood
open WestwoodRttSampler

structure RttSample where
  rtt : ℤ
  time : ℤ
  deriving DecidableEq

namespace WestwoodRttSampler

def observed : WestwoodRttSampler × List RttSample → RttSample → WestwoodRttSampler × List RttSample :=
  Run.logged (fun r x => (r.newRttSample x.rtt x.time).1) fun _ x => [x]

/-- The sampler holds the sample `held` of its history: no later one is smaller, and it has not expired. -/
structure Holds (r : WestwoodRttSampler) (history : List RttSample) (now : ℤ) (held : RttSample) : Prop where
  minRtt_eq : r.minRtt=held.rtt
  since : ∃ before after,history = before++held::after ∧ ∀ y ∈ after,held.rtt ≤ y.rtt
  fresh : now-held.time ≤ r.expiration

def MarksHeldSample (r : WestwoodRttSampler) (history : List RttSample) (now : ℤ) : Prop :=
  ∃ held,r.Holds history now held ∧ (r.minRttExpired=true → r.expiration < now-held.time)

def ReportsReplacement (r : WestwoodRttSampler) (x : RttSample) : Prop :=
  (r.newRttSample x.rtt x.time).2 = true ↔
    ((r.newRttSample x.rtt x.time).1.minRtt,(r.newRttSample x.rtt x.time).1.minRttTimestamp) ≠
      (r.minRtt,r.minRttTimestamp)

def InTime (r : WestwoodRttSampler) (x : RttSample) : Prop := ∀ t ∈ r.minRttTimestamp,x.time ≤ t+r.expiration

instance (r : WestwoodRttSampler) (x : RttSample) : Decidable (r.InTime x) :=
  inferInstanceAs (Decidable (∀ t ∈ r.minRttTimestamp,x.time ≤ t+r.expiration))

variable {r : WestwoodRttSampler} {x : RttSample} {history : List RttSample}

lemma newRttSample_spec (r : WestwoodRttSampler) (x : RttSample) :
    (¬r.InTime x ∧ r.newRttSample x.rtt x.time =
      ({r with minRtt := x.rtt, minRttTimestamp := some x.time, rttExpired := true},true)) ∨
    (r.InTime x ∧ x.rtt < r.minRtt ∧ r.newRttSample x.rtt x.time =
      ({r with minRtt := x.rtt, minRttTimestamp := some x.time, rttExpired := false},true)) ∨
    (r.InTime x ∧ r.minRtt≤x.rtt ∧ r.newRttSample x.rtt x.time = ({r with rttExpired := false},false)) := by
  unfold newRttSample InTime
  cases hts : r.minRttTimestamp with
  | none =>
    by_cases hless : x.rtt < r.minRtt
    · exact .inr (.inl ⟨by simp,hless,by simp [hless]⟩)
    · exact .inr (.inr ⟨by simp,not_lt.mp hless,by simp [hless]⟩)
  | some t =>
    by_cases hlate : t+r.expiration < x.time
    · exact .inl ⟨by simpa using hlate,by simp [hlate]⟩
    · by_cases hless : x.rtt < r.minRtt
      · exact .inr (.inl ⟨by simpa using hlate,hless,by simp [hless,hlate]⟩)
      · exact .inr (.inr ⟨by simpa using hlate,not_lt.mp hless,by simp [hless,hlate]⟩)

/-- Either every sample so far was the mark for "no sample", or the timestamp is that of the sample held. -/
def Kept (r : WestwoodRttSampler) (history : List RttSample) : Prop :=
  (r.minRttTimestamp=none ∧ r.minRtt=microsecondsMax) ∨
    ∃ held,r.minRttTimestamp = some held.time ∧ r.minRtt=held.rtt ∧
      ∃ before after,history = before++held::after ∧ ∀ y ∈ after,held.rtt ≤ y.rtt

lemma Kept.call (h : r.Kept history) (x : RttSample) :
    (r.newRttSample x.rtt x.time).1.Kept (history++[x]) := by
  obtain ⟨-,hcall⟩ | ⟨-,-,hcall⟩ | ⟨-,hle,hcall⟩ := r.newRttSample_spec x
  · rw [hcall]
    exact .inr ⟨x,rfl,rfl,history,[],by simp⟩
  · rw [hcall]
    exact .inr ⟨x,rfl,rfl,history,[],by simp⟩
  · rw [hcall]
    obtain hnone | ⟨held,htime,hrtt,before,after,rfl,hafter⟩ := h
    · exact .inl hnone
    · refine .inr ⟨held,htime,hrtt,before,after++[x],by simp,fun y hy => ?_⟩
      obtain hy | hy := List.mem_append.mp hy
      · exact hafter y hy
      · rw [List.mem_singleton.mp hy,← hrtt]
        exact hle

lemma Kept.holds (h : r.Kept history) (hE : 0 ≤ r.expiration) (hrange : x.rtt ≤ microsecondsMax) :
    ∃ held,(r.newRttSample x.rtt x.time).1.Holds (history++[x]) x.time held := by
  obtain ⟨-,hcall⟩ | ⟨-,-,hcall⟩ | ⟨hin,hle,hcall⟩ := r.newRttSample_spec x
  · rw [hcall]
    exact ⟨x,rfl,⟨history,[],by simp⟩,by simpa using hE⟩
  · rw [hcall]
    exact ⟨x,rfl,⟨history,[],by simp⟩,by simpa using hE⟩
  · rw [hcall]
    obtain ⟨hnone,hmax⟩ | ⟨held,htime,hrtt,before,after,rfl,hafter⟩ := h
    · -- nothing was ever stored: the sample is itself the mark for "no sample"
      exact ⟨x,show r.minRtt = x.rtt by omega,⟨history,[],by simp⟩,by simpa using hE⟩
    · refine ⟨held,hrtt,⟨before,after++[x],by simp,fun y hy => ?_⟩,?_⟩
      · obtain hy | hy := List.mem_append.mp hy
        · exact hafter y hy
        · rw [List.mem_singleton.mp hy,← hrtt]
          exact hle
      · have := hin held.time htime
        change x.time-held.time ≤ r.expiration
        omega

lemma reportsReplacement (hE : 0 ≤ r.expiration) (x : RttSample) : r.ReportsReplacement x := by
  unfold ReportsReplacement
  obtain ⟨hlate,hcall⟩ | ⟨-,hless,hcall⟩ | ⟨-,-,hcall⟩ := r.newRttSample_spec x
  · rw [hcall]
    -- an expired minimum is older than the sample
    simp only [InTime,not_forall,not_le] at hlate
    obtain ⟨t,ht,hlate⟩ := hlate
    rw [Option.mem_def.mp ht]
    simp only [ne_eq,Prod.mk.injEq,Option.some.injEq,not_and,true_iff]
    omega
  · rw [hcall]
    simp only [ne_eq,Prod.mk.injEq,not_and,true_iff]
    omega
  · rw [hcall]
    simp

/-- The mark is about the sample held exactly if the minimum before it had not expired. -/
lemma Kept.marks_iff (h : r.Kept history) (hE : 0 ≤ r.expiration) (hrange : x.rtt ≤ microsecondsMax) :
    (r.newRttSample x.rtt x.time).1.MarksHeldSample (history++[x]) x.time ↔ r.InTime x := by
  have hholds := h.holds hE hrange
  obtain ⟨hlate,hcall⟩ | ⟨hin,-,hcall⟩ | ⟨hin,-,hcall⟩ := r.newRttSample_spec x
  · rw [hcall]
    constructor
    · rintro ⟨held,hheld,hmark⟩
      have hfresh := hheld.fresh
      have hold := hmark rfl
      omega
    · exact fun hin => absurd hin hlate
  · rw [hcall] at hholds ⊢
    obtain ⟨held,hheld⟩ := hholds
    exact ⟨fun _ => hin,fun _ => ⟨held,hheld,fun hmark => absurd hmark Bool.false_ne_true⟩⟩
  · rw [hcall] at hholds ⊢
    obtain ⟨held,hheld⟩ := hholds
    exact ⟨fun _ => hin,fun _ => ⟨held,hheld,fun hmark => absurd hmark Bool.false_ne_true⟩⟩

lemma newRttSample_expiration (r : WestwoodRttSampler) (x : RttSample) :
    (r.newRttSample x.rtt x.time).1.expiration = r.expiration := by
  obtain ⟨-,hcall⟩ | ⟨-,-,hcall⟩ | ⟨-,-,hcall⟩ := r.newRttSample_spec x <;> rw [hcall]

def InRange (samples : List RttSample) : Prop := ∀ x ∈ samples,x.rtt ≤ microsecondsMax

instance (samples : List RttSample) : Decidable (InRange samples) :=
  inferInstanceAs (Decidable (∀ x ∈ samples,x.rtt ≤ microsecondsMax))

lemma observed_kept {expiration : ℤ} {s : WestwoodRttSampler × List RttSample}
    (h : s.1.Kept s.2 ∧ s.1.expiration=expiration) (x : RttSample) :
    (observed s x).1.Kept (observed s x).2 ∧ (observed s x).1.expiration = expiration :=
  ⟨h.1.call x,(s.1.newRttSample_expiration x).trans h.2⟩

end WestwoodRttSampler

namespace WestwoodOWDRttSampler

def observed : WestwoodOWDRttSampler × List RttSample → RttSample → WestwoodOWDRttSampler × List RttSample :=
  Run.logged (fun r x => (r.newRttSample x.rtt x.time).1) fun _ x => [x]

end WestwoodOWDRttSampler

open Run WestwoodRttSampler

/-- After every call of a run the sampler holds a fresh minimum and has said whether it stored the sample. -/
theorem samplers_hold_minimum (expiration : ℤ) (hE : 0≤expiration) {samples : List RttSample}
    (hrange : InRange samples) :
    EveryStep observed (fun s x => s.1.ReportsReplacement x ∧
      ∃ held,(observed s x).1.Holds (s.2++[x]) x.time held) ({expiration},[]) samples := by
  refine everyStep_of_invariant (P := fun s => s.1.Kept s.2 ∧ s.1.expiration=expiration)
    ⟨.inl ⟨rfl,rfl⟩,rfl⟩ (fun _ hs x _ => observed_kept hs x) fun s hs x hx => ?_
  have hE' : 0 ≤ s.1.expiration := hs.2 ▸ hE
  exact ⟨reportsReplacement hE' x,hs.1.holds hE' (hrange x hx)⟩

/-- After every call of a run the sampler holds a fresh minimum, marks it as expired only if it is, and says (in
Westwood) whether it has stored the sample, exactly if every sample comes before the minimum expires. -/
theorem min_rtt_window_iff (expiration : ℤ) (hE : 0≤expiration) (samples : List RttSample)
    (hrange : InRange samples) :
    (EveryStep observed (fun s x => s.1.ReportsReplacement x ∧
        (observed s x).1.MarksHeldSample (s.2++[x]) x.time) ({expiration},[]) samples ↔
      EveryStep observed (fun s x => s.1.InTime x) ({expiration},[]) samples) ∧
    (EveryStep WestwoodOWDRttSampler.observed (fun s x =>
        (WestwoodOWDRttSampler.observed s x).1.MarksHeldSample (s.2++[x]) x.time) ({expiration},[]) samples ↔
      EveryStep WestwoodOWDRttSampler.observed (fun s x => s.1.InTime x) ({expiration},[]) samples) := by
  have hiff : ∀ s : WestwoodRttSampler × List RttSample,(s.1.Kept s.2 ∧ s.1.expiration=expiration) →
      ∀ x ∈ samples,((observed s x).1.MarksHeldSample (s.2++[x]) x.time ↔ s.1.InTime x) :=
    fun s hs x hx => hs.1.marks_iff (hs.2 ▸ hE) (hrange x hx)
  have hstart : Kept {expiration} [] ∧ expiration=expiration := ⟨.inl ⟨rfl,rfl⟩,rfl⟩
  have hkeep : ∀ s : WestwoodRttSampler × List RttSample,(s.1.Kept s.2 ∧ s.1.expiration=expiration) →
      ∀ x ∈ samples,_ := fun _ hs x _ => observed_kept hs x
  constructor
  · refine everyStep_congr (P := fun s => s.1.Kept s.2 ∧ s.1.expiration=expiration) hstart hkeep fun s hs x hx => ?_
    rw [hiff s hs x hx,and_iff_right (reportsReplacement (hs.2 ▸ hE) x)]
  · -- as far as the minimum is concerned, the two samplers are one
    have hproj : ∀ Q Q',(∀ s x,Q s x ↔ Q' (s.1.toWestwoodRttSampler,s.2) x) →
        (EveryStep WestwoodOWDRttSampler.observed Q ({expiration},[]) samples ↔
          EveryStep observed Q' ({expiration},[]) samples) :=
      fun Q Q' hQ => everyStep_map (fun s : WestwoodOWDRttSampler × List RttSample => (s.1.toWestwoodRttSampler,s.2))
        (fun _ _ => rfl) hQ _ _
    have hmarks := hproj
      (fun s x => (WestwoodOWDRttSampler.observed s x).1.MarksHeldSample (s.2++[x]) x.time)
      (fun s x => (observed s x).1.MarksHeldSample (s.2++[x]) x.time) fun _ _ => Iff.rfl
    have hin := hproj (fun s x => s.1.InTime x) (fun s x => s.1.InTime x) fun _ _ => Iff.rfl
    rw [hmarks,hin]
    exact everyStep_congr (P := fun s => s.1.Kept s.2 ∧ s.1.expiration=expiration) hstart hkeep hiff

theorem min_rtt_window_two_samples :
    EveryStep observed (fun s x => s.1.ReportsReplacement x ∧
        (observed s x).1.MarksHeldSample (s.2++[x]) x.time)
      ({expiration := 20000000000},[]) [⟨100000,0⟩,⟨80000,5000000000⟩] :=
  (min_rtt_window_iff 20000000000 (by decide) [⟨100000,0⟩,⟨80000,5000000000⟩] (by decide)).1.mpr (by decide)

/-- A sample that comes 20 s and 1 ns after the minimum replaces it and is then called expired itself. -/
theorem replaced_minimum_marked_expired :
    let r := (({expiration := 20000000000} : WestwoodRttSampler).newRttSample 100000 0).1
    let r' := (r.newRttSample 150000 20000000001).1
    r'.minRtt = 150000 ∧ r'.minRttTimestamp = some 20000000001 ∧ r'.minRttExpired=true ∧
      ¬r'.MarksHeldSample [⟨100000,0⟩,⟨150000,20000000001⟩] 20000000001 := by
  intro r r'
  refine ⟨by decide,by decide,by decide,?_⟩
  rintro ⟨held,hheld,hmark⟩
  have hfresh := hheld.fresh
  have hold := hmark (by decide)
  omega

end QuicWestwood
