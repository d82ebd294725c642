import QuicWestwood.LossDetection

/-! `updateRtt` moves `srtt` towards each adjusted sample with two truncating divisions, so that it may settle
below all samples. Small samples take it down to 0, which marks that no sample has been seen yet. -/
namespace QuicWestwood.LossState
open Run

def adjustedRtt (l : LossState) (rttSample ackDelay : ℤ) : ℤ :=
  if ackDelay < rttSample ∧ min l.mrtt rttSample+ackDelay < rttSample then rttSample-ackDelay else rttSample

def recordedUpdate : LossState × List (ℤ × ℤ) → ℤ × ℤ → LossState × List (ℤ × ℤ) :=
  logged (fun l c => l.updateRtt c.1 c.2) fun l c => [(c.1,l.adjustedRtt c.1 c.2)]

/-- The bounds that the samples give for `mrtt` and `srtt`. -/
structure Tracks (l : LossState) (samples : List (ℤ × ℤ)) : Prop where
  mrtt_mem : l.mrtt ∈ samples.map Prod.fst
  mrtt_le : ∀ s ∈ samples,l.mrtt ≤ s.1
  mrtt_le_adjusted : ∀ s ∈ samples,l.mrtt ≤ s.2
  srtt_le : ∃ s ∈ samples,l.srtt ≤ s.2
  le_srtt : ∃ s ∈ samples,s.2-2*kRttAlpha ≤ l.srtt

def Sampled (x : LossState × List (ℤ × ℤ)) : Prop :=
  (x.2=[] ∧ x.1.mrtt = 2^63-1 ∧ x.1.srtt=0) ∨ (0≤x.1.srtt ∧ (∀ s ∈ x.2,1 ≤ s.1) ∧ x.1.Tracks x.2)

variable {l : LossState} {samples : List (ℤ × ℤ)} {rttSample ackDelay : ℤ}

lemma mrtt_le_adjustedRtt (l : LossState) (rttSample ackDelay : ℤ) :
    min l.mrtt rttSample ≤ l.adjustedRtt rttSample ackDelay := by
  unfold adjustedRtt
  split_ifs <;> omega

lemma updateRtt_srtt (hsrtt : 0≤l.srtt) (hadjusted : 0 ≤ l.adjustedRtt rttSample ackDelay) :
    (l.updateRtt rttSample ackDelay).srtt = if l.srtt=0 then l.adjustedRtt rttSample ackDelay
      else l.srtt*7/8+l.adjustedRtt rttSample ackDelay/8 := by
  rw [← Int.tdiv_eq_ediv_of_nonneg hadjusted,← Int.tdiv_eq_ediv_of_nonneg (by omega : 0 ≤ l.srtt*7)]
  rfl

lemma updateRtt_srtt_eq_zero_iff (hsrtt : 0≤l.srtt) (hadjusted : 1 ≤ l.adjustedRtt rttSample ackDelay) :
    (l.updateRtt rttSample ackDelay).srtt = 0 ↔ l.srtt=1 ∧ l.adjustedRtt rttSample ackDelay < 8 := by
  rw [updateRtt_srtt hsrtt (by omega)]
  split_ifs <;> omega

lemma Tracks.updateRtt (h : l.Tracks samples) (hsrtt : 0≤l.srtt)
    (hadjusted : 0 ≤ l.adjustedRtt rttSample ackDelay) :
    (l.updateRtt rttSample ackDelay).Tracks (samples++[(rttSample,l.adjustedRtt rttSample ackDelay)]) := by
  have hmrtt : (l.updateRtt rttSample ackDelay).mrtt = min l.mrtt rttSample := rfl
  have hle := l.mrtt_le_adjustedRtt rttSample ackDelay
  have hnew := updateRtt_srtt hsrtt hadjusted
  have hlast : (rttSample,l.adjustedRtt rttSample ackDelay) ∈
      samples++[(rttSample,l.adjustedRtt rttSample ackDelay)] := by simp
  generalize l.adjustedRtt rttSample ackDelay = adjusted at *
  obtain ⟨high,hhigh,hsrtt_le⟩ := h.srtt_le
  obtain ⟨low,hlow,hle_srtt⟩ := h.le_srtt
  constructor
  · rw [hmrtt]
    rcases min_choice l.mrtt rttSample with hmin | hmin
    · rw [hmin,List.map_append]
      exact List.mem_append_left _ h.mrtt_mem
    · simp [hmin]
  · intro s hs
    rw [hmrtt]
    rcases List.mem_append.mp hs with hs | hs
    · exact (min_le_left _ _).trans (h.mrtt_le s hs)
    · rw [List.mem_singleton.mp hs]
      exact min_le_right _ _
  · intro s hs
    rw [hmrtt]
    rcases List.mem_append.mp hs with hs | hs
    · exact (min_le_left _ _).trans (h.mrtt_le_adjusted s hs)
    · rw [List.mem_singleton.mp hs]
      exact hle
  -- the larger of the bound so far and the new sample bounds the mean of the two
  · rcases le_total adjusted high.2 with hcase | hcase
    · refine ⟨high,List.mem_append_left _ hhigh,?_⟩
      rw [hnew]
      split_ifs <;> omega
    · refine ⟨_,hlast,?_⟩
      rw [hnew]
      split_ifs <;> omega
  · simp only [kRttAlpha] at hle_srtt ⊢
    rcases le_total low.2 adjusted with hcase | hcase
    · refine ⟨low,List.mem_append_left _ hlow,?_⟩
      rw [hnew]
      split_ifs <;> omega
    · refine ⟨_,hlast,?_⟩
      rw [hnew]
      split_ifs <;> omega

lemma tracks_first (hmrtt : l.mrtt = 2^63-1) (hsrtt : l.srtt=0) (hsample : rttSample < 2^63)
    (hadjusted : 0 ≤ l.adjustedRtt rttSample ackDelay) :
    (l.updateRtt rttSample ackDelay).Tracks [(rttSample,l.adjustedRtt rttSample ackDelay)] := by
  have hmin : (l.updateRtt rttSample ackDelay).mrtt = rttSample := by
    change min l.mrtt rttSample = rttSample
    omega
  have hle := l.mrtt_le_adjustedRtt rttSample ackDelay
  have hnew := updateRtt_srtt hsrtt.ge hadjusted
  rw [if_pos hsrtt] at hnew
  constructor <;> simp only [List.map_cons,List.map_nil,List.mem_singleton,forall_eq,exists_eq_left,hmin,hnew,kRttAlpha]
    <;> omega

lemma one_le_adjustedRtt {x : LossState × List (ℤ × ℤ)} (h : Sampled x) (hsample : 1 ≤ rttSample) (ackDelay : ℤ) :
    1 ≤ x.1.adjustedRtt rttSample ackDelay := by
  have hmrtt : 1≤x.1.mrtt := by
    rcases h with ⟨-,hmax,-⟩ | ⟨-,hpos,htracks⟩
    · omega
    · obtain ⟨s,hs,heq⟩ := List.mem_map.mp htracks.mrtt_mem
      exact heq ▸ hpos s hs
  have hle := x.1.mrtt_le_adjustedRtt rttSample ackDelay
  omega

lemma Sampled.recordedUpdate {x : LossState × List (ℤ × ℤ)} (h : Sampled x) {c : ℤ × ℤ} (hc : 1 ≤ c.1 ∧ c.1 < 2^63) :
    0 ≤ (recordedUpdate x c).1.srtt ∧ (∀ s ∈ (recordedUpdate x c).2,1 ≤ s.1) ∧
      (recordedUpdate x c).1.Tracks (recordedUpdate x c).2 := by
  have hadjusted : 1 ≤ x.1.adjustedRtt c.1 c.2 := one_le_adjustedRtt h hc.1 c.2
  obtain ⟨l,samples⟩ := x
  rcases h with ⟨hnone,hmrtt,hsrtt⟩ | ⟨hsrtt,hpos,htracks⟩
  · dsimp only at hnone
    subst hnone
    refine ⟨?_,by simp [LossState.recordedUpdate,logged,hc.1],tracks_first hmrtt hsrtt hc.2 (by omega)⟩
    change 0 ≤ (l.updateRtt c.1 c.2).srtt
    rw [updateRtt_srtt hsrtt.ge (by omega),if_pos hsrtt]
    omega
  · refine ⟨?_,?_,htracks.updateRtt hsrtt (by omega)⟩
    · change 0 ≤ (l.updateRtt c.1 c.2).srtt
      rw [updateRtt_srtt hsrtt (by omega)]
      split_ifs <;> omega
    · intro s hs
      rcases List.mem_append.mp hs with hs | hs
      · exact hpos s hs
      · rw [List.mem_singleton.mp hs]
        exact hc.1

/-- After every call `mrtt` is the least sample, no adjusted sample is below it and `srtt` is within the adjusted
samples up to `2 * kRttAlpha` below and not 0, if and only if no adjusted sample under 8 meets an `srtt` of 1. -/
theorem srtt_tracks_iff (calls : List (ℤ × ℤ)) (hcalls : ∀ c ∈ calls,1 ≤ c.1 ∧ c.1 < 2^63) :
    EveryStep recordedUpdate
        (fun x c => (recordedUpdate x c).1.Tracks (recordedUpdate x c).2 ∧ (recordedUpdate x c).1.srtt≠0) ({},[]) calls ↔
      EveryStep recordedUpdate (fun x c => x.1.srtt = 1 → 8 ≤ x.1.adjustedRtt c.1 c.2) ({},[]) calls := by
  have hstart : Sampled ({},[]) := .inl ⟨rfl,rfl,rfl⟩
  apply everyStep_congr hstart
  · intro x hx c hc
    exact .inr (hx.recordedUpdate (hcalls c hc))
  · intro x hx c hc
    have hsrtt : 0≤x.1.srtt := by
      rcases hx with ⟨-,-,hzero⟩ | ⟨hnonneg,-⟩
      · exact hzero.ge
      · exact hnonneg
    have hzero := updateRtt_srtt_eq_zero_iff hsrtt (one_le_adjustedRtt hx (hcalls c hc).1 c.2)
    rw [and_iff_right (hx.recordedUpdate (hcalls c hc)).2.2]
    change (x.1.updateRtt c.1 c.2).srtt≠0 ↔ _
    rw [ne_eq,hzero,not_and,not_lt]

theorem srtt_tracks_iff_long_samples :
    EveryStep recordedUpdate
        (fun x c => (recordedUpdate x c).1.Tracks (recordedUpdate x c).2 ∧ (recordedUpdate x c).1.srtt≠0) ({},[])
        [(100,20),(40,30),(9,0)] :=
  (srtt_tracks_iff _ (by decide)).mpr (by decide)

/-- Two samples of one microsecond take `srtt` back to 0. -/
theorem srtt_lost_to_truncation :
    ¬EveryStep recordedUpdate
        (fun x c => (recordedUpdate x c).1.Tracks (recordedUpdate x c).2 ∧ (recordedUpdate x c).1.srtt≠0) ({},[])
        [(1,0),(1,0)] := by
  intro h
  exact h.2.1.2 (by decide)

end QuicWestwood.LossState
