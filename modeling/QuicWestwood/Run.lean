import Mathlib

/-! A run feeds a list of events to a step function. `EveryStep` states a property of every event of a run in
the state it meets; `logged` records what happens inside the steps, so that statements about whole histories are
invariants of the log. -/
namespace QuicWestwood.Run

variable {σ α γ : Type*}

def run (step : σ → α → σ) (s : σ) (es : List α) : σ := es.foldl step s

@[simp] lemma run_nil (step : σ → α → σ) (s : σ) : run step s [] = s := rfl

@[simp] lemma run_cons (step : σ → α → σ) (s : σ) (e : α) (es : List α) :
    run step s (e::es) = run step (step s e) es := rfl

lemma run_append (step : σ → α → σ) (s : σ) (es fs : List α) :
    run step s (es++fs) = run step (run step s es) fs := List.foldl_append

variable {step : σ → α → σ} {P : σ → Prop} {es : List α}

/-- What holds initially and is kept by the events of the run holds after it. -/
theorem run_invariant {s : σ} (hs : P s) (hstep : ∀ t,P t → ∀ e ∈ es,P (step t e)) : P (run step s es) := by
  induction es generalizing s with
  | nil => exact hs
  | cons e es ih =>
    exact ih (hstep s hs e (by simp)) fun t ht f hf => hstep t ht f (by simp [hf])

/-- `Q` holds of every event of the run in the state in which it arrives. -/
def EveryStep (step : σ → α → σ) (Q : σ → α → Prop) : σ → List α → Prop
  | _, [] => True
  | s, e::es => Q s e ∧ EveryStep step Q (step s e) es

instance EveryStep.decidable (step : σ → α → σ) (Q : σ → α → Prop) [∀ s e,Decidable (Q s e)] :
    (s : σ) → (es : List α) → Decidable (EveryStep step Q s es)
  | _, [] => .isTrue trivial
  | s, e::es => @instDecidableAnd _ _ _ (EveryStep.decidable step Q (step s e) es)

variable {Q : σ → α → Prop}

theorem everyStep_iff {s : σ} :
    EveryStep step Q s es ↔ ∀ pre e post,es = pre++e::post → Q (run step s pre) e := by
  induction es generalizing s with
  | nil => simp [EveryStep]
  | cons f es ih =>
    constructor
    · rintro ⟨hf,hes⟩ pre e post he
      cases pre with
      | nil => obtain ⟨rfl,-⟩ := List.cons.inj he; exact hf
      | cons g pre =>
        obtain ⟨rfl,hrest⟩ := List.cons.inj he
        exact ih.mp hes pre e post hrest
    · intro h
      refine ⟨h [] f es rfl,ih.mpr fun pre e post he => ?_⟩
      exact h (f::pre) e post (by rw [he]; rfl)

theorem everyStep_congr {Q R : σ → α → Prop} {s : σ} (hs : P s) (hstep : ∀ t,P t → ∀ e ∈ es,P (step t e))
    (hQR : ∀ t,P t → ∀ e ∈ es,(Q t e ↔ R t e)) : EveryStep step Q s es ↔ EveryStep step R s es := by
  induction es generalizing s with
  | nil => rfl
  | cons e es ih =>
    refine and_congr (hQR s hs e (by simp)) (ih (hstep s hs e (by simp)) ?_ ?_)
    · exact fun t ht f hf => hstep t ht f (by simp [hf])
    · exact fun t ht f hf => hQR t ht f (by simp [hf])

theorem everyStep_of_invariant {s : σ} (hs : P s) (hstep : ∀ t,P t → ∀ e ∈ es,P (step t e))
    (hQ : ∀ t,P t → ∀ e ∈ es,Q t e) : EveryStep step Q s es := by
  induction es generalizing s with
  | nil => trivial
  | cons e es ih =>
    refine ⟨hQ s hs e (by simp),ih (hstep s hs e (by simp)) ?_ ?_⟩
    · exact fun t ht f hf => hstep t ht f (by simp [hf])
    · exact fun t ht f hf => hQ t ht f (by simp [hf])

/-- Two step properties that agree as long as the second has held at every step before agree on runs of events that
are admissible where they arrive. -/
theorem everyStep_congr_given {A Q R : σ → α → Prop} {s : σ} (hs : P s) (hA : EveryStep step A s es)
    (hstep : ∀ t,P t → ∀ e ∈ es,A t e → (Q t e ↔ R t e) ∧ (R t e → P (step t e))) :
    EveryStep step Q s es ↔ EveryStep step R s es := by
  induction es generalizing s with
  | nil => rfl
  | cons e es ih =>
    obtain ⟨hiff,hnext⟩ := hstep s hs e (by simp) hA.1
    rw [EveryStep,EveryStep,hiff]
    exact and_congr_right fun hR => ih (hnext hR) hA.2 fun t ht f hf => hstep t ht f (by simp [hf])

theorem everyStep_congr_while {Q R : σ → α → Prop} {s : σ} (hs : P s)
    (hstep : ∀ t,P t → ∀ e ∈ es,(Q t e ↔ R t e) ∧ (R t e → P (step t e))) :
    EveryStep step Q s es ↔ EveryStep step R s es := by
  have hall : EveryStep step (fun _ _ => True) s es :=
    everyStep_of_invariant (P := fun _ => True) trivial (fun _ _ _ _ => trivial) fun _ _ _ _ => trivial
  exact everyStep_congr_given hs hall fun t ht e he _ => hstep t ht e he

theorem everyStep_map {τ : Type*} {step' : τ → α → τ} {Q' : τ → α → Prop} (proj : σ → τ)
    (hstep : ∀ s e,proj (step s e) = step' (proj s) e) (hQ : ∀ s e,Q s e ↔ Q' (proj s) e) (s : σ)
    (es : List α) : EveryStep step Q s es ↔ EveryStep step' Q' (proj s) es := by
  induction es generalizing s with
  | nil => rfl
  | cons e es ih => rw [EveryStep,EveryStep,hQ,ih,hstep]

def logged (step : σ → α → σ) (note : σ → α → List γ) (x : σ × List γ) (e : α) : σ × List γ :=
  (step x.1 e,x.2++note x.1 e)

end QuicWestwood.Run
