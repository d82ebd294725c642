import Mathlib

/-! `settle` repeats a step as long as it applies. A measure that every step lowers is the fuel of the loop, so
the loop ends where the step no longer applies. -/
namespace QuicWestwood.Settle

variable {σ : Type*}

def loop (step : σ → Option σ) : ℕ → σ → σ
  | 0, s => s
  | n+1, s =>
    match step s with
    | none => s
    | some t => loop step n t

def settle (step : σ → Option σ) (measure : σ → ℕ) (s : σ) : σ := loop step (measure s) s

def Lowers (step : σ → Option σ) (measure : σ → ℕ) : Prop :=
  ∀ s t,step s = some t → measure t < measure s

variable {step : σ → Option σ} {measure : σ → ℕ} {s t : σ}

lemma loop_of_none (n : ℕ) (h : step s = none) : loop step n s = s := by
  cases n with
  | zero => rfl
  | succ n => simp only [loop,h]

lemma loop_eq_settle (hlow : Lowers step measure) {n : ℕ} (h : measure s ≤ n) :
    loop step n s = settle step measure s := by
  unfold settle
  generalize hm : measure s = m at h
  induction m using Nat.strong_induction_on generalizing s n with
  | _ m ih =>
    cases hs : step s with
    | none => rw [loop_of_none n hs,loop_of_none m hs]
    | some t =>
      have hlt := hlow s t hs
      obtain ⟨n,rfl⟩ : ∃ k,n = k+1 := ⟨n-1,by omega⟩
      obtain ⟨m,rfl⟩ : ∃ k,m = k+1 := ⟨m-1,by omega⟩
      simp only [loop,hs]
      rw [ih (measure t) (by omega) rfl (show measure t ≤ n by omega),
        ih (measure t) (by omega) rfl (show measure t ≤ m by omega)]

lemma settle_of_none (h : step s = none) : settle step measure s = s := loop_of_none _ h

lemma settle_of_some (hlow : Lowers step measure) (h : step s = some t) :
    settle step measure s = settle step measure t := by
  have hlt := hlow s t h
  conv_lhs => rw [settle,show measure s = (measure s-1)+1 by omega]
  simp only [loop,h]
  exact loop_eq_settle hlow (by omega)

/-- What holds when nothing is left to do and is handed back by every step holds of every start. -/
theorem settle_induction (hlow : Lowers step measure) {P : σ → σ → Prop}
    (hnone : ∀ s,step s = none → P s s)
    (hsome : ∀ s t,step s = some t → P t (settle step measure t) → P s (settle step measure t)) (s : σ) :
    P s (settle step measure s) := by
  generalize hm : measure s = m
  induction m using Nat.strong_induction_on generalizing s with
  | _ m ih =>
    cases hs : step s with
    | none =>
      rw [settle_of_none hs]
      exact hnone s hs
    | some t =>
      rw [settle_of_some hlow hs]
      exact hsome s t hs (ih (measure t) (hm ▸ hlow s t hs) t rfl)

/-- The loop ends where the step does not apply. -/
theorem step_settle (hlow : Lowers step measure) (s : σ) : step (settle step measure s) = none :=
  settle_induction hlow (P := fun _ e => step e = none) (fun _ h => h) (fun _ _ _ h => h) s

end QuicWestwood.Settle
