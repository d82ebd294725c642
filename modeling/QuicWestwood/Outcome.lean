import Mathlib

/-! An exception does not undo what a call has already written: `Outcome` keeps the state reached together with
the exception, if any. Sequencing stops at the first exception, and an invariant of the pieces is an invariant
of the whole call. -/
namespace QuicWestwood

/-- The state a call leaves behind and the exception it ended with. -/
structure Outcome (ε σ : Type*) where
  state : σ
  thrown : Option ε
  deriving DecidableEq

namespace Outcome
variable {ε σ τ α : Type*}

def done (s : σ) : Outcome ε σ := ⟨s,none⟩

def fail (e : ε) (s : σ) : Outcome ε σ := ⟨s,some e⟩

def andThen (o : Outcome ε σ) (f : σ → Outcome ε σ) : Outcome ε σ :=
  match o.thrown with
  | none => f o.state
  | some _ => o

def toExcept {ε σ : Type} (o : Outcome ε σ) : Except ε σ :=
  match o.thrown with
  | none => .ok o.state
  | some e => .error e

/-- Run a part of the state, leaving the frame `put` alone. -/
def within (put : τ → σ) (o : Outcome ε τ) : Outcome ε σ := ⟨put o.state,o.thrown⟩

def each (f : σ → α → Outcome ε σ) : σ → List α → Outcome ε σ
  | s, [] => done s
  | s, a::as => (f s a).andThen fun s' => each f s' as

/-- The arguments and entry states of the calls that `each` really makes. -/
def entries (f : σ → α → Outcome ε σ) : σ → List α → List (σ × α)
  | _, [] => []
  | s, a::as =>
    (s,a)::match (f s a).thrown with
      | none => entries f (f s a).state as
      | some _ => []

@[simp] lemma done_state (s : σ) : (done s : Outcome ε σ).state = s := rfl
@[simp] lemma done_thrown (s : σ) : (done s : Outcome ε σ).thrown = none := rfl
@[simp] lemma fail_state (e : ε) (s : σ) : (fail e s).state = s := rfl
@[simp] lemma fail_thrown (e : ε) (s : σ) : (fail e s).thrown = some e := rfl
@[simp] lemma within_state (put : τ → σ) (o : Outcome ε τ) :
    (within put o).state = put o.state := rfl
@[simp] lemma within_thrown (put : τ → σ) (o : Outcome ε τ) :
    (within put o).thrown = o.thrown := rfl

@[simp] lemma done_andThen (s : σ) (f : σ → Outcome ε σ) : (done s).andThen f = f s := rfl

@[simp] lemma fail_andThen (e : ε) (s : σ) (f : σ → Outcome ε σ) :
    (fail e s).andThen f = fail e s := rfl

variable {o : Outcome ε σ}

lemma andThen_of_none (h : o.thrown=none) (f : σ → Outcome ε σ) : o.andThen f = f o.state := by
  simp [andThen,h]

lemma andThen_of_some {e : ε} (h : o.thrown = some e) (f : σ → Outcome ε σ) : o.andThen f = o := by
  simp [andThen,h]

/-- Invariant rule for sequencing: the second call only needs to keep what the first left. -/
theorem andThen_invariant {P : σ → Prop} {f : σ → Outcome ε σ} (ho : P o.state)
    (hf : P o.state → P (f o.state).state) : P (o.andThen f).state := by
  cases h : o.thrown with
  | none => rw [andThen_of_none h]; exact hf ho
  | some e => rw [andThen_of_some h]; exact ho

theorem andThen_thrown {E : ε → Prop} {f : σ → Outcome ε σ} (ho : ∀ e,o.thrown = some e → E e)
    (hf : ∀ e,(f o.state).thrown = some e → E e) : ∀ e,(o.andThen f).thrown = some e → E e := by
  intro e he
  cases h : o.thrown with
  | none => rw [andThen_of_none h] at he; exact hf e he
  | some e' => rw [andThen_of_some h,h] at he; exact ho e (h.trans he)

variable {f : σ → α → Outcome ε σ}

/-- A loop keeps a relation between the state and the log of its calls. -/
theorem each_logged_invariant {P : σ → List (σ × α) → Prop}
    (hf : ∀ s a l,P s l → P (f s a).state (l++[(s,a)])) {s : σ} {l : List (σ × α)} (hs : P s l)
    (as : List α) : P (each f s as).state (l++entries f s as) := by
  induction as generalizing s l with
  | nil => simpa [each,entries] using hs
  | cons a as ih =>
    have hone := hf s a l hs
    cases h : (f s a).thrown with
    | none => simpa [each,entries,andThen_of_none h,h] using ih hone
    | some e => simpa [each,entries,andThen_of_some h,h] using hone

theorem each_invariant {P : σ → Prop} (hf : ∀ s a,P s → P (f s a).state) {s : σ} (hs : P s) (as : List α) :
    P (each f s as).state :=
  each_logged_invariant (P := fun s _ => P s) (l := []) (fun s a _ => hf s a) hs as

theorem each_thrown {P : σ → Prop} {E : ε → Prop} (hf : ∀ s a,P s → P (f s a).state)
    (he : ∀ s a,P s → ∀ e,(f s a).thrown = some e → E e) {s : σ} (hs : P s) (as : List α) :
    ∀ e,(each f s as).thrown = some e → E e := by
  induction as generalizing s with
  | nil => intro e h; simp [each] at h
  | cons a as ih => exact andThen_thrown (he s a hs) (ih (hf s a hs))

lemma each_eq_done {s : σ} {as : List α} (h : ∀ a ∈ as,f s a = done s) : each f s as = done s := by
  induction as with
  | nil => rfl
  | cons a as ih =>
    rw [each,h a (by simp),done_andThen]
    exact ih fun b hb => h b (by simp [hb])

end Outcome

end QuicWestwood
