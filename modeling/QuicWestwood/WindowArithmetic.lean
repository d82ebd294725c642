import QuicWestwood.FlowControlFilter

/-! The window computes in 32 bits, with guards in front of each computation. Against it stands a pair of
unbounded integers. -/
namespace QuicWestwood.HTTP2

inductive WindowOp
  | reserve (amount : UInt32) (strict : Bool)
  | free (amount : UInt32)
  | setCapacity (capacity : UInt32)

namespace Window

/-- `reserve` outside of the strict mode. -/
def reserveLoose (w : Window) (amount : ℕ) : Option Window :=
  if int32Max<amount then none
  else if 0<w.outstanding ∧ int32Max-amount < w.outstanding then none
  else some {w with outstanding := int32 (w.outstanding+amount)}

/-- `none` if the call returns false. -/
def perform (w : Window) : WindowOp → Option Window
  | .reserve amount strict => if strict then w.reserve amount.toNat else w.reserveLoose amount.toNat
  | .free amount => w.free amount.toNat
  | .setCapacity capacity => w.setCapacity capacity.toNat

def step (w : Window) (op : WindowOp) : Window := (w.perform op).getD w

/-- The values of the signed computations that a call comes to, without a limit on their size. -/
def signedValues (w : Window) : WindowOp → List ℤ
  | .reserve amount _ =>
    if int32Max<amount.toNat then []
    else if 0<w.outstanding ∧ int32Max-amount.toNat < w.outstanding then [int32Max-amount.toNat]
    else [int32Max-amount.toNat,w.outstanding+amount.toNat]
  | .free amount =>
    if int32Max<amount.toNat then []
    else if w.outstanding<0 ∧ w.outstanding < int32Min+amount.toNat then [int32Min+amount.toNat]
    else [int32Min+amount.toNat,w.outstanding-amount.toNat,w.capacity-int32Max]
  | .setCapacity capacity =>
    if int32Max < capacity.toNat then []
    else if (capacity.toNat : ℤ)-w.capacity ≤ 0 then [capacity.toNat-w.capacity]
    else if w.capacity-w.outstanding ≤ 0 then [capacity.toNat-w.capacity,w.capacity-w.outstanding]
    else [capacity.toNat-w.capacity,w.capacity-w.outstanding,int32Max-(w.capacity-w.outstanding)]

/-- The call on unbounded integers, with the cases in which it is to be refused. -/
def spec (w : Window) : WindowOp → Option Window
  | .reserve amount strict =>
    if int32Max<amount.toNat ∨ int32Max < w.outstanding+amount.toNat ∨
      strict = true ∧ w.capacity < w.outstanding+amount.toNat then none
    else some {w with outstanding := w.outstanding+amount.toNat}
  | .free amount =>
    if int32Max<amount.toNat ∨ w.outstanding-amount.toNat < int32Min ∨
      int32Max < w.capacity-(w.outstanding-amount.toNat) then none
    else some {w with outstanding := w.outstanding-amount.toNat}
  | .setCapacity capacity =>
    if int32Max < capacity.toNat ∨ int32Max < capacity.toNat-w.outstanding then none
    else some {w with capacity := capacity.toNat}

/-- The bounds that tie the capacity and the outstanding bytes together. -/
structure Bounded (w : Window) : Prop where
  capacity_nonneg : 0≤w.capacity
  capacity_le : w.capacity ≤ int32Max
  low : int32Min≤w.outstanding
  high : w.outstanding ≤ int32Max
  size : w.capacity-w.outstanding ≤ int32Max

variable {w : Window}

lemma int32Max_eq : int32Max = 2^31-1 := rfl

lemma int32Min_eq : int32Min = -2^31 := rfl

section
variable (h : w.Bounded)
include h

lemma Bounded.getSize_eq : w.getSize = w.capacity-w.outstanding := by
  obtain ⟨hnonneg,hle,hlow,hhigh,hsize⟩ := h
  rw [int32Max_eq] at *
  exact int32_eq (by omega) (by omega)

lemma Bounded.signed (op : WindowOp) : ∀ x ∈ w.signedValues op,int32Min ≤ x ∧ x ≤ int32Max := by
  obtain ⟨hnonneg,hle,hlow,hhigh,hsize⟩ := h
  have hmax := int32Max_eq
  have hmin := int32Min_eq
  intro x hx
  cases op <;> simp only [signedValues] at hx <;> split_ifs at hx <;> simp at hx <;> omega

lemma Bounded.perform_eq_spec (op : WindowOp) : w.perform op = w.spec op := by
  have hgetSize := h.getSize_eq
  obtain ⟨hnonneg,hle,hlow,hhigh,hsize⟩ := h
  have hmax := int32Max_eq
  have hmin := int32Min_eq
  cases op with
  | reserve amount strict =>
    simp only [perform,spec,reserve,reserveLoose]
    by_cases hfits : w.outstanding+amount.toNat < 2^31
    · rw [int32_eq (by omega) hfits]
      cases strict <;> simp only [Bool.false_eq_true,if_false,if_true,false_and,or_false,true_and] <;>
        split_ifs <;> first | rfl | omega
    · cases strict <;> simp only [Bool.false_eq_true,if_false,if_true,false_and,or_false,true_and] <;>
        split_ifs <;> first | rfl | omega
  | free amount =>
    simp only [perform,spec,Window.free]
    by_cases hfits : -2^31 ≤ w.outstanding-amount.toNat
    · rw [int32_eq hfits (by omega)]
      split_ifs <;> first | rfl | omega
    · split_ifs <;> first | rfl | omega
  | setCapacity capacity =>
    simp only [perform,spec,Window.setCapacity,hgetSize]
    by_cases hfits : (capacity.toNat : ℤ) < 2^31
    · rw [int32_eq (by omega) (by omega)]
      split_ifs <;> first | rfl | omega
    · split_ifs <;> first | rfl | omega

lemma Bounded.step (op : WindowOp) : (w.step op).Bounded := by
  unfold Window.step
  rw [h.perform_eq_spec]
  have hmax := int32Max_eq
  have hmin := int32Min_eq
  cases op <;> simp only [spec] <;> split_ifs <;> first
    | exact h
    | obtain ⟨hnonneg,hle,hlow,hhigh,hsize⟩ := h
      constructor <;> simp only [Option.getD_some] <;> omega

end

/-- In every run from a capacity that the constructor accepts, each call does what it should to the integers or is
refused when it should be, none of its signed computations overflows, and the size after it is the difference. -/
theorem window_exact (capacity : UInt32) (w : Window) (hinit : Window.setCapacity {} capacity.toNat = some w)
    (ops : List WindowOp) :
    w = ⟨capacity.toNat,0⟩ ∧ Run.EveryStep Window.step (fun w op => w.perform op = w.spec op ∧
      (∀ x ∈ w.signedValues op,int32Min ≤ x ∧ x ≤ int32Max) ∧
      (w.step op).getSize = (w.step op).capacity-(w.step op).outstanding) w ops := by
  have hempty : Bounded {} := by constructor <;> decide
  have hcapacity : w = ⟨capacity.toNat,0⟩ ∧ w.Bounded := by
    have hstep := hempty.step (.setCapacity capacity)
    have hspec := hempty.perform_eq_spec (.setCapacity capacity)
    simp only [Window.step,perform,spec,hinit,Option.getD_some] at hstep hspec
    split_ifs at hspec
    exact ⟨Option.some.inj hspec,hstep⟩
  refine ⟨hcapacity.1,Run.everyStep_of_invariant hcapacity.2 (fun t ht op _ => ht.step op) ?_⟩
  exact fun t ht op _ => ⟨ht.perform_eq_spec op,ht.signed op,(ht.step op).getSize_eq⟩

theorem window_exact_negative :
    Run.EveryStep Window.step (fun w op => w.perform op = w.spec op ∧
      (∀ x ∈ w.signedValues op,int32Min ≤ x ∧ x ≤ int32Max) ∧
      (w.step op).getSize = (w.step op).capacity-(w.step op).outstanding) ⟨10,0⟩
      [.free 2147483637,.free 1,.reserve 4294967295 false] :=
  (window_exact 10 ⟨10,0⟩ (by decide) _).2

end Window

end QuicWestwood.HTTP2
