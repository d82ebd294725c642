import Mathlib

/-! A running sum that is clamped at zero after every increment equals the excess of the unclamped sum over its
running minimum. Through that equation the effect of errors in the increments is read off the sums themselves.
-/
namespace QuicWestwood.ReflectedSum

variable {α : Type*} [LinearOrder α]

def runningMin (x : ℕ → α) : ℕ → α
  | 0 => x 0
  | k+1 => min (runningMin x k) (x (k+1))

lemma runningMin_le (x : ℕ → α) {j k : ℕ} (h : j≤k) : runningMin x k ≤ x j := by
  induction k with
  | zero => obtain rfl := Nat.le_zero.mp h; exact le_rfl
  | succ k ih =>
    rcases Nat.le_succ_iff.mp h with hj | rfl
    · exact (min_le_left _ _).trans (ih hj)
    · exact min_le_right _ _

lemma exists_runningMin (x : ℕ → α) (k : ℕ) : ∃ j ≤ k,runningMin x k = x j := by
  induction k with
  | zero => exact ⟨0,le_rfl,rfl⟩
  | succ k ih =>
    obtain ⟨j,hj,hmin⟩ := ih
    rcases min_choice (runningMin x k) (x (k+1)) with h | h
    · exact ⟨j,hj.trans (Nat.le_succ k),h.trans hmin⟩
    · exact ⟨k+1,le_rfl,h⟩

variable [AddCommGroup α]

/-- How far `x k` lies above the least of `x 0, …, x k`. -/
def excess (x : ℕ → α) (k : ℕ) : α := x k-runningMin x k

@[simp] lemma excess_zero (x : ℕ → α) : excess x 0 = 0 := sub_self _

lemma excess_of_isLeast {x : ℕ → α} {j k : ℕ} (hj : j≤k) (h : ∀ i ≤ k,x j ≤ x i) :
    excess x k = x k-x j := by
  obtain ⟨i,hi,hmin⟩ := exists_runningMin x k
  rw [excess,le_antisymm (runningMin_le x hj) (hmin ▸ h i hi)]

lemma excess_le {x : ℕ → α} {k : ℕ} {b : α} (h : ∀ j ≤ k,x k-x j ≤ b) : excess x k ≤ b := by
  obtain ⟨j,hj,hmin⟩ := exists_runningMin x k
  rw [excess,hmin]
  exact h j hj

lemma excess_congr {x y : ℕ → α} {k : ℕ} (h : ∀ j ≤ k,x j = y j) : excess x k = excess y k := by
  have hmin : ∀ i ≤ k,runningMin x i = runningMin y i := by
    intro i hi
    induction i with
    | zero => exact h 0 hi
    | succ i ih => rw [runningMin,runningMin,ih (by omega),h _ hi]
  rw [excess,excess,h k le_rfl,hmin k le_rfl]

/-- The last partial sum of `l` less the least one, the empty sum included. -/
def reflected (l : List α) : α := excess (fun j => (l.take j).sum) l.length

@[simp] lemma reflected_nil : reflected ([] : List α) = 0 := excess_zero _

variable [IsOrderedAddMonoid α]

/-- Clamping after each increment computes the excess over the running minimum. -/
theorem excess_succ (x : ℕ → α) (k : ℕ) :
    excess x (k+1) = max 0 (excess x k+(x (k+1)-x k)) := by
  have hstep : excess x k+(x (k+1)-x k) = x (k+1)-runningMin x k := by
    rw [excess]; abel
  rw [hstep,excess,runningMin]
  rcases le_total (runningMin x k) (x (k+1)) with h | h
  · rw [min_eq_left h,max_eq_right (sub_nonneg.mpr h)]
  · rw [min_eq_right h,sub_self,max_eq_left (sub_nonpos.mpr h)]

theorem reflected_snoc (l : List α) (v : α) : reflected (l++[v]) = max 0 (reflected l+v) := by
  have hlow : excess (fun j => ((l++[v]).take j).sum) l.length = reflected l :=
    excess_congr fun j hj => by rw [List.take_append_of_le_length hj]
  rw [reflected,List.length_append,List.length_singleton,excess_succ,hlow]
  simp [List.take_of_length_le]

lemma reflected_nonneg (l : List α) : 0 ≤ reflected l :=
  sub_nonneg.mpr (runningMin_le _ le_rfl)

lemma le_excess (x : ℕ → α) {j k : ℕ} (h : j≤k) : x k-x j ≤ excess x k :=
  sub_le_sub_left (runningMin_le x h) _

/-- Sums whose increments up to `k` differ by at most `b` in total differ by at most `b`
after reflection, whatever `k` is. -/
theorem abs_excess_sub_le {x y : ℕ → α} {k : ℕ} {b : α}
    (h : ∀ j ≤ k,|(x k-x j)-(y k-y j)| ≤ b) : |excess x k-excess y k| ≤ b := by
  rw [abs_sub_le_iff]
  constructor
  · rw [sub_le_iff_le_add]
    exact excess_le fun j hj => by
      have hup := sub_le_iff_le_add.mp ((abs_sub_le_iff.mp (h j hj)).1)
      exact hup.trans (add_le_add_right (le_excess y hj) b)
  · rw [sub_le_iff_le_add]
    exact excess_le fun j hj => by
      have hup := sub_le_iff_le_add.mp ((abs_sub_le_iff.mp (h j hj)).2)
      exact hup.trans (add_le_add_right (le_excess x hj) b)

end QuicWestwood.ReflectedSum
