import QuicWestwood.IntervalSet
import QuicWestwood.Run

/-! Insertions and withdrawals of intervals below the limit of the type, with the version that insertions count.
-/
namespace QuicWestwood
open List Run

/-- An operation with an interval that the constructor accepts. -/
inductive IntervalOp (max : ℕ)
  | insert (i : Interval) (bound : i.stop+1 ≤ max)
  | withdraw (i : Interval) (bound : i.stop+1 ≤ max)

/-- What an operation does to the set denoted. -/
def IntervalOp.denote {max : ℕ} (points : Set ℕ) : IntervalOp max → Set ℕ
  | .insert i _ => points ∪ {n | n ∈ i}
  | .withdraw i _ => points \ {n | n ∈ i}

structure VersionedIntervalSet where
  set : IntervalSet 1 := .empty
  insertVersion : UInt64 := 0

namespace VersionedIntervalSet

/-- `insert` counts an interval that stands on its own, and a merge longer than the first interval in it. -/
def insert (s : VersionedIntervalSet) (i : Interval) : VersionedIntervalSet where
  set := s.set.insert i
  insertVersion :=
    match intersectingRange 1 s.set.intervals i with
    | [] => s.insertVersion+1
    | first::rest =>
      if first.stop-first.start < (merged i (first::rest)).stop-(merged i (first::rest)).start then
        s.insertVersion+1
      else s.insertVersion

def step {max : ℕ} (s : VersionedIntervalSet) : IntervalOp max → VersionedIntervalSet
  | .insert i _ => s.insert i
  | .withdraw i _ => {s with set := s.set.withdraw i}

end VersionedIntervalSet

namespace IntervalSet
variable {s : IntervalSet 1} {a i : Interval}

/-- Two intervals of the set are the same or more than a unit apart. -/
lemma eq_or_apart {b : Interval} (ha : a ∈ s.intervals) (hb : b ∈ s.intervals) :
    a = b ∨ a.stop+1 < b.start ∨ b.stop+1 < a.start := by
  have hapart : s.intervals.Pairwise fun a b => a = b ∨ a.stop+1 < b.start ∨ b.stop+1 < a.start :=
    s.sorted.imp fun hab => .inr (.inl hab)
  apply hapart.forall_of_forall_of_flip (fun x _ => .inl rfl) _ ha hb
  exact s.sorted.imp fun hab => .inr (.inr hab)

lemma neighbours_not_mem (ha : a ∈ s.intervals) :
    a.stop+1 ∉ s ∧ (0<a.start → a.start-1 ∉ s) := by
  have hvalid := a.valid
  constructor
  · rintro ⟨b,hb,hlow,hhigh⟩
    rcases eq_or_apart ha hb with rfl | hab | hab <;> omega
  · rintro hpos ⟨b,hb,hlow,hhigh⟩
    rcases eq_or_apart ha hb with rfl | hab | hab <;> omega

/-- The points of the interval that an insertion makes are those of the set after it. -/
lemma merged_subset (hsub : ∀ n ∈ i,n ∈ s) {n : ℕ} (hn : n ∈ merged i (intersectingRange 1 s.intervals i)) : n ∈ s := by
  rcases (mem_merged s.sorted).mp hn with hi | hrange
  · exact hsub n hi
  · exact (mem_iff_parts i).mpr (.inr (.inl hrange))

lemma insert_grows_of_nil (hrange : intersectingRange 1 s.intervals i = []) : i.start ∉ s := by
  rw [mem_iff_parts i,hrange]
  have hvalid := i.valid
  rintro (⟨a,ha,hlow,hhigh⟩ | ⟨a,ha,-⟩ | ⟨a,ha,hlow,hhigh⟩)
  · have hbefore := of_mem_intervalsBefore ha
    omega
  · cases ha
  · have hafter := of_mem_intervalsAfter s.sorted ha
    omega

/-- A merge leaves the length of the first interval as it is exactly if the set has all points already. -/
lemma merge_longer_iff {first : Interval} {rest : List Interval}
    (hrange : intersectingRange 1 s.intervals i = first::rest) :
    first.stop-first.start < (merged i (first::rest)).stop-(merged i (first::rest)).start ↔ ∃ n ∈ i,n ∉ s := by
  have hmem : ∀ a ∈ first::rest,a ∈ s.intervals := by
    intro a ha
    rw [← hrange] at ha
    rw [insertInterval_split 1 s.intervals i]
    exact mem_append_right _ (mem_append_left _ ha)
  have hfirst := hmem first (by simp)
  have hlast := bounds_of_sorted (hrange ▸ sorted_intersectingRange s.sorted) (a := first) (by simp)
  have hvalid := first.valid
  have hi := i.valid
  simp only [merged,Interval.hull]
  constructor
  · intro hlonger
    by_contra hall
    push Not at hall
    have hsub := fun n hn => merged_subset (n := n) hall (hrange ▸ hn)
    simp only [merged,Interval.hull,Interval.mem_def] at hsub
    obtain ⟨hsucc,hpred⟩ := neighbours_not_mem hfirst
    by_cases hstart : i.start<first.start
    · exact hpred (by omega) (hsub _ (by omega))
    · exact hsucc (hsub _ (by omega))
  · rintro ⟨n,⟨hlow,hhigh⟩,hn⟩
    by_contra hsame
    exact hn ⟨first,hfirst,by simp only [Interval.mem_def]; omega⟩

end IntervalSet

namespace VersionedIntervalSet

lemma insertVersion_insert (s : VersionedIntervalSet) (i : Interval) :
    (s.insert i).insertVersion = s.insertVersion+1 ∧ (∃ n ∈ i,n ∉ s.set) ∨
      (s.insert i).insertVersion = s.insertVersion ∧ ∀ n ∈ i,n ∈ s.set := by
  unfold insert
  cases hrange : intersectingRange 1 s.set.intervals i with
  | nil => exact .inl ⟨rfl,i.start,⟨le_rfl,i.valid⟩,IntervalSet.insert_grows_of_nil hrange⟩
  | cons first rest =>
    dsimp only
    have hlonger := IntervalSet.merge_longer_iff hrange
    split_ifs with hlength
    · exact .inl ⟨rfl,hlonger.mp hlength⟩
    · right
      rw [hlonger] at hlength
      push Not at hlength
      exact ⟨rfl,hlength⟩

lemma mem_step {max : ℕ} (s : VersionedIntervalSet) (op : IntervalOp max) (n : ℕ) :
    n ∈ (s.step op).set ↔ n ∈ op.denote {m | m ∈ s.set} := by
  cases op with
  | insert i bound => exact IntervalSet.mem_insert
  | withdraw i bound => exact IntervalSet.mem_withdraw

lemma mem_run {max : ℕ} (ops : List (IntervalOp max)) (s : VersionedIntervalSet) (n : ℕ) :
    n ∈ (run step s ops).set ↔ n ∈ run IntervalOp.denote {m | m ∈ s.set} ops := by
  induction ops generalizing s with
  | nil => rfl
  | cons op ops ih =>
    have hstep : {m | m ∈ (s.step op).set} = op.denote {m | m ∈ s.set} := Set.ext (s.mem_step op)
    rw [run_cons,run_cons,ih,hstep]

/-- All points denoted are below the limit. -/
lemma lt_of_mem_denote {max : ℕ} (ops : List (IntervalOp max)) :
    ∀ n ∈ run IntervalOp.denote ∅ ops,n < max := by
  apply run_invariant (P := fun points : Set ℕ => ∀ n ∈ points,n < max)
  · simp
  · intro points hpoints op _ n hn
    cases op with
    | insert i bound =>
      rcases hn with hn | ⟨-,hn⟩
      · exact hpoints n hn
      · omega
    | withdraw i bound => exact hpoints n hn.1

/-- After any insertions and withdrawals the intervals are sorted, more than a unit apart and below the limit, and
denote the union and difference of what was inserted and withdrawn; `contains` decides whether a range is part of it,
and the next insertion counts exactly if it adds a point. -/
theorem intervalSet_denotes (max : ℕ) (ops : List (IntervalOp max)) :
    let s : VersionedIntervalSet := run step {} ops
    s.set.intervals.Pairwise (fun a b => a.stop+1 < b.start) ∧ (∀ i ∈ s.set.intervals,i.stop+1 ≤ max) ∧
      {n | n ∈ s.set} = run IntervalOp.denote ∅ ops ∧
      (∀ i : Interval,s.set.contains i.start i.stop = true ↔ ∀ n ∈ i,n ∈ s.set) ∧
      ∀ i : Interval,(s.insert i).insertVersion = s.insertVersion+1 ∧ (∃ n ∈ i,n ∉ s.set) ∨
        (s.insert i).insertVersion = s.insertVersion ∧ ∀ n ∈ i,n ∈ s.set := by
  intro s
  have hempty : {m | m ∈ (IntervalSet.empty : IntervalSet 1)} = ∅ := by
    ext n
    simp
  have hdenotes : {n | n ∈ s.set} = run IntervalOp.denote ∅ ops := by
    ext n
    rw [← hempty]
    exact mem_run ops {} n
  refine ⟨s.set.sorted,?_,hdenotes,?_,s.insertVersion_insert⟩
  · intro i hi
    have hmem : i.stop ∈ {n | n ∈ s.set} := ⟨i,hi,i.valid,le_rfl⟩
    rw [hdenotes] at hmem
    exact lt_of_mem_denote ops _ hmem
  · intro i
    rw [IntervalSet.contains,IntervalSet.containsFrom_iff i.valid s.set.sorted]
    exact ⟨fun h n hn => h n hn.1 hn.2,fun h n hlow hhigh => h n ⟨hlow,hhigh⟩⟩

end VersionedIntervalSet

end QuicWestwood
