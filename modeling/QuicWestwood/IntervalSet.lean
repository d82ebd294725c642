import Mathlib

/-! A sorted list of intervals that neither overlap nor touch. Insertion looks for the intervals within `unit`
of the new one and replaces them by their hull; withdrawal keeps of them what lies outside of the interval. -/
namespace QuicWestwood
open List

structure Interval where
  start : ℕ
  stop : ℕ
  valid : start ≤ stop
  deriving DecidableEq

namespace Interval

def point (n : ℕ) : Interval := ⟨n,n,le_rfl⟩

instance : Membership ℕ Interval := ⟨fun i n => i.start ≤ n ∧ n ≤ i.stop⟩

variable {i : Interval} {n : ℕ}

lemma mem_def : n ∈ i ↔ i.start≤n ∧ n ≤ i.stop := Iff.rfl

@[simp] lemma mem_point {n m : ℕ} : m ∈ point n ↔ m=n := by
  simp only [mem_def,point]
  omega

def elements (i : Interval) : List ℕ := range' i.start (i.stop+1-i.start)

@[simp] lemma mem_elements : n ∈ i.elements ↔ n ∈ i := by
  have := i.valid
  simp only [elements,mem_range'_1,mem_def]
  omega

lemma elements_reverse (i : Interval) :
    i.elements.reverse = (range (i.stop+1-i.start)).map fun k => i.stop-k := by
  have := i.valid
  rw [elements,reverse_range']
  congr 1
  funext k
  omega

lemma elements_reverse_head? (i : Interval) : i.elements.reverse.head? = some i.stop := by
  have := i.valid
  rw [head?_reverse,elements,getLast?_range',if_neg (by omega)]
  congr 1
  omega

lemma elements_reverse_getLast? (i : Interval) : i.elements.reverse.getLast? = some i.start := by
  have := i.valid
  rw [getLast?_reverse,elements,head?_range',if_neg (by omega)]

lemma elements_reverse_chain (i : Interval) : i.elements.reverse.IsChain fun m n => n+1 = m := by
  have := i.valid
  rw [elements_reverse,isChain_iff_getElem]
  intro k hk
  simp only [length_map,length_range] at hk
  simp only [getElem_map,getElem_range]
  omega

def hull (i first last : Interval) : Interval :=
  ⟨min i.start first.start,max i.stop last.stop,(min_le_left _ _).trans (i.valid.trans (le_max_left _ _))⟩

/-- `b` starts more than a unit after the end of `a`. -/
def Before (unit : ℕ) (a b : Interval) : Prop := a.stop+unit < b.start

end Interval

/-- The elements that `dropWhile` leaves all fail a test that is inherited backwards. -/
lemma not_of_mem_dropWhile {α : Type*} {p : α → Bool} {l : List α}
    (h : l.Pairwise fun a b => p b = true → p a = true) {x : α} (hx : x ∈ l.dropWhile p) :
    p x = false := by
  induction l with
  | nil => simp at hx
  | cons a l ih =>
    obtain ⟨ha,hl⟩ := pairwise_cons.mp h
    by_cases hpa : p a = true
    · rw [dropWhile_cons_of_pos hpa] at hx
      exact ih hl hx
    · rw [dropWhile_cons_of_neg hpa] at hx
      rcases mem_cons.mp hx with rfl | hx
      · simpa using hpa
      · by_contra hpx
        exact hpa (ha x hx (by simpa using hpx))

def intervalsBefore (unit : ℕ) (l : List Interval) (i : Interval) : List Interval :=
  l.takeWhile fun a => a.stop+unit < i.start

def intervalsFrom (unit : ℕ) (l : List Interval) (i : Interval) : List Interval :=
  l.dropWhile fun a => a.stop+unit < i.start

/-- `intersectingRange`: the intervals that overlap or touch `i`. -/
def intersectingRange (unit : ℕ) (l : List Interval) (i : Interval) : List Interval :=
  (intervalsFrom unit l i).takeWhile fun a => a.start ≤ i.stop+unit

def intervalsAfter (unit : ℕ) (l : List Interval) (i : Interval) : List Interval :=
  (intervalsFrom unit l i).dropWhile fun a => a.start ≤ i.stop+unit

def merged (i : Interval) : List Interval → Interval
  | [] => i
  | first::rest => i.hull first ((first::rest).getLast (cons_ne_nil _ _))

def insertInterval (unit : ℕ) (l : List Interval) (i : Interval) : List Interval :=
  intervalsBefore unit l i++merged i (intersectingRange unit l i)::intervalsAfter unit l i

section Insert
variable {unit : ℕ} {l : List Interval} {i : Interval}

lemma insertInterval_split (unit : ℕ) (l : List Interval) (i : Interval) :
    l = intervalsBefore unit l i++(intersectingRange unit l i++intervalsAfter unit l i) := by
  unfold intervalsAfter intersectingRange
  rw [takeWhile_append_dropWhile,intervalsBefore,intervalsFrom,takeWhile_append_dropWhile]

variable {a : Interval}

lemma of_mem_intervalsBefore (h : a ∈ intervalsBefore unit l i) : a.stop+unit < i.start := by
  simpa using mem_takeWhile_imp h

lemma of_mem_intersectingRange (hl : l.Pairwise (Interval.Before unit)) (h : a ∈ intersectingRange unit l i) :
    i.start ≤ a.stop+unit ∧ a.start ≤ i.stop+unit := by
  have hfrom := takeWhile_subset _ h
  have hmono : l.Pairwise fun a b => decide (b.stop+unit < i.start) = true →
      decide (a.stop+unit < i.start) = true := by
    refine hl.imp fun {a b} hab => ?_
    simp only [Interval.Before,decide_eq_true_eq] at hab ⊢
    have := b.valid
    omega
  have hnot := not_of_mem_dropWhile hmono hfrom
  have hin := mem_takeWhile_imp h
  simp only [decide_eq_false_iff_not,decide_eq_true_eq] at hnot hin
  omega

lemma of_mem_intervalsAfter (hl : l.Pairwise (Interval.Before unit)) (h : a ∈ intervalsAfter unit l i) :
    i.stop+unit < a.start := by
  have hfrom : (intervalsFrom unit l i).Pairwise (Interval.Before unit) :=
    hl.sublist (dropWhile_sublist _)
  have hmono : (intervalsFrom unit l i).Pairwise fun a b =>
      decide (b.start ≤ i.stop+unit) = true → decide (a.start ≤ i.stop+unit) = true := by
    refine hfrom.imp fun {a b} hab => ?_
    simp only [Interval.Before,decide_eq_true_eq] at hab ⊢
    have := a.valid
    omega
  have hnot := not_of_mem_dropWhile hmono h
  simpa using hnot

/-- The pieces of the list are separated from each other and, outside the reach of `i`,
from the merged interval. -/
theorem insertInterval_sorted (hl : l.Pairwise (Interval.Before unit)) :
    (insertInterval unit l i).Pairwise (Interval.Before unit) := by
  have hsplit := hl
  rw [insertInterval_split unit l i,pairwise_append,pairwise_append] at hsplit
  obtain ⟨hbefore,⟨-,hafter,hra⟩,hbr⟩ := hsplit
  rw [insertInterval,pairwise_append,pairwise_cons]
  refine ⟨hbefore,⟨fun a ha => ?_,hafter⟩,fun a ha b hb => ?_⟩
  · have hi := of_mem_intervalsAfter hl ha
    cases hr : intersectingRange unit l i with
    | nil => exact hi
    | cons first rest =>
      have hlast := hra _ (by rw [hr]; exact getLast_mem (cons_ne_nil first rest)) a ha
      simp only [Interval.Before,merged,Interval.hull] at hlast ⊢
      omega
  · rcases mem_cons.mp hb with rfl | hb
    · have hi := of_mem_intervalsBefore ha
      cases hr : intersectingRange unit l i with
      | nil => exact hi
      | cons first rest =>
        have hfirst := hbr a ha first (by simp [hr])
        simp only [Interval.Before,merged,Interval.hull] at hfirst ⊢
        omega
    · exact hbr a ha b (mem_append_right _ hb)

lemma bounds_of_sorted {first : Interval} {rest : List Interval}
    (h : (first::rest).Pairwise (Interval.Before 1)) (ha : a ∈ first::rest) :
    first.start ≤ a.start ∧ a.stop ≤ ((first::rest).getLast (cons_ne_nil _ _)).stop := by
  have hmono : (first::rest).Pairwise fun a b => a.start ≤ b.start ∧ a.stop≤b.stop :=
    h.imp fun {a b} hab => by
      have := a.valid
      have := b.valid
      simp only [Interval.Before] at hab
      omega
  refine ⟨?_,?_⟩
  · rcases mem_cons.mp ha with rfl | ha
    · exact le_rfl
    · exact ((pairwise_cons.mp hmono).1 a ha).1
  · obtain ⟨pre,hpre⟩ : ∃ pre,first::rest = pre++[(first::rest).getLast (by simp)] :=
      ⟨_,(dropLast_append_getLast _).symm⟩
    rw [hpre] at ha hmono
    rcases mem_append.mp ha with ha | ha
    · exact ((pairwise_append.mp hmono).2.2 a ha _ (by simp)).2
    · obtain rfl := mem_singleton.mp ha
      exact le_rfl

lemma sorted_intersectingRange (hl : l.Pairwise (Interval.Before 1)) :
    (intersectingRange 1 l i).Pairwise (Interval.Before 1) :=
  hl.sublist ((takeWhile_sublist _).trans (dropWhile_sublist _))

end Insert

/-- What is left of the intervals in reach of `i`: the part of the first before `i` and the part of the
last after it. -/
def remaining (i : Interval) : List Interval → List Interval
  | [] => []
  | first::rest =>
    let last := (first::rest).getLast (cons_ne_nil _ _)
    (if h : first.start+1 ≤ i.start then [⟨first.start,i.start-1,by omega⟩] else []) ++
      if h : i.stop+1 ≤ last.stop then [⟨i.stop+1,last.stop,h⟩] else []

def withdrawInterval (l : List Interval) (i : Interval) : List Interval :=
  intervalsBefore 1 l i++(remaining i (intersectingRange 1 l i)++intervalsAfter 1 l i)

section Withdraw
variable {l : List Interval} {i : Interval}

lemma mem_remaining {range : List Interval} (ha : a ∈ remaining i range) :
    ∃ first ∈ range,∃ last ∈ range,(a.start=first.start ∧ a.stop+1 = i.start) ∨
      (a.start = i.stop+1 ∧ a.stop=last.stop) := by
  cases range with
  | nil => simp [remaining] at ha
  | cons first rest =>
    refine ⟨first,by simp,_,getLast_mem (cons_ne_nil first rest),?_⟩
    simp only [remaining,mem_append] at ha
    rcases ha with ha | ha
    · split_ifs at ha with hfirst
      · obtain rfl := mem_singleton.mp ha
        exact .inl ⟨rfl,by dsimp only; omega⟩
      · simp at ha
    · split_ifs at ha with hlast
      · obtain rfl := mem_singleton.mp ha
        exact .inr ⟨rfl,rfl⟩
      · simp at ha

lemma exists_mem_remaining {range : List Interval} (hsorted : range.Pairwise (Interval.Before 1))
    (hreach : ∀ a ∈ range,i.start ≤ a.stop+1 ∧ a.start ≤ i.stop+1) :
    (∃ a ∈ remaining i range,n ∈ a) ↔ (∃ a ∈ range,n ∈ a) ∧ n ∉ i := by
  cases range with
  | nil => simp [remaining]
  | cons first rest =>
    have hlast := getLast_mem (cons_ne_nil first rest)
    constructor
    · rintro ⟨a,ha,hn⟩
      simp only [remaining,mem_append] at ha
      rcases ha with ha | ha
      · split_ifs at ha with hstart
        · obtain rfl := mem_singleton.mp ha
          have hends := hreach first (by simp)
          simp only [Interval.mem_def] at hn ⊢
          exact ⟨⟨first,by simp,by omega⟩,by omega⟩
        · simp at ha
      · split_ifs at ha with hstop
        · obtain rfl := mem_singleton.mp ha
          have hstarts := hreach _ hlast
          simp only [Interval.mem_def] at hn ⊢
          exact ⟨⟨_,hlast,by omega⟩,by omega⟩
        · simp at ha
    · rintro ⟨⟨a,ha,hn⟩,hni⟩
      obtain ⟨hfirst,hstop⟩ := bounds_of_sorted hsorted ha
      simp only [Interval.mem_def] at hn hni
      by_cases hlt : n < i.start
      · have hstart : first.start+1 ≤ i.start := by omega
        refine ⟨⟨first.start,i.start-1,by omega⟩,?_,by simp only [Interval.mem_def]; omega⟩
        simp [remaining,hstart]
      · have hafter : i.stop+1 ≤ ((first::rest).getLast (cons_ne_nil _ _)).stop := by omega
        refine ⟨⟨i.stop+1,_,hafter⟩,?_,by simp only [Interval.mem_def]; omega⟩
        simp only [remaining,dif_pos hafter,mem_append,mem_singleton,or_true]

theorem withdrawInterval_sorted (hl : l.Pairwise (Interval.Before 1)) :
    (withdrawInterval l i).Pairwise (Interval.Before 1) := by
  have hsplit := hl
  rw [insertInterval_split 1 l i,pairwise_append,pairwise_append] at hsplit
  obtain ⟨hbefore,⟨-,hafter,hrange⟩,hfar⟩ := hsplit
  rw [withdrawInterval,pairwise_append,pairwise_append]
  refine ⟨hbefore,⟨?_,hafter,fun a ha b hb => ?_⟩,fun a ha b hb => ?_⟩
  · cases intersectingRange 1 l i with
    | nil => exact .nil
    | cons first rest =>
      have hvalid := i.valid
      simp only [remaining]
      split_ifs <;> simp [Interval.Before]
      omega
  · obtain ⟨first,hfirst,last,hlast,hleft | hright⟩ := mem_remaining ha
    · have hb' := of_mem_intervalsAfter hl hb
      have hvalid := i.valid
      simp only [Interval.Before] at hb' ⊢
      omega
    · have hb' := hrange last hlast b hb
      simp only [Interval.Before] at hb' ⊢
      omega
  · rcases mem_append.mp hb with hb | hb
    · obtain ⟨first,hfirst,last,hlast,hleft | hright⟩ := mem_remaining hb
      · have ha' := hfar a ha first (by simp [hfirst])
        simp only [Interval.Before] at ha' ⊢
        omega
      · have ha' := of_mem_intervalsBefore ha
        have hvalid := i.valid
        simp only [Interval.Before] at ha' ⊢
        omega
    · exact hfar a ha b (by simp [hb])

end Withdraw

/-- A sorted list of intervals, pairwise more than a unit apart. -/
structure IntervalSet (unit : ℕ) where
  intervals : List Interval
  sorted : intervals.Pairwise (Interval.Before unit)

namespace IntervalSet
variable {unit : ℕ}

def empty : IntervalSet unit := ⟨[],.nil⟩

def insert (s : IntervalSet unit) (i : Interval) : IntervalSet unit :=
  ⟨insertInterval unit s.intervals i,insertInterval_sorted s.sorted⟩

def insertPoint (s : IntervalSet unit) (n : ℕ) : IntervalSet unit := s.insert (.point n)

instance : Membership ℕ (IntervalSet unit) := ⟨fun s n => ∃ i ∈ s.intervals,n ∈ i⟩

lemma mem_def {s : IntervalSet unit} : n ∈ s ↔ ∃ i ∈ s.intervals,n ∈ i := Iff.rfl

@[simp] lemma not_mem_empty (n : ℕ) : n ∉ (empty : IntervalSet unit) := by
  simp [mem_def,empty]

lemma mem_merged {l : List Interval} (hl : l.Pairwise (Interval.Before 1)) :
    n ∈ merged i (intersectingRange 1 l i) ↔ n ∈ i ∨ ∃ a ∈ intersectingRange 1 l i,n ∈ a := by
  have hreach : ∀ a ∈ intersectingRange 1 l i,i.start ≤ a.stop+1 ∧ a.start ≤ i.stop+1 :=
    fun a ha => of_mem_intersectingRange hl ha
  have hsorted := sorted_intersectingRange (i := i) hl
  cases hr : intersectingRange 1 l i with
  | nil => simp [merged]
  | cons first rest =>
    rw [hr] at hreach hsorted
    have hlast : (first::rest).getLast (cons_ne_nil _ _) ∈ first::rest := getLast_mem _
    have h₁ := hreach first (by simp)
    have h₂ := hreach _ hlast
    constructor
    · intro hn
      simp only [merged,Interval.hull,Interval.mem_def] at hn
      by_cases hi : n ∈ i
      · exact .inl hi
      · right
        simp only [Interval.mem_def] at hi
        rcases lt_or_ge n i.start with hlt | hge
        · exact ⟨first,by simp,by simp only [Interval.mem_def]; omega⟩
        · exact ⟨_,hlast,by simp only [Interval.mem_def]; omega⟩
    · simp only [merged,Interval.hull,Interval.mem_def]
      rintro (hi | ⟨a,ha,hn⟩)
      · omega
      · have := bounds_of_sorted hsorted ha
        omega

variable {s : IntervalSet 1}

lemma mem_iff_parts (i : Interval) : n ∈ s ↔
    (∃ a ∈ intervalsBefore 1 s.intervals i,n ∈ a) ∨ (∃ a ∈ intersectingRange 1 s.intervals i,n ∈ a) ∨
      ∃ a ∈ intervalsAfter 1 s.intervals i,n ∈ a := by
  have hmem : n ∈ s ↔ ∃ a ∈ intervalsBefore 1 s.intervals i ++
      (intersectingRange 1 s.intervals i++intervalsAfter 1 s.intervals i), n ∈ a := by
    rw [← insertInterval_split 1 s.intervals i]
    exact Iff.rfl
  simpa only [mem_append,or_and_right,exists_or] using hmem

theorem mem_insert : n ∈ s.insert i ↔ n ∈ s ∨ n ∈ i := by
  have hinsert : n ∈ s.insert i ↔ (∃ a ∈ intervalsBefore 1 s.intervals i,n ∈ a) ∨
      n ∈ merged i (intersectingRange 1 s.intervals i) ∨ ∃ a ∈ intervalsAfter 1 s.intervals i,n ∈ a := by
    simp only [mem_def,insert,insertInterval,mem_append,mem_cons,or_and_right,exists_or,exists_eq_left]
  rw [hinsert,mem_iff_parts i,mem_merged s.sorted]
  constructor
  · rintro (h | (h | h) | h)
    exacts [.inl (.inl h),.inr h,.inl (.inr (.inl h)),.inl (.inr (.inr h))]
  · rintro ((h | h | h) | h)
    exacts [.inl h,.inr (.inl (.inr h)),.inr (.inr h),.inr (.inl (.inl h))]

@[simp] lemma mem_insertPoint {n m : ℕ} : m ∈ s.insertPoint n ↔ m ∈ s ∨ m=n := by
  rw [insertPoint,mem_insert,Interval.mem_point]

def elements (s : IntervalSet unit) : List ℕ := s.intervals.flatMap Interval.elements

lemma mem_elements {s : IntervalSet unit} : n ∈ s.elements ↔ n ∈ s := by
  simp [elements,mem_def]

lemma elements_increasing (s : IntervalSet unit) : s.elements.Pairwise (· < ·) := by
  refine pairwise_flatMap.mpr ⟨fun i _ => pairwise_lt_range',s.sorted.imp ?_⟩
  intro a b hab m hm n hn
  simp only [Interval.Before,Interval.mem_elements,Interval.mem_def] at hab hm hn
  omega

theorem elements_eq {s : IntervalSet unit} {l : List ℕ} (hl : l.Pairwise (· < ·))
    (hmem : ∀ n,n ∈ s ↔ n ∈ l) : s.elements=l := by
  have hperm := (perm_ext_iff_of_nodup (s.elements_increasing.imp ne_of_lt) (hl.imp ne_of_lt)).mpr
      fun n => mem_elements.trans (hmem n)
  exact hperm.eq_of_pairwise (fun a b _ _ hab hba => absurd hab (lt_asymm hba))
    s.elements_increasing hl

def withdraw (s : IntervalSet 1) (i : Interval) : IntervalSet 1 :=
  ⟨withdrawInterval s.intervals i,withdrawInterval_sorted s.sorted⟩

theorem mem_withdraw : n ∈ s.withdraw i ↔ n ∈ s ∧ n ∉ i := by
  have hrest := exists_mem_remaining (n := n) (i := i) (sorted_intersectingRange (i := i) s.sorted)
    fun a ha => of_mem_intersectingRange s.sorted ha
  have hwithdraw : n ∈ s.withdraw i ↔ (∃ a ∈ intervalsBefore 1 s.intervals i,n ∈ a) ∨
      (∃ a ∈ remaining i (intersectingRange 1 s.intervals i),n ∈ a) ∨
      ∃ a ∈ intervalsAfter 1 s.intervals i,n ∈ a := by
    simp only [mem_def,withdraw,withdrawInterval,mem_append,or_and_right,exists_or]
  have houtside : ((∃ a ∈ intervalsBefore 1 s.intervals i,n ∈ a) ∨
      ∃ a ∈ intervalsAfter 1 s.intervals i,n ∈ a) → n ∉ i := by
    have hvalid := i.valid
    rintro (⟨a,ha,hn⟩ | ⟨a,ha,hn⟩) hni
    · have := of_mem_intervalsBefore ha
      simp only [Interval.mem_def] at this hn hni
      omega
    · have := of_mem_intervalsAfter s.sorted ha
      simp only [Interval.mem_def] at this hn hni
      omega
  rw [hwithdraw,hrest,mem_iff_parts i]
  constructor
  · rintro (h | ⟨h,hni⟩ | h)
    exacts [⟨.inl h,houtside (.inl h)⟩,⟨.inr (.inl h),hni⟩,⟨.inr (.inr h),houtside (.inr h)⟩]
  · rintro ⟨h | h | h,hni⟩
    exacts [.inl h,.inr (.inl ⟨h,hni⟩),.inr (.inr h)]

/-- `contains`: the walk stops at the first interval that ends after `start`. -/
def containsFrom (start stop : ℕ) : List Interval → Bool
  | [] => false
  | i::is => if i.start ≤ start ∧ stop ≤ i.stop then true
    else if start < i.stop then false
    else containsFrom start stop is

def contains (s : IntervalSet unit) (start stop : ℕ) : Bool := containsFrom start stop s.intervals

lemma containsFrom_iff {start stop : ℕ} (hvalid : start ≤ stop) {l : List Interval} (hl : l.Pairwise (Interval.Before 1)) :
    containsFrom start stop l = true ↔ ∀ n,start ≤ n → n ≤ stop → ∃ i ∈ l,n ∈ i := by
  induction l with
  | nil =>
    simp only [containsFrom,Bool.false_eq_true,false_iff,not_forall]
    exact ⟨start,le_rfl,hvalid,by simp⟩
  | cons i is ih =>
    obtain ⟨hi,his⟩ := pairwise_cons.mp hl
    have hbeyond : ∀ n ≤ i.stop+1,¬∃ j ∈ is,n ∈ j := by
      rintro n hn ⟨j,hj,hlow,-⟩
      have hafter := hi j hj
      simp only [Interval.Before] at hafter
      omega
    unfold containsFrom
    split_ifs with hin hstop
    · simp only [true_iff]
      exact fun n hlow hhigh => ⟨i,by simp,by simp only [Interval.mem_def]; omega⟩
    · simp only [false_iff,mem_cons,exists_eq_or_imp,Interval.mem_def]
      intro hall
      by_cases hstart : i.start ≤ start
      · rcases hall (i.stop+1) (by omega) (by omega) with hmem | hmem
        · omega
        · exact hbeyond _ le_rfl hmem
      · rcases hall start le_rfl hvalid with hmem | hmem
        · omega
        · exact hbeyond _ (by omega) hmem
    · rw [ih his]
      constructor
      · intro hall n hlow hhigh
        obtain ⟨j,hj,hn⟩ := hall n hlow hhigh
        exact ⟨j,mem_cons_of_mem _ hj,hn⟩
      · intro hall n hlow hhigh
        have hvalid' := i.valid
        -- a range that starts at the end of the interval leaves it at the next point
        have hpast : i.stop < start := by
          by_contra hend
          obtain ⟨j,hj,hn⟩ := hall (i.stop+1) (by omega) (by omega)
          rcases mem_cons.mp hj with rfl | hj
          · simp only [Interval.mem_def] at hn
            omega
          · exact hbeyond _ le_rfl ⟨j,hj,hn⟩
        obtain ⟨j,hj,hn⟩ := hall n hlow hhigh
        rcases mem_cons.mp hj with rfl | hj
        · simp only [Interval.mem_def] at hn
          omega
        · exact ⟨j,hj,hn⟩

lemma contains_self (s : IntervalSet 1) (n : ℕ) : s.contains n n = true ↔ n ∈ s := by
  rw [contains,containsFrom_iff le_rfl s.sorted]
  constructor
  · exact fun h => h n le_rfl le_rfl
  · exact fun h m hlow hhigh => le_antisymm hhigh hlow ▸ h

def toFinset (s : IntervalSet unit) : Finset ℕ := s.elements.toFinset

@[simp] lemma mem_toFinset {s : IntervalSet unit} : n ∈ s.toFinset ↔ n ∈ s := by
  rw [toFinset,List.mem_toFinset,mem_elements]

def size (s : IntervalSet unit) : ℕ := (s.intervals.map fun i => i.stop-i.start+1).sum

lemma size_eq_card (s : IntervalSet unit) : s.size=s.toFinset.card := by
  rw [toFinset,toFinset_card_of_nodup (s.elements_increasing.imp ne_of_lt),elements,length_flatMap,size]
  congr 1
  refine map_congr_left fun i _ => ?_
  have := i.valid
  simp only [Interval.elements,length_range']
  omega

lemma size_insert (h : ∀ n ∈ s,n ∉ i) : (s.insert i).size = s.size+(i.stop-i.start+1) := by
  have hunion : (s.insert i).toFinset = s.toFinset ∪ Finset.Icc i.start i.stop := by
    ext n
    simp [mem_insert,Interval.mem_def]
  rw [size_eq_card,size_eq_card,hunion,Finset.card_union_of_disjoint,Nat.card_Icc]
  · have := i.valid
    omega
  · rw [Finset.disjoint_left]
    intro n hn hi
    exact h n (mem_toFinset.mp hn) (by simpa [Interval.mem_def] using hi)

lemma size_withdraw_point (h : n ∈ s) : (s.withdraw (.point n)).size+1 = s.size := by
  have herase : (s.withdraw (.point n)).toFinset = s.toFinset.erase n := by
    ext m
    simp [mem_withdraw,and_comm]
  rw [size_eq_card,size_eq_card,herase]
  exact Finset.card_erase_add_one (mem_toFinset.mpr h)

end IntervalSet

end QuicWestwood
