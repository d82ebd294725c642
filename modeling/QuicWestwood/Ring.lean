import Mathlib

/-! A buffer whose entries are counted backwards from the newest one, around the end of its slots. `toList` is
what it holds, the newest first. -/
namespace QuicWestwood

structure Ring (α : Type*) where
  slots : ℕ → α
  length : ℕ
  head : ℕ
  size : ℕ

namespace Ring
variable {α : Type*}

/-- The slot of the entry that is `age` insertions older than the newest. The same formula gives
the age of a slot. -/
def slotAt (r : Ring α) (age : ℕ) : ℕ := (r.head+r.length-age) % r.length

def tail (r : Ring α) : ℕ := (r.head+r.length-r.size+1) % r.length

def entry (r : Ring α) (age : ℕ) : α := r.slots (r.slotAt age)

def toList (r : Ring α) : List α := (List.range r.size).map r.entry

def push (r : Ring α) (x : α) : Ring α :=
  {r with
    head := (r.head+1) % r.length
    slots := Function.update r.slots ((r.head+1) % r.length) x
    size := r.size+1}

def pop (r : Ring α) : Ring α := {r with size := r.size-1}

def Wrapped (r : Ring α) : Prop := 0 < r.size ∧ r.head < r.tail

instance (r : Ring α) : Decidable r.Wrapped := inferInstanceAs (Decidable (_ ∧ _))

/-- More slots. The entries in front of the old end move to the new end if others have been put
behind them at the start. -/
def grow (r : Ring α) (newLength : ℕ) : Ring α :=
  {r with
    length := newLength
    slots := if r.Wrapped then
        fun i => if newLength-(r.length-r.tail) ≤ i then r.slots (i-(newLength-r.length))
          else r.slots i
      else r.slots}

structure WellFormed (r : Ring α) : Prop where
  size_le : r.size ≤ r.length
  head_lt : 0 < r.length → r.head < r.length

@[simp] lemma length_toList (r : Ring α) : r.toList.length=r.size := by simp [toList]

lemma getElem?_toList (r : Ring α) {age : ℕ} (h : age < r.size) : r.toList[age]? = some (r.entry age) := by
  simp [toList,h]

lemma pop_wellFormed {r : Ring α} (h : r.WellFormed) : r.pop.WellFormed :=
  ⟨by have := h.size_le; simp only [pop]; omega,h.head_lt⟩

lemma toList_pop (r : Ring α) : r.pop.toList=r.toList.dropLast := by
  cases hsize : r.size with
  | zero => simp [toList,pop,hsize]
  | succ n =>
    simp only [toList,pop,hsize,Nat.add_sub_cancel,List.range_succ,List.map_append,List.map_cons,
      List.map_nil,List.dropLast_concat]
    rfl

section Slots
variable {r : Ring α} {age slot n : ℕ}

lemma slotAt_of_le (hhead : r.head < r.length) (h : age ≤ r.head) : r.slotAt age = r.head-age := by
  rw [slotAt,show r.head+r.length-age = r.head-age+r.length by omega,Nat.add_mod_right,
    Nat.mod_eq_of_lt (by omega)]

lemma slotAt_of_gt (h : r.head<age) (hage : age ≤ r.length) :
    r.slotAt age = r.head+r.length-age := Nat.mod_eq_of_lt (by omega)

lemma slotAt_lt (hhead : r.head < r.length) (age : ℕ) : r.slotAt age < r.length :=
  Nat.mod_lt _ (by omega)

lemma slotAt_slotAt (hhead : r.head < r.length) (hage : age < r.length) : r.slotAt (r.slotAt age) = age := by
  rcases Nat.lt_or_ge r.head age with hgt | hle
  · rw [slotAt_of_gt hgt hage.le,slotAt_of_gt (by omega) (by omega)]
    omega
  · rw [slotAt_of_le hhead hle,slotAt_of_le hhead (by omega)]
    omega

lemma slotAt_inj (hhead : r.head < r.length) {age' : ℕ} (hage : age < r.length) (hage' : age' < r.length)
    (h : r.slotAt age = r.slotAt age') : age=age' := by
  rw [← slotAt_slotAt hhead hage,h,slotAt_slotAt hhead hage']

lemma tail_eq (hsize : 0 < r.size) (hle : r.size ≤ r.length) : r.tail = r.slotAt (r.size-1) := by
  rw [tail,slotAt]
  congr 1
  omega

lemma tail_le_slotAt_iff (h : r.WellFormed) (hw : r.Wrapped) (hage : age < r.size) :
    r.tail ≤ r.slotAt age ↔ r.head<age := by
  obtain ⟨hpos,htail⟩ := hw
  have hle := h.size_le
  have hhead := h.head_lt (by omega)
  rw [tail_eq hpos hle] at htail ⊢
  have hold : r.head < r.size-1 := by
    by_contra hcon
    rw [slotAt_of_le hhead (by omega)] at htail
    omega
  rw [slotAt_of_gt hold (by omega)]
  rcases Nat.lt_or_ge r.head age with hgt | hage'
  · rw [slotAt_of_gt hgt (by omega)]
    omega
  · rw [slotAt_of_le hhead hage']
    omega

end Slots

section Push
variable {r : Ring α} {age : ℕ}

lemma push_wellFormed (x : α) (hlt : r.size < r.length) : (r.push x).WellFormed :=
  ⟨hlt,fun hpos => Nat.mod_lt _ hpos⟩

lemma slotAt_push_zero (h : 0 < r.length) (x : α) : (r.push x).slotAt 0 = (r.head+1) % r.length := by
  rw [slotAt_of_le (Nat.mod_lt _ h) (Nat.zero_le _)]
  rfl

lemma slotAt_push_succ (hhead : r.head < r.length) (x : α) (hage : age+1 < r.length) :
    (r.push x).slotAt (age+1) = r.slotAt age := by
  have hhead' : (r.push x).head < (r.push x).length := Nat.mod_lt _ (by omega)
  rcases Nat.lt_or_ge (r.head+1) r.length with hlt | hge
  · have hnew : (r.push x).head = r.head+1 := Nat.mod_eq_of_lt hlt
    rcases Nat.lt_or_ge r.head age with hgt | hle
    · rw [slotAt_of_gt (by omega) (by exact hage.le),slotAt_of_gt hgt (by omega),hnew]
      show r.head+1+r.length-(age+1) = _
      omega
    · rw [slotAt_of_le hhead' (by omega),slotAt_of_le hhead hle,hnew]
      omega
  · have hnew : (r.push x).head = 0 := by
      show (r.head+1) % r.length = 0
      rw [show r.head+1 = r.length by omega,Nat.mod_self]
    rw [slotAt_of_gt (by omega) (by exact hage.le),slotAt_of_le hhead (by omega),hnew]
    show 0+r.length-(age+1) = _
    omega

lemma entry_push_succ (hhead : r.head < r.length) (x : α) (hage : age+1 < r.length) :
    (r.push x).entry (age+1) = r.entry age := by
  rw [entry,slotAt_push_succ hhead x hage]
  refine Function.update_of_ne ?_ _ _
  rw [← slotAt_push_zero (by omega) x,← slotAt_push_succ hhead x hage]
  intro heq
  have := slotAt_inj (Nat.mod_lt _ (by omega)) (by exact hage) (by show 0 < r.length; omega) heq
  omega

lemma toList_push (h : r.WellFormed) (x : α) (hlt : r.size < r.length) :
    (r.push x).toList = x::r.toList := by
  have hhead := h.head_lt (by omega)
  have hzero : (r.push x).entry 0 = x := by
    rw [entry,slotAt_push_zero (by omega)]
    exact Function.update_self _ _ _
  rw [toList,toList,show (r.push x).size = r.size+1 from rfl,List.range_succ_eq_map,List.map_cons,
    List.map_map,hzero,List.cons_inj_right]
  refine List.map_congr_left fun age hage => ?_
  exact entry_push_succ hhead x (by have := List.mem_range.mp hage; omega)

end Push

section Grow
variable {r : Ring α} {age n : ℕ}

lemma grow_wellFormed (h : r.WellFormed) (hn : r.length≤n) (hempty : r.length=0 → r.head=0) :
    (r.grow n).WellFormed := by
  refine ⟨h.size_le.trans hn,fun hpos => ?_⟩
  show r.head < n
  rcases Nat.eq_zero_or_pos r.length with hzero | hlen
  · exact hempty hzero ▸ hpos
  · exact (h.head_lt hlen).trans_le hn

lemma slotAt_grow (h : r.WellFormed) (hn : r.length≤n) (hage : age < r.size) : (r.grow n).slotAt age =
    if r.Wrapped ∧ r.tail ≤ r.slotAt age then r.slotAt age+(n-r.length) else r.slotAt age := by
  have hle := h.size_le
  have hhead := h.head_lt (by omega)
  have hhead' := hhead.trans_le hn
  rcases Nat.lt_or_ge r.head age with hgt | hle'
  · have hwrap : r.Wrapped := by
      refine ⟨by omega,?_⟩
      rw [tail_eq (by omega) hle,slotAt_of_gt (by omega) (by omega)]
      omega
    rw [if_pos ⟨hwrap,(tail_le_slotAt_iff h hwrap hage).mpr hgt⟩,slotAt_of_gt hgt (by omega),
      slotAt_of_gt (by exact hgt) (by show age ≤ n; omega)]
    show r.head+n-age = _
    omega
  · rw [if_neg,slotAt_of_le hhead hle',slotAt_of_le hhead' (by exact hle')]
    · rfl
    · rintro ⟨hwrap,htail⟩
      have := (tail_le_slotAt_iff h hwrap hage).mp htail
      omega

lemma entry_grow (h : r.WellFormed) (hn : r.length≤n) (hage : age < r.size) :
    (r.grow n).entry age = r.entry age := by
  have hle := h.size_le
  have hhead := h.head_lt (by omega)
  rw [entry,slotAt_grow h hn hage]
  by_cases hwrap : r.Wrapped
  · have htail : r.tail < r.length := by
      rw [tail_eq hwrap.1 hle]
      exact slotAt_lt hhead _
    have hslots : (r.grow n).slots = fun i => if n-(r.length-r.tail) ≤ i then
        r.slots (i-(n-r.length)) else r.slots i := if_pos hwrap
    rw [hslots]
    by_cases hold : r.tail ≤ r.slotAt age
    · rw [if_pos ⟨hwrap,hold⟩]
      show (if _ then _ else _) = _
      rw [if_pos (by omega),Nat.add_sub_cancel]
      rfl
    · -- the entry stays below the head, the moved ones are above it
      have hage' := mt (tail_le_slotAt_iff h hwrap hage).mpr hold
      have hslot' := slotAt_of_le hhead (not_lt.mp hage')
      have hwrap' := hwrap.2
      rw [if_neg fun hcon => hold hcon.2]
      show (if _ then _ else _) = _
      rw [if_neg (by omega)]
      rfl
  · simp only [grow,hwrap,false_and,if_false]
    rfl

lemma toList_grow (h : r.WellFormed) (hn : r.length≤n) : (r.grow n).toList = r.toList :=
  List.map_congr_left fun _ hage => entry_grow h hn (List.mem_range.mp hage)

end Grow

end Ring

end QuicWestwood
