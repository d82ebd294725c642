import QuicWestwood.HeaderTable

/-! The table of HPACK with entries that are numbered from 1 in the order of their insertion. The encoder's
table tracks references: it refuses to evict an entry that is in use or not yet acknowledged, and marks the
oldest entries as draining. -/
namespace QuicWestwood
open ByteCodec HeaderTable

structure QPACKHeaderTable where
  base : HeaderTable
  drainedBytes : ℕ
  minUsable : ℕ
  ackedInsertCount : ℕ
  minFree : ℕ
  trackReferences : Bool
  minInUseIndex : ℕ

namespace QPACKHeaderTable

def kMinFreeSlice : ℕ := 8

def kMinMinFree : ℕ := 48

def kMaxMinFree : ℕ := 512

def getMinFree (tableSize : ℕ) : ℕ := min (max (tableSize/kMinFreeSlice) kMinMinFree) kMaxMinFree

/-- `UNACKED`, and the largest insert count. -/
def unacked : ℕ := 2^32-1

def init (capacityVal : ℕ) (trackReferences : Bool) : QPACKHeaderTable where
  base := if trackReferences then .init capacityVal else (HeaderTable.init capacityVal).disableNamesIndex
  drainedBytes := 0
  minUsable := 1
  ackedInsertCount := 0
  minFree := if trackReferences then getMinFree capacityVal else 0
  trackReferences := trackReferences
  minInUseIndex := 2^32-1

/-! ## Indices -/

def getInsertCount (t : QPACKHeaderTable) : ℕ := t.base.insertCount

def relativeToAbsolute (t : QPACKHeaderTable) (relativeIndex : ℕ) : ℕ := t.base.insertCount+1-relativeIndex

def absoluteToRelative (t : QPACKHeaderTable) (absIndex : ℕ) : Except Failure ℕ :=
  if absIndex≤t.base.insertCount then .ok (t.base.insertCount-absIndex+1) else .error .checkFailed

def internalToAbsolute (t : QPACKHeaderTable) (internalIndex : ℕ) : ℕ :=
  t.relativeToAbsolute (t.base.toExternal internalIndex)

/-- The signed test index is passed on as an unsigned 32-bit number. -/
def isValid (t : QPACKHeaderTable) (index base : ℕ) : Bool :=
  if 0<base then t.base.isValid (((index : ℤ)-((base : ℤ)-t.base.insertCount)) % 2^32).toNat
  else t.base.isValid index

def toInternal (t : QPACKHeaderTable) (externalIndex base : ℕ) : Except Failure ℕ :=
  if 0<base then
    t.base.toInternal <$> t.absoluteToRelative (((base : ℤ)-externalIndex+1) % 2^32).toNat
  else .ok (t.base.toInternal externalIndex)

def getHeader (t : QPACKHeaderTable) (index base : ℕ) : Except Failure HPACKHeader :=
  if t.isValid index base then t.base.ring.slots <$> t.toInternal index base else .error .checkFailed

def isVulnerable (t : QPACKHeaderTable) (absIndex : ℕ) : Bool := absIndex > t.ackedInsertCount

/-! ## Eviction and insertion -/

def removeLast (t : QPACKHeaderTable) : Except Failure QPACKHeaderTable :=
  if t.trackReferences ∧ t.minInUseIndex ≤ t.internalToAbsolute t.base.ring.tail then .error .checkFailed
  else if 0<t.drainedBytes then
    if t.drainedBytes<t.base.last.bytes then .error .checkFailed
    else .ok {t with base := t.base.removeLast, drainedBytes := t.drainedBytes-t.base.last.bytes}
  else
    .ok {t with
      base := t.base.removeLast
      minUsable := if 0<t.base.removeLast.ring.size then
          t.relativeToAbsolute (t.base.removeLast.toExternal t.base.removeLast.ring.tail)
        else t.base.insertCount+1}

/-- The loop of `canEvict` from slot `i` on, over at most `n` entries. -/
def freeable (t : QPACKHeaderTable) (needed : ℕ) : ℕ → ℕ → ℕ → ℕ
  | 0, _, freed => freed
  | n+1, i, freed =>
    if freed<needed ∧ t.internalToAbsolute i < t.minInUseIndex ∧ t.internalToAbsolute i ≤ t.ackedInsertCount then
      t.freeable needed n ((i+1) % t.base.ring.length) (freed+(t.base.ring.slots i).bytes)
    else freed

def canEvict (t : QPACKHeaderTable) (needed : ℕ) : Bool :=
  if t.base.ring.size=0 ∨ t.trackReferences=false then needed ≤ t.base.capacity
  else needed ≤ t.freeable needed t.base.ring.size t.base.ring.tail 0

/-- The loop of `HeaderTable::evict`, with the table's own `removeLast`. -/
def evictLoop (needed desiredCapacity : ℕ) : ℕ → QPACKHeaderTable → Except Failure QPACKHeaderTable
  | 0, t => .ok t
  | n+1, t =>
    if 0<t.base.ring.size ∧ t.base.bytes+needed > desiredCapacity then
      t.removeLast >>= evictLoop needed desiredCapacity n
    else .ok t

def evict (t : QPACKHeaderTable) (needed desiredCapacity : ℕ) : Except Failure QPACKHeaderTable :=
  if t.base.bytes+needed < desiredCapacity ∨ t.canEvict (t.base.bytes+needed-desiredCapacity) = false then .ok t
  else evictLoop needed desiredCapacity t.base.ring.size t

def drain : ℕ → QPACKHeaderTable → Except Failure QPACKHeaderTable
  | 0, t => .ok t
  | n+1, t =>
    if t.base.capacity-t.base.bytes+t.drainedBytes < t.minFree ∧ t.minUsable≤t.base.insertCount then do
      let relativeIndex ← t.absoluteToRelative t.minUsable
      drain n {t with
        drainedBytes := t.drainedBytes+(t.base.ring.slots (t.base.toInternal relativeIndex)).bytes
        minUsable := t.minUsable+1}
    else .ok t

def withBase (t : QPACKHeaderTable) (base : HeaderTable) : QPACKHeaderTable := {t with base := base}

/-- The end of `add`, once there is room. -/
def push (t : QPACKHeaderTable) (header : HPACKHeader) : Except Failure QPACKHeaderTable :=
  drain (t.base.insertCount+2-t.minUsable) (t.withBase (t.base.makeSlot.insert header))

def add (t : QPACKHeaderTable) (header : HPACKHeader) : Except Failure (Bool × QPACKHeaderTable) :=
  if t.base.insertCount=unacked then .ok (false,t)
  else if header.bytes > t.base.capacity then .ok (false,t.withBase t.base.reset)
  else if t.base.bytes+header.bytes > t.base.capacity then do
    let t' ← t.evict header.bytes t.base.capacity
    if t'.base.ring.size=t.base.ring.size then return (false,t')
    else return (true,← t'.push header)
  else do return (true,← t.push header)

def withCapacity (t : QPACKHeaderTable) (base : HeaderTable) : QPACKHeaderTable :=
  {t with base := base, minFree := if t.trackReferences then getMinFree base.capacity else t.minFree}

def setCapacity (t : QPACKHeaderTable) (newCapacity : ℕ) : Except Failure (Bool × QPACKHeaderTable) :=
  if newCapacity<t.base.capacity then do
    let t' ← t.evict 0 newCapacity
    if t'.base.bytes > newCapacity then return (false,t')
    else return (true,t'.withCapacity {t'.base with capacity := newCapacity})
  else .ok (true,t.withCapacity (t.base.setCapacity newCapacity).2)

/-! ## The entries behind the numbers -/

def nth (history : List HPACKHeader) (n : ℕ) : Option HPACKHeader := if n=0 then none else history[n-1]?

structure Numbered (t : HeaderTable) (history : List HPACKHeader) : Prop where
  wellFormed : t.WellFormed
  length_eq : history.length=t.insertCount
  isPrefix : t.entries <+: history.reverse

def Live (t : HeaderTable) (n : ℕ) : Prop := t.insertCount < n+t.ring.size ∧ n≤t.insertCount

section Numbers
variable {t : HeaderTable} {history : List HPACKHeader} {n : ℕ}

instance : Decidable (Live t n) := inferInstanceAs (Decidable (_ ∧ _))

lemma Numbered.size_le (h : Numbered t history) : t.ring.size≤t.insertCount := by
  have hlen := h.isPrefix.length_le
  rwa [List.length_reverse,h.length_eq,entries,Ring.length_toList] at hlen

lemma Numbered.entry_eq (h : Numbered t history) {age : ℕ} (hage : age<t.ring.size) :
    nth history (t.insertCount-age) = some (t.ring.entry age) := by
  have hsize := h.size_le
  have hget := Ring.getElem?_toList t.ring hage
  obtain ⟨rest,hrest⟩ := h.isPrefix
  have hrev : history.reverse[age]? = some (t.ring.entry age) := by
    rw [← hrest,List.getElem?_append_left (by rw [entries,Ring.length_toList]; exact hage)]
    exact hget
  rw [List.getElem?_reverse (by rw [h.length_eq]; omega),h.length_eq] at hrev
  rw [nth,if_neg (by omega),show t.insertCount-age-1 = t.insertCount-1-age by omega,hrev]

end Numbers

section Lookup
variable {t : QPACKHeaderTable} {history : List HPACKHeader} {index base : ℕ}

/-- The absolute index that a relative index and its base stand for, in unsigned 32-bit arithmetic. -/
def absolute (index base : ℕ) : ℕ := (((base : ℤ)-index+1) % 2^32).toNat

lemma isValid_iff_live (h : Numbered t.base history) (hcount : t.base.insertCount < 2^32) (hbase : 0<base) :
    t.isValid index base ↔ Live t.base (absolute index base) := by
  have hsize := h.size_le
  rw [isValid,if_pos hbase,HeaderTable.isValid,Live,absolute]
  simp only [decide_eq_true_eq]
  omega

lemma getHeader_of_live (h : Numbered t.base history) (hcount : t.base.insertCount < 2^32) (hbase : 0<base)
    (hlive : Live t.base (absolute index base)) :
    ∃ header,nth history (absolute index base) = some header ∧ t.getHeader index base = .ok header := by
  have hvalid := (isValid_iff_live h hcount hbase).mpr hlive
  have hsize := h.size_le
  obtain ⟨hlow,hhigh⟩ := hlive
  have hentry := h.entry_eq (show t.base.insertCount-absolute index base < t.base.ring.size by omega)
  rw [show t.base.insertCount-(t.base.insertCount-absolute index base) = absolute index base by omega] at hentry
  refine ⟨_,hentry,?_⟩
  have habs : (((base : ℤ)-index+1) % 2^32).toNat = absolute index base := rfl
  rw [getHeader,if_pos hvalid,toInternal,if_pos hbase,habs,absoluteToRelative,if_pos hhigh]
  rfl

lemma getHeader_of_zero (h : Numbered t.base history) (hindex : 1 ≤ index) (hle : index≤t.base.ring.size) :
    t.isValid index 0 ∧ ∃ header,nth history (t.base.insertCount+1-index) = some header ∧
      t.getHeader index 0 = .ok header := by
  have hvalid : t.isValid index 0 := by
    rw [isValid,if_neg (by omega),HeaderTable.isValid]
    exact decide_eq_true ⟨hindex,hle⟩
  have hsize := h.size_le
  have hentry := h.entry_eq (show index-1 < t.base.ring.size by omega)
  rw [show t.base.insertCount-(index-1) = t.base.insertCount+1-index by omega] at hentry
  refine ⟨hvalid,_,hentry,?_⟩
  rw [getHeader,if_pos hvalid,toInternal,if_neg (by omega)]
  rfl

lemma getHeader_of_isValid (h : Numbered t.base history) (hcount : t.base.insertCount < 2^32)
    (hvalid : t.isValid index base) : ∃ header,t.getHeader index base = .ok header := by
  rcases Nat.eq_zero_or_pos base with rfl | hpos
  · have hindex : 0 < index ∧ index≤t.base.ring.size := by
      rw [isValid,if_neg (by omega),HeaderTable.isValid] at hvalid
      exact of_decide_eq_true hvalid
    obtain ⟨-,header,-,hheader⟩ := getHeader_of_zero h hindex.1 hindex.2
    exact ⟨header,hheader⟩
  · obtain ⟨header,-,hheader⟩ := getHeader_of_live h hcount hpos ((isValid_iff_live h hcount hpos).mp hvalid)
    exact ⟨header,hheader⟩

end Lookup

/-! ## The decoder's table -/

structure Untracked (t : QPACKHeaderTable) : Prop where
  trackReferences : t.trackReferences=false
  drainedBytes : t.drainedBytes=0
  minFree : t.minFree=0

section Untracked
variable {t : QPACKHeaderTable} {header : HPACKHeader}

lemma Untracked.withBase (h : Untracked t) (base : HeaderTable) : Untracked (t.withBase base) :=
  ⟨h.trackReferences,h.drainedBytes,h.minFree⟩

lemma removeLast_untracked (h : Untracked t) :
    ∃ t',t.removeLast = .ok t' ∧ Untracked t' ∧ t'.base=t.base.removeLast := by
  rw [removeLast,if_neg (by simp [h.trackReferences]),if_neg (by simp [h.drainedBytes])]
  exact ⟨_,rfl,⟨h.trackReferences,h.drainedBytes,h.minFree⟩,rfl⟩

lemma evictLoop_untracked {needed desiredCapacity n : ℕ} (h : Untracked t) (hn : t.base.ring.size≤n) :
    ∃ t',evictLoop needed desiredCapacity n t = .ok t' ∧ Untracked t' ∧
      t'.base = t.base.evict needed desiredCapacity := by
  induction n generalizing t with
  | zero =>
    refine ⟨t,rfl,h,?_⟩
    rw [HeaderTable.evict,if_neg (by omega)]
  | succ n ih =>
    rw [evictLoop,HeaderTable.evict]
    split
    case isTrue hcond =>
      obtain ⟨t',ht',hun,hbase⟩ := removeLast_untracked h
      have hsize : t'.base.ring.size≤n := by
        rw [hbase,HeaderTable.removeLast,Ring.pop]
        simp only
        omega
      rw [ht',← hbase]
      exact ih hun hsize
    case isFalse => exact ⟨t,rfl,h,rfl⟩

lemma evict_untracked {needed desiredCapacity : ℕ} (h : Untracked t)
    (hneeded : t.base.bytes+needed ≤ desiredCapacity+t.base.capacity) :
    ∃ t',t.evict needed desiredCapacity = .ok t' ∧ Untracked t' ∧
      t'.base = t.base.evict needed desiredCapacity := by
  have hcan : t.canEvict (t.base.bytes+needed-desiredCapacity) := by
    rw [canEvict,if_pos (.inr h.trackReferences)]
    exact decide_eq_true (by omega)
  rw [evict]
  split
  case isTrue hcond =>
    have hlt : t.base.bytes+needed < desiredCapacity := by simpa [hcan] using hcond
    refine ⟨t,rfl,h,?_⟩
    rw [HeaderTable.evict,if_neg (by omega)]
  case isFalse => exact evictLoop_untracked h le_rfl

lemma push_untracked (h : Untracked t) (header : HPACKHeader) :
    t.push header = .ok (t.withBase (t.base.makeSlot.insert header)) := by
  rw [push]
  cases t.base.insertCount+2-t.minUsable with
  | zero => rfl
  | succ n => rw [drain,if_neg (by simp [withBase,h.minFree])]

lemma add_untracked (h : Untracked t) (hwf : t.base.WellFormed) (hcount : t.base.insertCount<unacked)
    (header : HPACKHeader) :
    ∃ t',t.add header = .ok ((t.base.add header).1,t') ∧ Untracked t' ∧ t'.base = (t.base.add header).2 := by
  have hle := hwf.bytes_le
  rw [add,HeaderTable.add,if_neg (by omega)]
  by_cases hlarge : header.bytes > t.base.capacity
  · rw [if_pos hlarge,if_pos hlarge]
    exact ⟨_,rfl,h.withBase _,rfl⟩
  rw [if_neg hlarge,if_neg hlarge]
  by_cases hfull : t.base.bytes+header.bytes > t.base.capacity
  · obtain ⟨t',ht',hun,hbase⟩ := evict_untracked h (show t.base.bytes+header.bytes ≤ t.base.capacity+_ by omega)
    rw [if_pos hfull,if_pos hfull,ht',ok_bind,push_untracked hun,hbase]
    split
    case isTrue => exact ⟨t',rfl,hun,hbase⟩
    case isFalse => exact ⟨_,rfl,hun.withBase _,rfl⟩
  · rw [if_neg hfull,if_neg hfull,push_untracked h]
    exact ⟨_,rfl,h.withBase _,rfl⟩

lemma setCapacity_untracked (h : Untracked t) (hwf : t.base.WellFormed) (newCapacity : ℕ) :
    ∃ t',t.setCapacity newCapacity = .ok (true,t') ∧ Untracked t' ∧ t'.base = (t.base.setCapacity newCapacity).2 := by
  have hle := hwf.bytes_le
  have htrue := (setCapacity_spec hwf newCapacity).1
  have hcap (base : HeaderTable) (hun : Untracked t) : Untracked (t.withCapacity base) :=
    ⟨hun.trackReferences,hun.drainedBytes,by simp [withCapacity,hun.trackReferences,hun.minFree]⟩
  rw [setCapacity]
  split
  case isTrue hlt =>
    obtain ⟨t',ht',hun,hbase⟩ := evict_untracked h (show t.base.bytes+0 ≤ newCapacity+_ by omega)
    rw [HeaderTable.setCapacity,if_neg (by omega),if_pos hlt] at htrue ⊢
    rw [ht',ok_bind,hbase]
    split at htrue
    case isTrue => cases htrue
    case isFalse hbytes =>
      rw [if_neg hbytes,if_neg hbytes]
      refine ⟨_,rfl,⟨hun.trackReferences,hun.drainedBytes,?_⟩,rfl⟩
      simp [withCapacity,hun.trackReferences,hun.minFree]
  case isFalse => exact ⟨_,rfl,hcap _ h,rfl⟩

end Untracked

/-! ## The numbering through insertions -/

section Insertion
variable {t : HeaderTable} {history : List HPACKHeader}

lemma insertCount_evict (hwf : t.WellFormed) (needed desiredCapacity : ℕ) :
    (t.evict needed desiredCapacity).insertCount = t.insertCount :=
  (evict_evicted hwf needed desiredCapacity).insertCount_eq

lemma insertCount_makeSlot_insert (t : HeaderTable) (header : HPACKHeader) :
    (t.makeSlot.insert header).insertCount = t.insertCount+1 := by
  unfold makeSlot
  split
  · rfl
  · rfl

lemma Numbered.reset (h : Numbered t history) : Numbered t.reset history :=
  ⟨reset_wellFormed h.wellFormed,h.length_eq, List.nil_prefix⟩

lemma Numbered.add (h : Numbered t history) {header : HPACKHeader} (hfits : header.bytes≤t.capacity) :
    (t.add header).1 = true ∧ Numbered (t.add header).2 (history++[header]) := by
  obtain ⟨htrue,hbecomes⟩ := add_fits h.wellFormed hfits
  refine ⟨htrue,hbecomes.wellFormed,?_,?_⟩
  · have hcount : (t.add header).2.insertCount = t.insertCount+1 := by
      rw [HeaderTable.add,if_neg (by omega)] at htrue ⊢
      split
      case isTrue hfull =>
        rw [if_pos hfull] at htrue
        split at htrue
        case isTrue => cases htrue
        case isFalse hsize =>
          rw [if_neg hsize,insertCount_makeSlot_insert,insertCount_evict h.wellFormed]
      case isFalse => exact insertCount_makeSlot_insert _ _
    rw [hcount,List.length_append,h.length_eq]
    rfl
  · rw [hbecomes.entries_eq,List.reverse_append,List.reverse_singleton,List.singleton_append]
    exact (List.cons_prefix_cons).mpr ⟨rfl,(keep_isPrefix _ _).trans h.isPrefix⟩

lemma Numbered.setCapacity (h : Numbered t history) (newCapacity : ℕ) :
    Numbered (t.setCapacity newCapacity).2 history := by
  obtain ⟨htrue,hbecomes⟩ := setCapacity_spec h.wellFormed newCapacity
  refine ⟨hbecomes.wellFormed,?_,?_⟩
  · rw [h.length_eq,HeaderTable.setCapacity]
    split
    case isTrue => rfl
    case isFalse =>
      split
      case isTrue =>
        split
        · exact (insertCount_evict h.wellFormed _ _).symm
        · exact (insertCount_evict h.wellFormed _ _).symm
      case isFalse =>
        split
        · rfl
        · rfl
  · rw [hbecomes.entries_eq]
    exact (keep_isPrefix _ _).trans h.isPrefix

end Insertion

end QPACKHeaderTable

end QuicWestwood
