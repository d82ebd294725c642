import QuicWestwood.ByteCodec
import QuicWestwood.PacketTypes
import QuicWestwood.Ring
import QuicWestwood.Run

/-! A ring of headers with a size bound in bytes and an index of the slots of each name. Its contract is a list
of headers, the newest first: an insertion keeps the longest part of the list that still fits next to the new
header. -/
namespace QuicWestwood
open ByteCodec List Function

structure HPACKHeader where
  name : Bytes
  value : Bytes
  deriving DecidableEq, Inhabited

namespace HPACKHeader

def kMinLength : ℕ := 32

def realBytes (header : HPACKHeader) : ℕ := header.name.length+header.value.length

def bytes (header : HPACKHeader) : ℕ := kMinLength+header.realBytes

lemma bytes_ge (header : HPACKHeader) : 32≤header.bytes := Nat.le_add_right _ _

end HPACKHeader

structure HeaderTable where
  capacity : ℕ
  bytes : ℕ
  /-- `table_`, `head_` and `size_`. -/
  ring : Ring HPACKHeader
  insertCount : ℕ
  indexNames : Bool
  /-- The slots of the entries with a name, the oldest first; empty for an absent name. -/
  names : Bytes → List ℕ

namespace HeaderTable

def getMaxTableLength (capacityVal : ℕ) : ℕ := capacityVal/2^5

def initialTableLength (capacity : ℕ) : ℕ :=
  if getMaxTableLength capacity = 1 then 1 else getMaxTableLength capacity/2

def init (capacityVal : ℕ) : HeaderTable where
  capacity := capacityVal
  bytes := 0
  ring := {slots := fun _ => default, length := initialTableLength capacityVal, head := 0, size := 0}
  insertCount := 0
  indexNames := true
  names := fun _ => []

def disableNamesIndex (t : HeaderTable) : HeaderTable := {t with indexNames := false}

def reset (t : HeaderTable) : HeaderTable :=
  {t with names := fun _ => [], bytes := 0, ring := {t.ring with size := 0}}

def last (t : HeaderTable) : HPACKHeader := t.ring.slots t.ring.tail

def removeLast (t : HeaderTable) : HeaderTable :=
  {t with
    names := if t.indexNames then Function.update t.names t.last.name (t.names t.last.name).tail else t.names
    bytes := t.bytes-t.last.bytes
    ring := t.ring.pop}

def evict (t : HeaderTable) (needed desiredCapacity : ℕ) : HeaderTable :=
  if 0<t.ring.size ∧ t.bytes+needed > desiredCapacity then t.removeLast.evict needed desiredCapacity
  else t
termination_by t.ring.size
decreasing_by
  simp only [removeLast,Ring.pop]
  omega

/-- The slots of one name after the ring has grown: the older ones move, the scan stops at the
first that does not. -/
def shiftSlots (oldTail distance : ℕ) : List ℕ → List ℕ
  | [] => []
  | i::is => if oldTail ≤ i then (i+distance)::shiftSlots oldTail distance is else i::is

def increaseTableLengthTo (t : HeaderTable) (newLength : ℕ) : HeaderTable :=
  {t with
    ring := t.ring.grow newLength
    names := if t.ring.Wrapped ∧ t.indexNames then
        fun name => shiftSlots t.ring.tail (newLength-t.ring.length) (t.names name)
      else t.names}

def makeSlot (t : HeaderTable) : HeaderTable :=
  if t.ring.size=t.ring.length then
    t.increaseTableLengthTo (min ((3*t.ring.size+1)/2) (getMaxTableLength t.capacity))
  else t

def insert (t : HeaderTable) (header : HPACKHeader) : HeaderTable :=
  {t with
    ring := t.ring.push header
    names := if t.indexNames then
        Function.update t.names header.name (t.names header.name++[(t.ring.head+1) % t.ring.length])
      else t.names
    bytes := t.bytes+header.bytes
    insertCount := t.insertCount+1}

def add (t : HeaderTable) (header : HPACKHeader) : Bool × HeaderTable :=
  if header.bytes > t.capacity then (false,t.reset)
  else if t.bytes+header.bytes > t.capacity then
    if (t.evict header.bytes t.capacity).ring.size = t.ring.size then (false,t.evict header.bytes t.capacity)
    else (true,(t.evict header.bytes t.capacity).makeSlot.insert header)
  else (true,t.makeSlot.insert header)

def setCapacity (t : HeaderTable) (newCapacity : ℕ) : Bool × HeaderTable :=
  if newCapacity=t.capacity then (true,t)
  else if newCapacity<t.capacity then
    if (t.evict 0 newCapacity).bytes > newCapacity then (false,t.evict 0 newCapacity)
    else (true,{t.evict 0 newCapacity with capacity := newCapacity})
  else if initialTableLength newCapacity > t.ring.length then
    (true,{t.increaseTableLengthTo (initialTableLength newCapacity) with capacity := newCapacity})
  else (true,{t with capacity := newCapacity})

def isValid (t : HeaderTable) (index : ℕ) : Bool := 0 < index ∧ index≤t.ring.size

def toExternal (t : HeaderTable) (internalIndex : ℕ) : ℕ := t.ring.slotAt internalIndex+1

def toInternal (t : HeaderTable) (externalIndex : ℕ) : ℕ := t.ring.slotAt (externalIndex-1)

def getHeader (t : HeaderTable) (index : ℕ) : Except Failure HPACKHeader :=
  if t.isValid index then .ok (t.ring.slots (t.toInternal index)) else .error .checkFailed

/-- The search from the newest slot of a name on. -/
def getIndexImpl (t : HeaderTable) (headerName value : Bytes) (nameOnly : Bool) : Except Failure (ℕ × ℕ) :=
  if t.indexNames then
    match (t.names headerName).reverse with
    | [] => .ok (0,0)
    | newest::older =>
      match (newest::older).find? fun i => nameOnly || (t.ring.slots i).value == value with
      | some i => .ok (t.toExternal i,0)
      | none => .ok (0,t.toExternal newest)
  else .error .checkFailed

def getIndex (t : HeaderTable) (headerName value : Bytes) : Except Failure (ℕ × ℕ) :=
  t.getIndexImpl headerName value false

def nameIndex (t : HeaderTable) (headerName : Bytes) : Except Failure ℕ :=
  Prod.fst <$> t.getIndexImpl headerName [] true

def entries (t : HeaderTable) : List HPACKHeader := t.ring.toList

def total (headers : List HPACKHeader) : ℕ := (headers.map HPACKHeader.bytes).sum

/-- The longest first part of the headers that fits into `room` bytes. -/
def keep (room : ℕ) : List HPACKHeader → List HPACKHeader
  | [] => []
  | header::headers => if header.bytes ≤ room then header::keep (room-header.bytes) headers else []

@[simp] lemma total_nil : total [] = 0 := rfl

@[simp] lemma total_cons (header : HPACKHeader) (headers : List HPACKHeader) :
    total (header::headers) = header.bytes+total headers := rfl

@[simp] lemma total_append (a b : List HPACKHeader) : total (a++b) = total a+total b := by
  simp [total]

lemma length_le_total (headers : List HPACKHeader) : 32*headers.length ≤ total headers := by
  induction headers with
  | nil => simp
  | cons header headers ih =>
    have := header.bytes_ge
    rw [length_cons,total_cons]
    omega

lemma keep_eq_self {room : ℕ} {headers : List HPACKHeader} (h : total headers ≤ room) :
    keep room headers = headers := by
  induction headers generalizing room with
  | nil => rfl
  | cons header headers ih =>
    rw [total_cons] at h
    rw [keep,if_pos (by omega),ih (by omega)]

lemma keep_append_of_lt {room : ℕ} {headers : List HPACKHeader} {header : HPACKHeader}
    (h : room < total headers+header.bytes) : keep room (headers++[header]) = keep room headers := by
  induction headers generalizing room with
  | nil =>
    simp only [total_nil,zero_add] at h
    exact if_neg (by omega)
  | cons first headers ih =>
    rw [total_cons] at h
    rw [cons_append,keep,keep]
    split_ifs with hfits
    · rw [ih (by omega)]
    · rfl

lemma total_keep_le (room : ℕ) (headers : List HPACKHeader) : total (keep room headers) ≤ room := by
  induction headers generalizing room with
  | nil => exact Nat.zero_le _
  | cons header headers ih =>
    rw [keep]
    split_ifs with hfits
    · have := ih (room-header.bytes)
      rw [total_cons]
      omega
    · exact Nat.zero_le _

lemma keep_isPrefix (room : ℕ) (headers : List HPACKHeader) : keep room headers <+: headers := by
  induction headers generalizing room with
  | nil => exact nil_prefix
  | cons header headers ih =>
    rw [keep]
    split_ifs
    · exact cons_prefix_cons.mpr ⟨rfl,ih _⟩
    · exact nil_prefix

/-- The slots of the entries with a name, the oldest first. -/
def slotsNamed (t : HeaderTable) (name : Bytes) : List ℕ :=
  (((range t.ring.size).filter fun age => (t.ring.entry age).name = name).map t.ring.slotAt).reverse

structure WellFormed (t : HeaderTable) : Prop where
  ring : t.ring.WellFormed
  bytes_eq : t.bytes = total t.entries
  bytes_le : t.bytes≤t.capacity
  length_pos : 32≤t.capacity → 0<t.ring.length
  head_zero : t.ring.length=0 → t.ring.head=0
  names_eq : t.indexNames → ∀ name,t.names name = t.slotsNamed name

section Evict
variable {t : HeaderTable} {needed desiredCapacity : ℕ}

lemma init_wellFormed (capacityVal : ℕ) : (init capacityVal).WellFormed where
  ring := ⟨Nat.zero_le _,fun h => h⟩
  bytes_eq := rfl
  bytes_le := Nat.zero_le _
  length_pos h := by
    have hmax : 1 ≤ getMaxTableLength capacityVal := by
      have : 32 ≤ capacityVal := h
      unfold getMaxTableLength
      omega
    show 0 < initialTableLength capacityVal
    unfold initialTableLength
    split_ifs <;> omega
  head_zero _ := rfl
  names_eq _ _ := rfl

lemma reset_wellFormed (h : t.WellFormed) : t.reset.WellFormed where
  ring := ⟨Nat.zero_le _,h.ring.head_lt⟩
  bytes_eq := rfl
  bytes_le := Nat.zero_le _
  length_pos := h.length_pos
  head_zero := h.head_zero
  names_eq _ _ := rfl

lemma entries_eq_append_last (h : t.WellFormed) (hpos : 0<t.ring.size) :
    t.entries = t.removeLast.entries++[t.last] := by
  have hne : t.entries≠[] := by
    rw [← length_pos_iff,entries,Ring.length_toList]
    exact hpos
  have hlast : t.entries.getLast hne = t.last := by
    rw [last,Ring.tail_eq hpos h.ring.size_le]
    simp [entries,Ring.toList,getLast_eq_getElem,Ring.entry]
  have hpop : t.removeLast.entries=t.entries.dropLast := Ring.toList_pop t.ring
  rw [hpop,← hlast,dropLast_append_getLast]

lemma slotsNamed_removeLast (h : t.WellFormed) (hpos : 0<t.ring.size) (name : Bytes) :
    t.slotsNamed name = (if t.last.name=name then [t.ring.tail] else [])++t.removeLast.slotsNamed name := by
  obtain ⟨n,hn⟩ := Nat.exists_eq_succ_of_ne_zero hpos.ne'
  have htail : t.ring.tail = t.ring.slotAt n := by
    rw [Ring.tail_eq hpos h.ring.size_le,hn]
    rfl
  have hlast : t.last = t.ring.entry n := by rw [last,htail,Ring.entry]
  have hrest : t.removeLast.slotsNamed name =
      (((range n).filter fun age => (t.ring.entry age).name = name).map t.ring.slotAt).reverse := by
    simp only [slotsNamed,removeLast,Ring.pop,hn]
    rfl
  rw [hrest,slotsNamed,hn,range_succ,filter_append,map_append,reverse_append,hlast,htail]
  congr 1
  by_cases hname : (t.ring.entry n).name = name
  · simp [hname]
  · simp [hname]

lemma removeLast_wellFormed (h : t.WellFormed) (hpos : 0<t.ring.size) : t.removeLast.WellFormed where
  ring := Ring.pop_wellFormed h.ring
  bytes_eq := by
    have hsum := congrArg total (entries_eq_append_last h hpos)
    rw [total_append,total_cons,total_nil,← h.bytes_eq] at hsum
    show t.bytes-t.last.bytes = _
    omega
  bytes_le := (Nat.sub_le _ _).trans h.bytes_le
  length_pos := h.length_pos
  head_zero := h.head_zero
  names_eq hindex name := by
    have hold := h.names_eq hindex name
    rw [slotsNamed_removeLast h hpos] at hold
    have hnames : t.removeLast.names = update t.names t.last.name (t.names t.last.name).tail :=
      if_pos hindex
    rw [hnames]
    by_cases hname : t.last.name=name
    · rw [if_pos hname] at hold
      rw [hname,update_self,hold]
      rfl
    · rw [if_neg hname] at hold
      rw [update_of_ne (Ne.symm hname),hold]
      rfl

structure Evicted (t t' : HeaderTable) (room : ℕ) : Prop where
  wellFormed : t'.WellFormed
  entries_eq : t'.entries = keep room t.entries
  capacity_eq : t'.capacity=t.capacity
  indexNames_eq : t'.indexNames=t.indexNames
  insertCount_eq : t'.insertCount=t.insertCount
  length_eq : t'.ring.length=t.ring.length

lemma evict_evicted (h : t.WellFormed) (needed desiredCapacity : ℕ) :
    Evicted t (t.evict needed desiredCapacity) (desiredCapacity-needed) := by
  fun_induction evict t needed desiredCapacity with
  | case1 t hcond ih =>
    have hlast := entries_eq_append_last h hcond.1
    have hrest := ih (removeLast_wellFormed h hcond.1)
    refine {hrest with entries_eq := ?_}
    have hsum := congrArg total hlast
    rw [total_append,total_cons,total_nil,← h.bytes_eq] at hsum
    have hlast' := t.last.bytes_ge
    rw [hrest.entries_eq,hlast,keep_append_of_lt (by omega)]
  | case2 t hcond =>
    refine ⟨h,?_,rfl,rfl,rfl,rfl⟩
    rcases Nat.eq_zero_or_pos t.ring.size with hzero | hpos
    · have : t.entries=[] := by rw [← length_eq_zero_iff,entries,Ring.length_toList,hzero]
      rw [this]
      rfl
    · rw [keep_eq_self]
      rw [← h.bytes_eq]
      omega

end Evict

section Grow
variable {t : HeaderTable} {newLength : ℕ}

lemma shiftSlots_eq_map {oldTail distance : ℕ} {is : List ℕ}
    (h : is.Pairwise fun i j => i < oldTail → j<oldTail) :
    shiftSlots oldTail distance is = is.map fun i => if oldTail ≤ i then i+distance else i := by
  induction is with
  | nil => rfl
  | cons i is ih =>
    obtain ⟨hhead,htail⟩ := pairwise_cons.mp h
    rw [shiftSlots,map_cons]
    split_ifs with hle
    · rw [ih htail]
    · -- the scan stops here, and nothing behind would move
      have hid : is.map (fun j => if oldTail≤j then j+distance else j) = is.map id :=
        map_congr_left fun j hj => if_neg (by have := hhead j hj; omega)
      rw [hid,map_id]

lemma slotsNamed_grow (h : t.WellFormed) (hn : t.ring.length≤newLength) (name : Bytes) :
    (t.increaseTableLengthTo newLength).slotsNamed name = (t.slotsNamed name).map fun slot =>
      if t.ring.Wrapped ∧ t.ring.tail ≤ slot then slot+(newLength-t.ring.length) else slot := by
  have hfilter : (range t.ring.size).filter (fun age => ((t.ring.grow newLength).entry age).name = name) =
      (range t.ring.size).filter fun age => (t.ring.entry age).name = name := by
    refine filter_congr fun age hage => ?_
    rw [Ring.entry_grow h.ring hn (mem_range.mp hage)]
  have hslots : (t.increaseTableLengthTo newLength).slotsNamed name = (((range t.ring.size).filter
      fun age => ((t.ring.grow newLength).entry age).name = name).map (t.ring.grow newLength).slotAt).reverse := rfl
  rw [hslots,hfilter,slotsNamed,← map_reverse,← map_reverse,map_map]
  refine map_congr_left fun age hage => ?_
  have hage' := mem_range.mp (mem_filter.mp (mem_reverse.mp hage)).1
  exact Ring.slotAt_grow h.ring hn hage'

lemma slotsNamed_pairwise (h : t.WellFormed) (hw : t.ring.Wrapped) (name : Bytes) :
    (t.slotsNamed name).Pairwise fun i j => i < t.ring.tail → j<t.ring.tail := by
  rw [slotsNamed,pairwise_reverse,pairwise_map]
  have hsorted : ((range t.ring.size).filter fun age => (t.ring.entry age).name = name).Pairwise (· < ·) :=
    pairwise_lt_range.filter _
  refine hsorted.imp_of_mem fun {age age'} hage hage' hlt hold => ?_
  have hlt1 := mem_range.mp (mem_filter.mp hage).1
  have hlt2 := mem_range.mp (mem_filter.mp hage').1
  have hiff := Ring.tail_le_slotAt_iff h.ring hw hlt1
  have hiff' := Ring.tail_le_slotAt_iff h.ring hw hlt2
  omega

lemma increaseTableLengthTo_wellFormed (h : t.WellFormed) (hn : t.ring.length≤newLength) :
    (t.increaseTableLengthTo newLength).WellFormed where
  ring := Ring.grow_wellFormed h.ring hn h.head_zero
  bytes_eq := h.bytes_eq.trans (congrArg total (Ring.toList_grow h.ring hn).symm)
  bytes_le := h.bytes_le
  length_pos hcap := (h.length_pos hcap).trans_le hn
  head_zero hlen := h.head_zero (Nat.le_zero.mp (hn.trans hlen.le))
  names_eq hindex name := by
    rw [slotsNamed_grow h hn,← h.names_eq hindex]
    by_cases hw : t.ring.Wrapped
    · have hnames : (t.increaseTableLengthTo newLength).names =
          fun name => shiftSlots t.ring.tail (newLength-t.ring.length) (t.names name) := if_pos ⟨hw,hindex⟩
      have hpair := slotsNamed_pairwise h hw name
      rw [← h.names_eq hindex] at hpair
      simp only [hnames,shiftSlots_eq_map hpair,hw,true_and]
    · have hnames : (t.increaseTableLengthTo newLength).names = t.names := if_neg fun hcon => hw hcon.1
      simp [hnames,hw]

end Grow

section Insert
variable {t : HeaderTable} {header : HPACKHeader}

lemma getMaxTableLength_ge (h : t.WellFormed) (hfits : t.bytes+header.bytes ≤ t.capacity) :
    t.ring.size+1 ≤ getMaxTableLength t.capacity := by
  have hlen := length_le_total t.entries
  have hbytes := header.bytes_ge
  rw [← h.bytes_eq,entries,Ring.length_toList] at hlen
  unfold getMaxTableLength
  omega

lemma makeSlot_spec (h : t.WellFormed) (hfits : t.bytes+header.bytes ≤ t.capacity) :
    t.makeSlot.WellFormed ∧ t.makeSlot.entries=t.entries ∧ t.makeSlot.ring.size<t.makeSlot.ring.length := by
  have hmax := getMaxTableLength_ge h hfits
  have hlen := h.length_pos ((header.bytes_ge.trans (Nat.le_add_left _ _)).trans hfits)
  have hsize := h.ring.size_le
  unfold makeSlot
  split_ifs with hfull
  · have hgrow : t.ring.size < min ((3*t.ring.size+1)/2) (getMaxTableLength t.capacity) := by omega
    exact ⟨increaseTableLengthTo_wellFormed h (by omega),Ring.toList_grow h.ring (by omega),hgrow⟩
  · exact ⟨h,rfl,by omega⟩

lemma slotsNamed_insert (h : t.WellFormed) (hlt : t.ring.size<t.ring.length) (name : Bytes) :
    (t.insert header).slotsNamed name =
      t.slotsNamed name++if header.name=name then [(t.ring.head+1) % t.ring.length] else [] := by
  have hhead := h.ring.head_lt (by omega)
  have hslots : (t.insert header).slotsNamed name = (((range (t.ring.size+1)).filter
      fun age => ((t.ring.push header).entry age).name = name).map (t.ring.push header).slotAt).reverse := rfl
  have hzero : (t.ring.push header).entry 0 = header := by
    have := Ring.toList_push h.ring header hlt
    rw [Ring.toList,show (t.ring.push header).size = t.ring.size+1 from rfl,range_succ_eq_map,
      map_cons] at this
    exact (cons.inj this).1
  have hfilter : (range t.ring.size).filter (fun age => ((t.ring.push header).entry (age+1)).name = name) =
      (range t.ring.size).filter fun age => (t.ring.entry age).name = name := by
    refine filter_congr fun age hage => ?_
    rw [Ring.entry_push_succ hhead header (by have := mem_range.mp hage; omega)]
  have hmap : ((range t.ring.size).filter fun age => (t.ring.entry age).name = name).map
      (fun age => (t.ring.push header).slotAt (age+1)) =
      ((range t.ring.size).filter fun age => (t.ring.entry age).name = name).map t.ring.slotAt := by
    refine map_congr_left fun age hage => Ring.slotAt_push_succ hhead header ?_
    have := mem_range.mp (mem_filter.mp hage).1
    omega
  rw [hslots,range_succ_eq_map,filter_cons,hzero,filter_map]
  simp only [comp_def,Nat.succ_eq_add_one,hfilter]
  by_cases hname : header.name=name
  · simp only [hname,decide_true,if_true,map_cons,map_map,comp_def,reverse_cons,hmap,
      Ring.slotAt_push_zero (by omega : 0<t.ring.length) header]
    rfl
  · simp only [hname,decide_false,Bool.false_eq_true,if_false,map_map,comp_def,hmap,append_nil]
    rfl

lemma insert_wellFormed (h : t.WellFormed) (hlt : t.ring.size<t.ring.length)
    (hfits : t.bytes+header.bytes ≤ t.capacity) : (t.insert header).WellFormed where
  ring := Ring.push_wellFormed header hlt
  bytes_eq := by
    show t.bytes+header.bytes = total (t.ring.push header).toList
    rw [Ring.toList_push h.ring header hlt,total_cons,h.bytes_eq,add_comm]
    rfl
  bytes_le := hfits
  length_pos := h.length_pos
  head_zero hlen := by
    have : t.ring.length=0 := hlen
    omega
  names_eq hindex name := by
    have hnames : (t.insert header).names = update t.names header.name
        (t.names header.name++[(t.ring.head+1) % t.ring.length]) := if_pos hindex
    rw [hnames,slotsNamed_insert h hlt,← h.names_eq hindex]
    by_cases hname : header.name=name
    · rw [if_pos hname,hname,update_self]
    · rw [if_neg hname,update_of_ne (Ne.symm hname),append_nil]

structure Becomes (t t' : HeaderTable) (headers : List HPACKHeader) (capacity : ℕ) : Prop where
  wellFormed : t'.WellFormed
  entries_eq : t'.entries=headers
  capacity_eq : t'.capacity=capacity
  indexNames_eq : t'.indexNames=t.indexNames

lemma makeSlot_insert_becomes (h : t.WellFormed) (hfits : t.bytes+header.bytes ≤ t.capacity) :
    Becomes t (t.makeSlot.insert header) (header::t.entries) t.capacity := by
  obtain ⟨hwf,hentries,hlt⟩ := makeSlot_spec h hfits
  have hkeep : t.makeSlot.bytes=t.bytes ∧ t.makeSlot.capacity=t.capacity ∧
      t.makeSlot.indexNames = t.indexNames := by
    unfold makeSlot
    split_ifs <;> exact ⟨rfl,rfl,rfl⟩
  refine ⟨insert_wellFormed hwf hlt (by rw [hkeep.1,hkeep.2.1]; exact hfits),?_,hkeep.2.1,hkeep.2.2⟩
  rw [← hentries]
  exact Ring.toList_push hwf.ring header hlt

lemma add_large (h : t.WellFormed) (hlarge : t.capacity<header.bytes) :
    (t.add header).1 = false ∧ Becomes t (t.add header).2 [] t.capacity := by
  rw [add,if_pos hlarge]
  exact ⟨rfl,reset_wellFormed h,rfl,rfl,rfl⟩

lemma add_fits (h : t.WellFormed) (hfits : header.bytes≤t.capacity) :
    (t.add header).1 = true ∧
      Becomes t (t.add header).2 (header::keep (t.capacity-header.bytes) t.entries) t.capacity := by
  rw [add,if_neg (by omega)]
  by_cases hfull : t.bytes+header.bytes > t.capacity
  · have hev := evict_evicted h header.bytes t.capacity
    have hroom : (t.evict header.bytes t.capacity).bytes+header.bytes ≤ t.capacity := by
      rw [hev.wellFormed.bytes_eq,hev.entries_eq]
      have := total_keep_le (t.capacity-header.bytes) t.entries
      omega
    have hsize : (t.evict header.bytes t.capacity).ring.size≠t.ring.size := by
      intro hsame
      have hpre := keep_isPrefix (t.capacity-header.bytes) t.entries
      rw [← hev.entries_eq] at hpre
      have heq := hpre.eq_of_length (by simpa [entries] using hsame)
      have : (t.evict header.bytes t.capacity).bytes = t.bytes := by
        rw [hev.wellFormed.bytes_eq,h.bytes_eq,heq]
      omega
    rw [if_pos hfull,if_neg hsize]
    have hins := makeSlot_insert_becomes hev.wellFormed (hroom.trans hev.capacity_eq.ge)
    exact ⟨rfl,hins.wellFormed,by rw [hins.entries_eq,hev.entries_eq],hins.capacity_eq.trans hev.capacity_eq,
      hins.indexNames_eq.trans hev.indexNames_eq⟩
  · rw [if_neg hfull,keep_eq_self (by rw [← h.bytes_eq]; omega)]
    exact ⟨rfl,makeSlot_insert_becomes h (by omega)⟩

lemma initialTableLength_pos {capacity : ℕ} (h : 32 ≤ capacity) : 0 < initialTableLength capacity :=
  (init_wellFormed capacity).length_pos h

lemma setCapacity_spec (h : t.WellFormed) (newCapacity : ℕ) : (t.setCapacity newCapacity).1 = true ∧
    Becomes t (t.setCapacity newCapacity).2 (keep newCapacity t.entries) newCapacity := by
  have hle := h.bytes_le
  rw [h.bytes_eq] at hle
  have hself (hcap : t.capacity≤newCapacity) : t.entries = keep newCapacity t.entries :=
    (keep_eq_self (hle.trans hcap)).symm
  rw [setCapacity]
  split_ifs with hsame hless hover hgrow
  · exact ⟨rfl,h,hself hsame.ge,hsame.symm,rfl⟩
  · have hev := evict_evicted h 0 newCapacity
    rw [hev.wellFormed.bytes_eq,hev.entries_eq] at hover
    have := total_keep_le (newCapacity-0) t.entries
    omega
  · have hev := evict_evicted h 0 newCapacity
    refine ⟨rfl,{hev.wellFormed with bytes_le := not_lt.mp hover, length_pos := fun hcap => ?_},
      hev.entries_eq,rfl,hev.indexNames_eq⟩
    exact hev.wellFormed.length_pos (by rw [hev.capacity_eq]; exact hcap.trans hless.le)
  · have hwf := increaseTableLengthTo_wellFormed h hgrow.le
    refine ⟨rfl,{hwf with bytes_le := ?_, length_pos := fun hcap => initialTableLength_pos hcap},?_,rfl,rfl⟩
    · exact h.bytes_le.trans (by show t.capacity ≤ newCapacity; omega)
    · exact (Ring.toList_grow h.ring hgrow.le).trans (hself (by omega))
  · refine ⟨rfl,{h with bytes_le := ?_, length_pos := fun hcap => ?_},hself (by omega),rfl,rfl⟩
    · exact h.bytes_le.trans (by show t.capacity ≤ newCapacity; omega)
    · have := initialTableLength_pos hcap
      exact this.trans_le (not_lt.mp hgrow)

end Insert

section Lookup
variable {t : HeaderTable} {index : ℕ}

lemma isValid_iff : t.isValid index ↔ 0 < index ∧ index≤t.entries.length := by
  simp [isValid,entries]

lemma getHeader_eq (h : t.isValid index) : ∃ header,t.entries[index-1]? = some header ∧
    t.getHeader index = .ok header := by
  obtain ⟨hpos,hle⟩ : 0 < index ∧ index≤t.ring.size := by simpa [isValid] using h
  exact ⟨_,Ring.getElem?_toList t.ring (by omega),if_pos h⟩

end Lookup

/-! ## Runs -/

inductive TableOp
  | add (header : HPACKHeader)
  | setCapacity (newCapacity : ℕ)

def perform (t : HeaderTable) : TableOp → HeaderTable
  | .add header => (t.add header).2
  | .setCapacity newCapacity => (t.setCapacity newCapacity).2

/-- A bound, and the newest headers within it. -/
def queue (q : ℕ × List HPACKHeader) : TableOp → ℕ × List HPACKHeader
  | .add header => (q.1,keep q.1 (header::q.2))
  | .setCapacity newCapacity => (newCapacity,keep newCapacity q.2)

/-- The external index of the newest header that passes a test, or 0. -/
def newestIndex (p : HPACKHeader → Bool) (headers : List HPACKHeader) : ℕ := (headers.findIdx? p).elim 0 (·+1)

section Runs
variable {t : HeaderTable}

lemma perform_becomes (h : t.WellFormed) (op : TableOp) :
    Becomes t (t.perform op) (queue (t.capacity,t.entries) op).2 (queue (t.capacity,t.entries) op).1 := by
  cases op with
  | add header =>
    rw [queue,keep]
    split_ifs with hfits
    · exact (add_fits h hfits).2
    · exact (add_large h (not_le.mp hfits)).2
  | setCapacity newCapacity => exact (setCapacity_spec h newCapacity).2

lemma run_becomes (h : t.WellFormed) (ops : List TableOp) : Becomes t (Run.run perform t ops)
    (Run.run queue (t.capacity,t.entries) ops).2 (Run.run queue (t.capacity,t.entries) ops).1 := by
  induction ops generalizing t with
  | nil => exact ⟨h,rfl,rfl,rfl⟩
  | cons op ops ih =>
    have hop := perform_becomes h op
    have hrest := ih hop.wellFormed
    rw [hop.capacity_eq,hop.entries_eq] at hrest
    exact {hrest with indexNames_eq := hrest.indexNames_eq.trans hop.indexNames_eq}

lemma newestIndex_entries (p : HPACKHeader → Bool) :
    newestIndex p t.entries = ((range t.ring.size).find? fun age => p (t.ring.entry age)).elim 0 (·+1) := by
  have hrange (q : ℕ → Bool) (n : ℕ) : (range n).findIdx? q = (range n).find? q := by
    induction n with
    | zero => rfl
    | succ n ih => simp [range_succ,findIdx?_append,ih]
  rw [newestIndex,entries,Ring.toList,findIdx?_map,hrange]
  rfl

lemma getIndexImpl_eq (h : t.WellFormed) (hindex : t.indexNames) (name value : Bytes) (nameOnly : Bool) :
    t.getIndexImpl name value nameOnly =
      let exact := newestIndex (fun header => header.name = name && (nameOnly || header.value == value)) t.entries
      .ok (exact,if exact=0 then newestIndex (fun header => header.name = name) t.entries else 0) := by
  have hfilter (q : ℕ → Bool) : (range t.ring.size).find? (fun age => (t.ring.entry age).name = name && q age) =
      ((range t.ring.size).filter fun age => (t.ring.entry age).name = name).find? q := by
    simp [find?_filter]
  have hexternal : ∀ age ∈ (range t.ring.size).filter fun age => (t.ring.entry age).name = name,
      t.toExternal (t.ring.slotAt age) = age+1 := by
    intro age hage
    have hlt := mem_range.mp (mem_filter.mp hage).1
    have hle := h.ring.size_le
    rw [toExternal,Ring.slotAt_slotAt (h.ring.head_lt (by omega)) (by omega)]
  simp only [getIndexImpl,hindex,if_true,h.names_eq hindex,slotsNamed,reverse_reverse,newestIndex_entries,hfilter]
  rw [← head?_filter (p := fun age => (t.ring.entry age).name = name)]
  revert hexternal
  generalize (range t.ring.size).filter (fun age => (t.ring.entry age).name = name) = ages
  intro hexternal
  cases ages with
  | nil => rfl
  | cons newest older =>
    have hfind : ((newest::older).map t.ring.slotAt).find? (fun i => nameOnly || (t.ring.slots i).value == value) =
      ((newest::older).find? fun age => nameOnly || (t.ring.entry age).value == value).map t.ring.slotAt := find?_map
    rw [map_cons] at hfind ⊢
    simp only [hfind]
    cases hexact : (newest::older).find? fun age => nameOnly || (t.ring.entry age).value == value with
    | none => simp [hexternal newest mem_cons_self]
    | some age => simp [hexternal age (mem_of_find?_eq_some hexact)]

lemma getHeader_eq_ok_iff {index : ℕ} {header : HPACKHeader} :
    t.getHeader index = .ok header ↔ 0 < index ∧ t.entries[index-1]? = some header := by
  by_cases hvalid : t.isValid index
  · obtain ⟨header',hentry,hget⟩ := getHeader_eq hvalid
    rw [hget,hentry,Except.ok.injEq,Option.some.injEq]
    exact (and_iff_right (isValid_iff.mp hvalid).1).symm
  · rw [getHeader,if_neg hvalid]
    refine iff_of_false nofun fun hentry => hvalid (isValid_iff.mpr ⟨hentry.1,?_⟩)
    have := (List.getElem?_eq_some_iff.mp hentry.2).1
    omega

end Runs

end HeaderTable

end QuicWestwood
