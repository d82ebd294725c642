import QuicWestwood.ByteCodec
import QuicWestwood.LinkedCells
import QuicWestwood.Run

/-! `ChainedByteRangeHead` embeds the first node of a chain; the other nodes stand on the heap. The objects of a
program share one heap. In every run each object denotes the byte string its calls make up as long as no bytes
are appended to a chain behind an empty head, no chain with a filled head is appended, and no filled chain is
assigned to. -/
namespace QuicWestwood.ByteChain
open ByteCodec LinkedCells Run List Function

abbrev ChainedByteRange := Cell Bytes

abbrev Heap := LinkedCells.Heap Bytes

/-- A pointer to a node of the chain is `none` for the address of `head_`. -/
structure ChainedByteRangeHead where
  head : ChainedByteRange := {val := []}
  chainLength : ℕ := 0
  tail : Option ℕ := none

/-- What a call leaves: objects and the heap, or nothing after a wild pointer or a failed CHECK. -/
abbrev One := Option (ChainedByteRangeHead × Heap)

abbrev Two := Option (ChainedByteRangeHead × ChainedByteRangeHead × Heap)

/-- The place the search of `splitAtMost` stops at. -/
structure Cut where
  previousToCurrent : Option ℕ
  current : Option ℕ
  len : ℕ

namespace ChainedByteRangeHead
variable (o : ChainedByteRangeHead) (heap : Heap)

def load : Option ℕ → Option ChainedByteRange
  | none => some o.head
  | some a => heap.cells a

def setNext (next : Option ℕ) : Option ℕ → One
  | none => some ({o with head.next := next},heap)
  | some a => (heap.cells a).map fun cell => (o,heap.set a (some {cell with next}))

/-- A new node and `tail_->next_ = newElement`. -/
def link (cell : ChainedByteRange) : One :=
  o.setNext (heap.new cell) (some heap.fresh) o.tail

def appendRange (range : Bytes) : One :=
  (o.link heap {val := range}).map fun r =>
    ({r.1 with tail := some heap.fresh,chainLength := o.chainLength+range.length},r.2)

def appendRanges (o : ChainedByteRangeHead) (heap : Heap) : List Bytes → One
  | [] => some (o,heap)
  | range::ranges => (o.appendRange heap range).bind fun r => r.1.appendRanges r.2 ranges

/-- The constructor; `cur` is kept in `tail_`. -/
def ofBuf (buf : List Bytes) : One :=
  if buf.flatten=[] then some ({},heap)
  else match buf.dropWhile (·.isEmpty) with
    | [] => none
    | range::ranges => appendRanges {head := {val := range},chainLength := range.length} heap ranges

def append (buf : List Bytes) : One :=
  if buf.flatten=[] then some (o,heap)
  else match buf.dropWhile (·.isEmpty) with
    | [] => none
    | range::ranges =>
      if o.head.val=[] then
        appendRanges {o with head.val := range,chainLength := o.chainLength+range.length} heap
          (ranges.filter fun r => !r.isEmpty)
      else o.appendRanges heap ((range::ranges).filter fun r => !r.isEmpty)

/-- `append(ChainedByteRangeHead&&)`; `chainHead.head_.range_` is left as it is. -/
def appendChain (chainHead : ChainedByteRangeHead) : Two :=
  (o.link heap chainHead.head).map fun r =>
    ({r.1 with tail := if chainHead.head.next.isSome then chainHead.tail else some heap.fresh,
               chainLength := o.chainLength+chainHead.chainLength},
      {chainHead with head.next := none,chainLength := 0,tail := none},r.2)

def moveChain (o other : ChainedByteRangeHead) : ChainedByteRangeHead × ChainedByteRangeHead :=
  ({other with tail := if other.head.next.isSome then other.tail else none},
    {o with tail := if o.head.next.isSome then o.tail else none})

def findCut : ℕ → Cut → Option Cut
  | 0, _ => none
  | fuel+1, c =>
    if c.len=0 then some c
    else (o.load heap c.current).bind fun cell =>
      if c.len < cell.val.length then some c
      else (if c.current=c.previousToCurrent then some c.previousToCurrent
          else (o.load heap c.previousToCurrent).bind fun p => p.next.map some).bind fun previous =>
        cell.next.bind fun next => findCut fuel ⟨previous,some next,c.len-cell.val.length⟩

/-- A split between two nodes. -/
def splitBetween (len : ℕ) (previous : Option ℕ) (current : ℕ) (cell : ChainedByteRange) : Two :=
  let this := {o with head := cell,tail := if o.tail = some current then none else o.tail}
  if previous=none then some ({head := {val := o.head.val},chainLength := len},this,heap.set current none)
  else (setNext {head := o.head,chainLength := len,tail := previous} heap none previous).map fun r =>
    (r.1,this,r.2.set current none)

/-- A split inside a node, `rest` bytes after its start. -/
def splitInside (len current : ℕ) (cell : ChainedByteRange) (rest : ℕ) :
    ChainedByteRangeHead × ChainedByteRangeHead × Heap :=
  let next := if o.tail = some current then none else cell.next
  ({head := o.head,chainLength := len,tail := some current},
    {o with head := {val := cell.val.drop rest,next},tail := if o.tail = some current then none else o.tail},
    heap.set current (some {val := cell.val.take rest}))

def splitAtMost (len : ℕ) : Two :=
  if o.chainLength≤len then some ((moveChain {} o).1,(moveChain {} o).2,heap)
  else if len=0 then some ({},o,heap)
  else
    let this := {o with chainLength := o.chainLength-len}
    if len<o.head.val.length then
      some ({head := {val := o.head.val.take len},chainLength := len},
        {this with head.val := o.head.val.drop len},heap)
    else (o.findCut heap (heap.fresh+2) ⟨none,none,len⟩).bind fun c => c.current.bind fun current =>
      (heap.cells current).bind fun cell =>
        if c.len=0 then this.splitBetween heap len c.previousToCurrent current cell
        else some (this.splitInside heap len current cell c.len)

def deleteFrom (heap : Heap) : ℕ → Option ℕ → Option Heap
  | _, none => some heap
  | 0, some _ => none
  | fuel+1, some a => (heap.cells a).bind fun cell => deleteFrom (heap.set a none) fuel cell.next

/-- `resetChain`, which leaves the object as it is constructed by default. -/
def resetChain : Option Heap := deleteFrom heap heap.fresh o.head.next

/-- The bytes split off are destroyed. -/
def trimStartAtMost (len : ℕ) : Option (ℕ × ChainedByteRangeHead × Heap) :=
  (o.splitAtMost heap (min len o.chainLength)).bind fun r =>
    (r.1.resetChain r.2.2).map fun heap => (min len o.chainLength,r.2.1,heap)

end ChainedByteRangeHead

open ChainedByteRangeHead

/-- A call on an object that names a second one, which some calls leave alone. An object that is constructed anew is
destroyed first. -/
inductive Call
  | construct (buf : List Bytes)
  | append (buf : List Bytes)
  | appendChain
  | splitAtMost (len : ℕ)
  | trimStartAtMost (len : ℕ)
  | moveConstruct
  | moveAssign

def Call.perform (o other : ChainedByteRangeHead) (heap : Heap) : Call → Two
  | .construct buf => (o.resetChain heap).bind fun heap => (ofBuf heap buf).map fun r => (r.1,other,r.2)
  | .append buf => (o.append heap buf).map fun r => (r.1,other,r.2)
  | .appendChain => o.appendChain heap other
  | .splitAtMost len =>
    (other.resetChain heap).bind fun heap => (o.splitAtMost heap len).map fun r => (r.2.1,r.1,r.2.2)
  | .trimStartAtMost len => (o.trimStartAtMost heap len).map fun r => (r.2.1,other,r.2.2)
  | .moveConstruct => (o.resetChain heap).map fun heap => ((moveChain {} other).1,(moveChain {} other).2,heap)
  | .moveAssign => some ((moveChain o other).1,(moveChain o other).2,heap)

/-- The byte strings the two objects are to denote after the call. -/
def Call.texts (x y : Bytes) : Call → Bytes × Bytes
  | .construct buf => (buf.flatten,y)
  | .append buf => (x++buf.flatten,y)
  | .appendChain => (x++y,[])
  | .splitAtMost len => (x.drop len,x.take len)
  | .trimStartAtMost len => (x.drop len,y)
  | .moveConstruct => (y,[])
  | .moveAssign => (y,[])

/-- The objects of a program with the byte strings they are to denote. -/
structure Chains where
  objects : ℕ → ChainedByteRangeHead := fun _ => {}
  heap : Heap := {}
  texts : ℕ → Bytes := fun _ => []

structure Event where
  this : ℕ
  other : ℕ
  call : Call

def Event.perform (s : Chains) (e : Event) : Two :=
  e.call.perform (s.objects e.this) (s.objects e.other) s.heap

def step (s : Chains) (e : Event) : Chains :=
  match e.perform s with
  | none => s
  | some r =>
    {objects := Function.update (Function.update s.objects e.this r.1) e.other r.2.1
     heap := r.2.2
     texts :=
       let texts := e.call.texts (s.texts e.this) (s.texts e.other)
       Function.update (Function.update s.texts e.this texts.1) e.other texts.2}

def content (nodes : List (ℕ × Bytes)) : Bytes := nodes.flatMap Prod.snd

/-- The object denotes `text`: its nodes from `head_` along `next_` hold it, the last of them is `tail_`, and its
length is `chainLength_`. -/
structure Denotes (heap : Heap) (o : ChainedByteRangeHead) (nodes : List (ℕ × Bytes)) (text : Bytes) : Prop where
  path : Segment heap.cells o.head.next nodes none
  tail : o.tail = last nodes
  bytes : o.head.val++content nodes = text
  length : o.chainLength=text.length

/-- The call follows no wild pointer and fails no CHECK, and afterwards every object denotes its byte string. -/
def Kept (s : Chains) (e : Event) : Prop :=
  (e.perform s).isSome ∧ ∀ k,∃ nodes,Denotes (step s e).heap ((step s e).objects k) nodes ((step s e).texts k)

/-- The first range of a buffer that is not empty. -/
def front (buf : List Bytes) : Bytes := ((buf.dropWhile (·.isEmpty)).head?).getD []

def rest (buf : List Bytes) : List Bytes := (buf.dropWhile (·.isEmpty)).tail

/-- Bytes appended behind an empty head commute with those there, an appended chain has an empty head, and an object
assigned to denotes the empty string. -/
def Call.Clean (o other : ChainedByteRangeHead) (text : Bytes) : Call → Prop
  | .append buf => o.head.val = [] → front buf++text = text++front buf
  | .appendChain => other.head.val = []
  | .moveAssign => text = []
  | _ => True

def Clean (s : Chains) (e : Event) : Prop :=
  e.call.Clean (s.objects e.this) (s.objects e.other) (s.texts e.this)

/-- The object denotes `text` by nodes of the heap that stand at different addresses. -/
structure Holds (heap : Heap) (o : ChainedByteRangeHead) (nodes : List (ℕ × Bytes)) (text : Bytes) : Prop
    extends Denotes heap o nodes text where
  nodup : (addrs nodes).Nodup
  below : ∀ a ∈ addrs nodes,a<heap.fresh

/-- Two objects that share no node. -/
structure Pair (heap : Heap) (o other : ChainedByteRangeHead) (l m : List (ℕ × Bytes)) (x y : Bytes) : Prop where
  this : Holds heap o l x
  other : Holds heap other m y
  apart : ∀ a ∈ addrs l,a ∉ addrs m

/-- The nodes `used` become those of an object that denotes `x`. -/
def Yields (heap : Heap) (used : List ℕ) (result : One) (x : Bytes) : Prop :=
  ∃ r l,result = some r ∧ Holds r.2 r.1 l x ∧ Became heap r.2 used (addrs l)

def YieldsTwo (heap : Heap) (used : List ℕ) (result : Two) (x y : Bytes) : Prop :=
  ∃ r l m,result = some r ∧ Pair r.2.2 r.1 r.2.1 l m x y ∧ Became heap r.2.2 used (addrs l++addrs m)

variable {heap heap' : Heap} {o o' other : ChainedByteRangeHead} {used used' : List ℕ} {l m n : List (ℕ × Bytes)}
  {x x' y : Bytes} {a len : ℕ} {q : Option ℕ}

@[simp] lemma content_nil : content [] = [] := rfl

@[simp] lemma content_cons (e : ℕ × Bytes) : content (e::l) = e.2++content l := rfl

@[simp] lemma content_append : content (l++m) = content l++content m := flatMap_append

lemma Holds.frame (h : Holds heap o l x) (hb : Became heap heap' used used') (hapart : ∀ a ∈ addrs l,a ∉ used) :
    Holds heap' o l x :=
  {h with
    path := h.path.congr fun a ha => hb.same a (h.below a ha) (hapart a ha)
    below := fun a ha => (h.below a ha).trans_le hb.fresh}

lemma holds_range (range : Bytes) : Holds heap ⟨⟨range,none⟩,range.length,none⟩ [] range :=
  ⟨⟨rfl,rfl,by simp,rfl⟩,by simp,by simp⟩

lemma holds_default : Holds heap {} [] [] := holds_range []

lemma Denotes.chained_iff (h : Denotes heap o l x) : o.head.next.isSome ↔ l≠[] := by
  have hpath := h.path
  cases l <;> simp_all [Segment]

lemma Denotes.moveChain (h : Denotes heap o l x) (h' : Denotes heap other m y) :
    moveChain o other = (other,o) := by
  have htail := h.tail
  have htail' := h'.tail
  simp only [ChainedByteRangeHead.moveChain,h.chained_iff,h'.chained_iff]
  cases l <;> cases m <;> cases o <;> cases other <;> simp_all [last]

lemma setNext_last (hpath : Segment heap.cells o.head.next l q) (hnodup : (addrs l).Nodup) (next : Option ℕ) :
    ∃ r,o.setNext heap next (last l) = some r ∧ r.1 = {o with head.next := r.1.head.next} ∧
      Segment r.2.cells r.1.head.next l next ∧ r.2.fresh=heap.fresh ∧
      ∀ a ∉ addrs l,r.2.cells a = heap.cells a := by
  obtain rfl | ⟨l,⟨a,x⟩,rfl⟩ := eq_nil_or_concat' l
  · exact ⟨_,rfl,rfl,rfl,rfl,fun _ _ => rfl⟩
  · have hcell := (segment_concat.mp hpath).2
    have hcut := hpath.relink (notMem_of_nodup hnodup) x next
    refine ⟨(o,heap.set a (some ⟨x,next⟩)),by simp [setNext,hcell],rfl,hcut,rfl,fun b hb => ?_⟩
    exact update_of_ne (by simp_all) ..

/-- A new node behind the tail that copies the head of a chain takes its nodes over. -/
lemma link_spec (h : Pair heap o other l m x y) :
    ∃ r n,o.link heap other.head = some r ∧ Holds r.2 {r.1 with
        tail := if other.head.next.isSome then other.tail else some heap.fresh
        chainLength := o.chainLength+other.chainLength} n (x++y) ∧
      Became heap r.2 (addrs l++addrs m) (addrs n) := by
  obtain ⟨h,h',hapart⟩ := h
  have hold a (ha : a<heap.fresh) : (heap.new other.head).cells a = heap.cells a :=
    update_of_ne ha.ne ..
  have hl : Segment (heap.new other.head).cells o.head.next l none :=
    h.path.congr fun a ha => hold a (h.below a ha)
  obtain ⟨r,hr,ho,hpath,hfresh,hsame⟩ := setNext_last hl h.nodup (some heap.fresh)
  have hnew : heap.fresh ∉ addrs l := fun hf => (h.below _ hf).false
  have hnew' : heap.fresh ∉ addrs m := fun hf => (h'.below _ hf).false
  have hcell : r.2.cells heap.fresh = some other.head := by rw [hsame _ hnew]; exact update_self ..
  have hrest : Segment r.2.cells other.head.next m none :=
    h'.path.congr fun a ha => by rw [hsame a fun hla => hapart a hla ha,hold a (h'.below a ha)]
  have hval : r.1.head.val=o.head.val := by rw [ho]
  have hmem a : a ∈ addrs (l++(heap.fresh,other.head.val)::m) ↔ a ∈ addrs l ∨ a=heap.fresh ∨ a ∈ addrs m := by
    simp
  refine ⟨r,l++(heap.fresh,other.head.val)::m,by rw [link,h.tail,hr],
    ⟨⟨segment_append.mpr ⟨_,hpath,rfl,_,hcell,hrest⟩,?_,?_,?_⟩,?_,fun a ha => ?_⟩,?_,fun a ha hused => ?_,fun a ha => ?_⟩
  · simp [h'.chained_iff,h'.tail,last_append_cons]
  · simp [hval,← h.bytes,← h'.bytes]
  · simp [h.length,h'.length]
  · have := h.nodup
    have := h'.nodup
    simp only [addrs_append,addrs_cons,nodup_append,nodup_cons]
    grind
  · have hbelow : a < heap.fresh+1 := by grind [h.below,h'.below]
    exact hfresh ▸ hbelow
  · rw [hfresh]
    exact Nat.le_succ _
  · rw [hsame a fun hl => hused (mem_append_left _ hl),hold a ha]
  · grind

lemma appendRange_spec (h : Holds heap o l x) (range : Bytes) :
    Yields heap (addrs l) (o.appendRange heap range) (x++range) := by
  obtain ⟨r,n,hr,hn,hb⟩ := link_spec ⟨h,holds_range range,by simp⟩
  rw [addrs_nil,append_nil] at hb
  rw [appendRange,hr]
  exact ⟨_,n,rfl,hn,hb⟩

lemma appendRanges_spec (h : Holds heap o l x) (ranges : List Bytes) :
    Yields heap (addrs l) (o.appendRanges heap ranges) (x++ranges.flatten) := by
  induction ranges generalizing heap o l x with
  | nil => exact ⟨(o,heap),l,rfl,by simpa using h,.refl (.refl _)⟩
  | cons range ranges ih =>
    obtain ⟨r,m,hr,hm,hb⟩ := appendRange_spec h range
    obtain ⟨r',m',hr',hm',hb'⟩ := ih hm
    exact ⟨r',m',by rw [appendRanges,hr]; exact hr',by simpa using hm',hb.trans hb'⟩

lemma flatten_eq (buf : List Bytes) : buf.flatten = front buf++(rest buf).flatten := by
  induction buf with
  | nil => rfl
  | cons range buf ih => cases range <;> simp_all [front,rest]

lemma flatten_filter (ranges : List Bytes) : (ranges.filter fun r => !r.isEmpty).flatten = ranges.flatten := by
  induction ranges with
  | nil => rfl
  | cons range ranges ih => cases range <;> simp_all

lemma dropWhile_eq {buf : List Bytes} (hbuf : buf.flatten≠[]) : buf.dropWhile (·.isEmpty) = front buf::rest buf := by
  have hflatten := flatten_eq buf
  unfold front rest at *
  cases hdrop : buf.dropWhile (·.isEmpty) <;> simp_all

lemma ofBuf_spec (buf : List Bytes) : Yields heap [] (ofBuf heap buf) buf.flatten := by
  unfold ofBuf
  split_ifs with hempty
  · rw [hempty]
    exact ⟨_,[],rfl,holds_default,.refl (.refl _)⟩
  · rw [dropWhile_eq hempty,flatten_eq]
    exact appendRanges_spec (holds_range _) _

/-- Behind an empty head the first range of the buffer comes to stand in front. -/
lemma append_spec (h : Holds heap o l x) (buf : List Bytes) : Yields heap (addrs l) (o.append heap buf)
    ((if o.head.val=[] then front buf++x else x++front buf)++(rest buf).flatten) := by
  by_cases hempty : buf.flatten=[]
  · obtain ⟨hfront,hrest⟩ := append_eq_nil_iff.mp ((flatten_eq buf).symm.trans hempty)
    rw [append,if_pos hempty,hfront,hrest,append_nil,append_nil,nil_append,ite_self]
    exact ⟨_,l,rfl,h,.refl (.refl _)⟩
  · rw [append,if_neg hempty,dropWhile_eq hempty]
    dsimp only
    split_ifs with hhead
    · rw [← flatten_filter (rest buf)]
      apply appendRanges_spec
      exact ⟨⟨h.path,h.tail,by simp [← h.bytes,hhead],by simp [h.length,add_comm]⟩,h.nodup,h.below⟩
    · have happend := appendRanges_spec h ((front buf::rest buf).filter fun r => !r.isEmpty)
      rwa [flatten_filter,flatten_cons,← append_assoc] at happend

lemma load_last (hpath : Segment heap.cells o.head.next l q) :
    ∃ cell,o.load heap (last l) = some cell ∧ cell.next=q := by
  obtain rfl | ⟨l,⟨a,x⟩,rfl⟩ := eq_nil_or_concat' l
  · exact ⟨_,rfl,hpath⟩
  · exact ⟨_,by simpa [load] using (segment_concat.mp hpath).2,rfl⟩

lemma findCut_spec {fuel : ℕ} (hpath : Segment heap.cells o.head.next (l++(a,y)::m) none)
    (hnodup : (addrs (l++(a,y)::m)).Nodup) (hlen : len < (y++content m).length) (hfuel : m.length<fuel) :
    ∃ l' b z m' k,l++(a,y)::m = l'++(b,z)::m' ∧
      o.findCut heap fuel ⟨last l,some a,len⟩ = some ⟨last l',some b,k⟩ ∧
      (content l).length+len = (content l').length+k ∧ (k=0 ∨ k<z.length) := by
  induction fuel generalizing l a y m len with
  | zero => omega
  | succ fuel ih =>
    obtain ⟨q,hl,rfl,next,hcell,hm⟩ := segment_append.mp hpath
    by_cases hstop : len=0 ∨ len<y.length
    · refine ⟨l,a,y,m,len,rfl,?_,rfl,hstop⟩
      rcases hstop with h | h <;> simp [findCut,load,hcell,h]
    obtain ⟨hzero,hlong⟩ := not_or.mp hstop
    cases m with
    | nil =>
      rw [content_nil,append_nil] at hlen
      omega
    | cons e m =>
      obtain ⟨rfl,-⟩ := hm
      obtain ⟨p,hp,hnext⟩ := load_last hl
      have hne : some a≠last l := fun h => notMem_of_nodup hnodup (mem_of_getLast? h.symm)
      have hload : o.load heap (some a) = some ⟨y,some e.1⟩ := hcell
      have hgo : o.findCut heap (fuel+1) ⟨last l,some a,len⟩ =
          o.findCut heap fuel ⟨last (l++[(a,y)]),some e.1,len-y.length⟩ := by
        rw [findCut,if_neg hzero]
        simp [hload,hlong,hne,hp,hnext]
      have hlen' : len-y.length < (e.2++content m).length := by
        simp only [content_cons,length_append] at hlen ⊢
        omega
      obtain ⟨l',b,z,m',k,heq,hcut,hsum,hk⟩ := ih (l := l++[(a,y)]) (by simpa using hpath)
        (by simpa using hnodup) hlen' (by simpa using hfuel)
      refine ⟨l',b,z,m',k,by simpa using heq,hgo.trans hcut,?_,hk⟩
      simp only [content_append,content_cons,content_nil,length_append,length_nil] at hsum
      omega

lemma Holds.tail_iff (h : Holds heap o (l++(a,y)::m) x) : o.tail = some a ↔ m=[] := by
  have hnodup := h.nodup
  rw [addrs_append,nodup_append,addrs_cons,nodup_cons] at hnodup
  rw [h.tail,last_append_cons]
  split_ifs with hm
  · simp [hm]
  · exact iff_of_false (fun hlast => hnodup.2.1.1 (mem_of_getLast? hlast)) hm

lemma Holds.length_le (h : Holds heap o l x) : l.length≤heap.fresh := by
  have hsubset : addrs l ⊆ range heap.fresh := fun a ha => mem_range.mpr (h.below a ha)
  simpa [addrs] using (subperm_of_subset h.nodup hsubset).length_le

/-- What a split after the bytes `w` of a node leaves, if the nodes before it and perhaps its own become `n`. -/
lemma Holds.split {w z : Bytes} {next next' : Option ℕ} (h : Holds heap o (l++(a,w++z)::m) x)
    (hcell : heap.cells a = some ⟨w++z,next'⟩) (hlen : (o.head.val++content l++w).length = len)
    (hpath : Segment heap'.cells next n none) (hn : (addrs n).Sublist (addrs (l++[(a,w)])))
    (hbytes : content n = content l++w) (hfresh : heap'.fresh=heap.fresh)
    (hsame : ∀ b ∉ addrs (l++[(a,w)]),heap'.cells b = heap.cells b) :
    Pair heap' ⟨⟨o.head.val,next⟩,len,last n⟩
        ⟨⟨z,next'⟩,o.chainLength-len,if o.tail = some a then none else o.tail⟩ n m (x.take len) (x.drop len) ∧
      Became heap heap' (addrs (l++(a,w++z)::m)) (addrs n++addrs m) := by
  have hall : addrs (l++(a,w++z)::m) = addrs (l++[(a,w)])++addrs m := by simp
  obtain ⟨hl,hm,hlm⟩ := nodup_append.mp (hall ▸ h.nodup)
  have hx : x = (o.head.val++content l++w)++(z++content m) := by simp [← h.bytes]
  have hleft b (hb : b ∈ addrs m) : b ∉ addrs (l++[(a,w)]) := fun hbl => hlm b hbl b hb rfl
  obtain ⟨q,-,-,end',hnext,hend⟩ := segment_append.mp h.path
  obtain rfl : next'=end' := congrArg Cell.next (Option.some.inj (hcell.symm.trans hnext))
  have htail : (if o.tail = some a then none else o.tail) = last m := by
    simp only [h.tail_iff]
    split_ifs with hm
    · rw [hm]
      rfl
    · rw [h.tail,last_append_cons,if_neg hm]
  have hbelow b (hb : b ∈ addrs (l++(a,w++z)::m)) : b<heap'.fresh := hfresh ▸ h.below b hb
  rw [hall] at hbelow ⊢
  refine ⟨⟨⟨⟨hpath,rfl,?_,?_⟩,hn.nodup hl,fun b hb => hbelow b (mem_append_left _ (hn.subset hb))⟩,
    ⟨⟨hend.congr fun b hb => hsame b (hleft b hb),htail,?_,?_⟩,hm,fun b hb => hbelow b (mem_append_right _ hb)⟩,
    fun b hb hbm => hleft b hbm (hn.subset hb)⟩,hfresh.ge,fun b _ hb => hsame b ?_,fun b hb => .inl ?_⟩
  · rw [hx,take_left' hlen,hbytes,append_assoc]
  · rw [hx,take_left' hlen,hlen]
  · rw [hx,drop_left' hlen]
  · rw [h.length,length_drop]
  · exact fun hbl => hb (mem_append_left _ hbl)
  · exact append_subset.mpr ⟨fun b hb => mem_append_left _ (hn.subset hb),subset_append_right ..⟩ hb

lemma splitBetween_spec {next : Option ℕ} (h : Holds heap o (l++(a,y)::m) x)
    (hcell : heap.cells a = some ⟨y,next⟩) (hlen : (o.head.val++content l).length = len) :
    YieldsTwo heap (addrs (l++(a,y)::m))
      (splitBetween {o with chainLength := o.chainLength-len} heap len (last l) a ⟨y,next⟩)
      (x.take len) (x.drop len) := by
  obtain ⟨q,hpath,rfl,-⟩ := segment_append.mp h.path
  have hnot := notMem_of_nodup h.nodup
  have hnodup : (addrs l).Nodup := (addrs_append ▸ h.nodup).of_append_left
  obtain ⟨r,hr,ho,hcut,hfresh,hsame⟩ := setNext_last (o := ⟨o.head,len,last l⟩) hpath hnodup none
  have hsplit : splitBetween {o with chainLength := o.chainLength-len} heap len (last l) a ⟨y,next⟩ =
      some (r.1,⟨⟨y,next⟩,o.chainLength-len,if o.tail = some a then none else o.tail⟩,r.2.set a none) := by
    by_cases hnone : last l = none
    · rw [hnone] at hr
      obtain rfl := Option.some.inj hr
      rw [splitBetween,if_pos hnone]
    · rw [splitBetween,if_neg hnone,hr]
      rfl
  rw [hsplit,ho]
  refine ⟨_,l,m,rfl,h.split (w := []) hcell (by simpa using hlen) ?_ (by simp) (by simp) hfresh fun b hb => ?_⟩
  · exact hcut.congr fun b hb => update_of_ne (ne_of_mem_of_not_mem hb hnot) ..
  · simp only [addrs_append,addrs_cons,mem_append,mem_cons,not_or] at hb
    rw [← hsame b hb.1]
    exact update_of_ne hb.2.1 ..

lemma splitInside_spec {next : Option ℕ} {k : ℕ} (h : Holds heap o (l++(a,y)::m) x)
    (hcell : heap.cells a = some ⟨y,next⟩) (hlen : (o.head.val++content l++y.take k).length = len) :
    YieldsTwo heap (addrs (l++(a,y)::m))
      (some (splitInside {o with chainLength := o.chainLength-len} heap len a ⟨y,next⟩ k))
      (x.take len) (x.drop len) := by
  obtain ⟨q,hpath,rfl,next',hnext,hend⟩ := segment_append.mp h.path
  obtain rfl : next=next' := congrArg Cell.next (Option.some.inj (hcell.symm.trans hnext))
  have hlink : (if o.tail = some a then none else next) = next := by
    simp only [h.tail_iff]
    split_ifs with hm
    · subst hm
      exact hend.symm
    · rfl
  have hcut : Segment (heap.set a (some ⟨y.take k,none⟩)).cells o.head.next (l++[(a,y.take k)]) none :=
    (segment_concat.mpr ⟨hpath,hcell⟩).relink (notMem_of_nodup h.nodup) ..
  rw [← take_append_drop k y] at h hcell
  have hsplit := h.split hcell hlen hcut (.refl _) (by simp) rfl
    fun b hb => update_of_ne (by rintro rfl; simp at hb) ..
  rw [last_concat,take_append_drop] at hsplit
  simp only [splitInside,hlink]
  exact ⟨_,_,m,rfl,hsplit⟩

lemma splitAtMost_spec (h : Holds heap o l x) (len : ℕ) :
    YieldsTwo heap (addrs l) (o.splitAtMost heap len) (x.take len) (x.drop len) := by
  have hbytes := h.bytes
  have hlength := h.length
  unfold splitAtMost
  dsimp only
  split_ifs with hall hzero hhead
  · rw [hlength] at hall
    rw [holds_default.moveChain h.toDenotes,drop_eq_nil_of_le hall,take_of_length_le hall]
    exact ⟨_,l,[],rfl,⟨h,holds_default,by simp⟩,.refl (by simp)⟩
  · subst hzero
    exact ⟨_,[],l,rfl,⟨holds_default,h,by simp⟩,.refl (by simp)⟩
  · have htake : x.take len = o.head.val.take len := by rw [← hbytes,take_append_of_le_length hhead.le]
    have hdrop : x.drop len = o.head.val.drop len++content l := by
      rw [← hbytes,drop_append_of_le_length hhead.le]
    have hrange : Holds heap _ _ _ := holds_range (o.head.val.take len)
    rw [length_take_of_le hhead.le] at hrange
    refine ⟨_,[],l,rfl,⟨htake ▸ hrange,⟨⟨h.path,h.tail,hdrop.symm,?_⟩,h.nodup,h.below⟩,by simp⟩,.refl (by simp)⟩
    rw [hlength,length_drop]
  · have hpath := h.path
    cases l with
    | nil =>
      rw [content_nil,append_nil] at hbytes
      rw [hlength,← hbytes] at hall
      omega
    | cons e l =>
      obtain ⟨hnext,-⟩ := hpath
      have hstart : o.findCut heap (heap.fresh+2) ⟨none,none,len⟩ =
          o.findCut heap (heap.fresh+1) ⟨last ([] : List (ℕ × Bytes)),some e.1,len-o.head.val.length⟩ := by
        rw [findCut,if_neg hzero]
        simp [load,hhead,hnext,last]
      have hlen : len-o.head.val.length < (e.2++content l).length := by
        simp only [← hbytes,content_cons,length_append] at hlength ⊢
        omega
      have hfuel : l.length < heap.fresh+1 := (Nat.le_succ _).trans (Nat.succ_le_succ h.length_le)
      obtain ⟨l',b,z,m,k,heq,hcut,hsum,hk⟩ := findCut_spec (l := []) h.path h.nodup hlen hfuel
      change e::l = _ at heq
      rw [heq] at h ⊢
      obtain ⟨q,-,-,next,hcell,-⟩ := segment_append.mp h.path
      rw [content_nil,length_nil] at hsum
      have hcount : (o.head.val++content l').length+k = len := by
        rw [length_append]
        omega
      simp only [hstart,hcut,Option.bind_some,hcell]
      split_ifs with hboundary
      · exact splitBetween_spec h hcell (by rw [← hcount,hboundary]; rfl)
      · refine splitInside_spec h hcell ?_
        rw [length_append,length_take]
        omega

lemma deleteFrom_spec {fuel : ℕ} (hpath : Segment heap.cells q l none) (hnodup : (addrs l).Nodup)
    (hfuel : l.length≤fuel) : ∃ heap',deleteFrom heap fuel q = some heap' ∧ Became heap heap' (addrs l) [] := by
  induction l generalizing heap q fuel with
  | nil =>
    obtain rfl : q=none := hpath
    exact ⟨heap,by simp [deleteFrom],.refl (.refl _)⟩
  | cons e l ih =>
    obtain ⟨rfl,next,hcell,hl⟩ := hpath
    obtain ⟨fuel,rfl⟩ := Nat.exists_eq_succ_of_ne_zero (Nat.ne_zero_of_lt hfuel)
    rw [addrs_cons,nodup_cons] at hnodup
    have hset b (hb : b≠e.1) : (heap.set e.1 none).cells b = heap.cells b := update_of_ne hb ..
    have hrest := hl.congr fun b hb => hset b (ne_of_mem_of_not_mem hb hnodup.1)
    obtain ⟨heap',hheap,hb⟩ := ih hrest hnodup.2 (Nat.le_of_succ_le_succ hfuel)
    refine ⟨heap',by rw [deleteFrom,hcell]; exact hheap,hb.fresh,fun b hlt hnot => ?_,by simp⟩
    rw [addrs_cons,mem_cons,not_or] at hnot
    rw [hb.same b hlt hnot.2,hset b hnot.1]

lemma Pair.symm (h : Pair heap o other l m x y) : Pair heap other o m l y x :=
  ⟨h.other,h.this,fun a ha hl => h.apart a hl ha⟩

/-- A change of the first object leaves the second one alone. -/
lemma Pair.replace (h : Pair heap o other l m x y) (ho : Holds heap' o' n x')
    (hb : Became heap heap' (addrs l) (addrs n)) :
    Pair heap' o' other n m x' y ∧ Became heap heap' (addrs l++addrs m) (addrs n++addrs m) := by
  refine ⟨⟨ho,h.other.frame hb fun a ha hl => h.apart a hl ha,fun a ha hm => ?_⟩,hb.fresh,fun a ha hnot => ?_,?_⟩
  · rcases hb.kept a ha with hl | hfresh
    · exact h.apart a hl hm
    · exact (h.other.below a hm).not_ge hfresh
  · exact hb.same a ha fun hl => hnot (mem_append_left _ hl)
  · intro a ha
    rcases mem_append.mp ha with ha | ha
    · exact (hb.kept a ha).imp_left (mem_append_left _)
    · exact .inl (mem_append_right _ ha)

/-- `resetChain` destroys the first object of two. -/
lemma Pair.reset (h : Pair heap o other l m x y) : ∃ heap',o.resetChain heap = some heap' ∧
    Pair heap' {} other [] m [] y ∧ Became heap heap' (addrs l++addrs m) (addrs m) := by
  obtain ⟨heap',hheap,hb⟩ := deleteFrom_spec h.this.path h.this.nodup h.this.length_le
  exact ⟨heap',hheap,h.replace holds_default hb⟩

lemma trimStartAtMost_spec (h : Holds heap o l x) (len : ℕ) : ∃ r m,o.trimStartAtMost heap len = some r ∧
    Holds r.2.2 r.2.1 m (x.drop len) ∧ Became heap r.2.2 (addrs l) (addrs m) := by
  obtain ⟨r,m,n,hr,hpair,hb⟩ := splitAtMost_spec h (min len o.chainLength)
  obtain ⟨heap',hheap,hpair',hb'⟩ := hpair.reset
  refine ⟨_,n,by rw [trimStartAtMost,hr,Option.bind_some,hheap]; rfl,?_,hb.trans hb'⟩
  have hdrop : x.drop (min len o.chainLength) = x.drop len := by
    rw [h.length]
    rcases le_total len x.length with hlen | hlen <;> simp [hlen]
  exact hdrop ▸ hpair'.other

theorem perform_spec (h : Pair heap o other l m x y) (c : Call) (hclean : c.Clean o other x) :
    YieldsTwo heap (addrs l++addrs m) (c.perform o other heap) (c.texts x y).1 (c.texts x y).2 := by
  cases c with
  | construct buf =>
    obtain ⟨heap',hheap,hpair,hb⟩ := h.reset
    obtain ⟨r,n,hr,hn,hb'⟩ : Yields heap' _ _ _ := ofBuf_spec buf
    obtain ⟨hpair',hb'⟩ := hpair.replace hn hb'
    exact ⟨_,n,m,by rw [Call.perform,hheap,Option.bind_some,hr]; rfl,hpair',hb.trans hb'⟩
  | append buf =>
    obtain ⟨r,n,hr,hn,hb⟩ := append_spec h.this buf
    have htext : (if o.head.val=[] then front buf++x else x++front buf) = x++front buf := by
      split_ifs with hhead
      · exact hclean hhead
      · rfl
    rw [htext,append_assoc,← flatten_eq] at hn
    exact ⟨_,n,m,by rw [Call.perform,hr]; rfl,h.replace hn hb⟩
  | appendChain =>
    obtain ⟨r,n,hr,hn,hb⟩ := link_spec h
    refine ⟨_,n,[],by rw [Call.perform,appendChain,hr]; rfl,⟨hn,?_,by simp⟩,by simpa using hb⟩
    exact ⟨⟨rfl,rfl,(append_nil _).trans hclean,rfl⟩,by simp,by simp⟩
  | splitAtMost len =>
    obtain ⟨heap',hheap,hpair,hb⟩ := h.symm.reset
    obtain ⟨r,n,l',hr,hpair',hb'⟩ := splitAtMost_spec hpair.other len
    refine ⟨_,l',n,by rw [Call.perform,hheap,Option.bind_some,hr]; rfl,hpair'.symm,?_⟩
    exact (Became.refl (by simp)).trans (hb.trans (hb'.trans (.refl (by simp))))
  | trimStartAtMost len =>
    obtain ⟨r,n,hr,hn,hb⟩ := trimStartAtMost_spec h.this len
    exact ⟨_,n,m,by rw [Call.perform,hr]; rfl,h.replace hn hb⟩
  | moveConstruct =>
    obtain ⟨heap',hheap,hpair,hb⟩ := h.reset
    have hmove := hpair.this.moveChain hpair.other.toDenotes
    exact ⟨_,m,[],by rw [Call.perform,hheap,Option.map_some,hmove],hpair.symm,by simpa using hb⟩
  | moveAssign =>
    have hmove := h.this.moveChain h.other.toDenotes
    obtain rfl : x=[] := hclean
    exact ⟨(other,o,heap),m,l,by rw [Call.perform,hmove],h.symm,.refl (by simp)⟩

/-- A call that leaves both objects denoting their byte strings is clean. -/
lemma clean_of_denotes (h : Pair heap o other l m x y) {c : Call}
    {r : ChainedByteRangeHead × ChainedByteRangeHead × Heap} {l' m' : List (ℕ × Bytes)}
    (hr : c.perform o other heap = some r) (hthis : Denotes r.2.2 r.1 l' (c.texts x y).1)
    (hother : Denotes r.2.2 r.2.1 m' (c.texts x y).2) : c.Clean o other x := by
  cases c with
  | append buf =>
    intro hhead
    obtain ⟨r',n,hr',hn,-⟩ := append_spec h.this buf
    rw [Call.perform,hr'] at hr
    obtain rfl := Option.some.inj hr
    obtain rfl := hthis.path.unique hn.path
    have hbytes := hn.bytes.symm.trans hthis.bytes
    rw [if_pos hhead,Call.texts,flatten_eq buf,← append_assoc] at hbytes
    exact append_cancel_right hbytes
  | appendChain =>
    obtain ⟨r',n,hr',-⟩ := link_spec h
    rw [Call.perform,appendChain,hr'] at hr
    obtain rfl := Option.some.inj hr
    exact (append_eq_nil_iff.mp hother.bytes).1
  | moveAssign =>
    rw [Call.perform,h.this.moveChain h.other.toDenotes] at hr
    obtain rfl := Option.some.inj hr
    exact eq_nil_of_length_eq_zero (h.this.length.symm.trans hother.length)
  | _ => trivial

/-- Every object denotes its byte string by nodes of its own. -/
structure Sound (s : Chains) (nodes : ℕ → List (ℕ × Bytes)) : Prop where
  holds : ∀ k,Holds s.heap (s.objects k) (nodes k) (s.texts k)
  apart : ∀ j k a,a ∈ addrs (nodes j) → a ∈ addrs (nodes k) → j=k

variable {s : Chains} {nodes : ℕ → List (ℕ × Bytes)} {e : Event}

lemma Sound.pair (h : Sound s nodes) (hne : e.this≠e.other) : Pair s.heap (s.objects e.this) (s.objects e.other)
    (nodes e.this) (nodes e.other) (s.texts e.this) (s.texts e.other) :=
  ⟨h.holds _,h.holds _,fun a ha ha' => hne (h.apart _ _ a ha ha')⟩

lemma Sound.next (h : Sound s nodes) (hne : e.this≠e.other) (hclean : Clean s e) :
    (e.perform s).isSome ∧ ∃ nodes',Sound (step s e) nodes' := by
  obtain ⟨r,l,m,hr,hpair,hb⟩ := perform_spec (h.pair hne) e.call hclean
  have hperform : e.perform s = some r := hr
  have hfar k (hk : k≠e.this) (hk' : k≠e.other) a (ha : a ∈ addrs (nodes k)) :
      a ∉ addrs (nodes e.this)++addrs (nodes e.other) := by
    rw [mem_append]
    rintro (hmem | hmem)
    exacts [hk (h.apart _ _ a ha hmem),hk' (h.apart _ _ a ha hmem)]
  have hout k (hk : k≠e.this) (hk' : k≠e.other) a (ha : a ∈ addrs (nodes k)) : a ∉ addrs l++addrs m := by
    intro hmem
    rcases hb.kept a hmem with hold | hfresh
    · exact hfar k hk hk' a ha hold
    · exact ((h.holds k).below a ha).not_ge hfresh
  refine ⟨by simp [hperform],update (update nodes e.this l) e.other m,fun k => ?_,?_⟩
  · rw [step,hperform]
    by_cases hk : k=e.other
    · subst hk
      simpa using hpair.other
    by_cases hk' : k=e.this
    · subst hk'
      simpa [hk] using hpair.this
    · simpa [hk,hk'] using (h.holds k).frame hb (hfar k hk' hk)
  · have := hpair.apart
    have := h.apart
    simp only [update_apply,mem_append] at *
    grind

lemma Sound.kept_iff (h : Sound s nodes) (hne : e.this≠e.other) : Kept s e ↔ Clean s e := by
  constructor
  · intro ⟨hsome,hall⟩
    obtain ⟨r,hr⟩ := Option.isSome_iff_exists.mp hsome
    obtain ⟨l,hl⟩ := hall e.this
    obtain ⟨m,hm⟩ := hall e.other
    simp only [step,hr,ne_eq,hne,not_false_eq_true,update_of_ne,update_self] at hl hm
    exact clean_of_denotes (h.pair hne) hr hl hm
  · intro hclean
    obtain ⟨hsome,nodes',hsound⟩ := h.next hne hclean
    exact ⟨hsome,fun k => ⟨_,(hsound.holds k).toDenotes⟩⟩

/-- In a run of calls that name two different objects, every call leaves every object denoting its byte string, with
the length and the tail it stores, exactly if every call is clean. -/
theorem byte_strings_iff (events : List Event) (hdistinct : ∀ e ∈ events,e.this≠e.other) :
    EveryStep step Kept {} events ↔ EveryStep step Clean {} events := by
  apply everyStep_congr_while (P := fun s => ∃ nodes,Sound s nodes)
  · exact ⟨fun _ => [],fun _ => holds_default,by simp⟩
  · intro s ⟨nodes,hs⟩ e he
    exact ⟨hs.kept_iff (hdistinct e he),fun hclean => (hs.next (hdistinct e he) hclean).2⟩

theorem byte_strings_split : EveryStep step Kept {} [⟨0,1,.construct [[1,2],[],[3]]⟩,⟨0,1,.append [[4]]⟩,
    ⟨0,1,.splitAtMost 3⟩,⟨1,0,.trimStartAtMost 1⟩] :=
  (byte_strings_iff _ (by simp)).mpr ⟨trivial,fun h => absurd h (by decide),trivial,trivial,trivial⟩

/-- A chain that was appended keeps the bytes of its head. -/
theorem appended_chain_denotes : ¬EveryStep step Kept {} [⟨1,0,.construct [[1]]⟩,⟨0,1,.appendChain⟩] := by
  rintro ⟨-,⟨-,hall⟩,-⟩
  obtain ⟨nodes,hdenotes⟩ := hall 1
  exact absurd (List.append_eq_nil_iff.mp hdenotes.bytes).1 (by decide)

end QuicWestwood.ByteChain
