import QuicWestwood.Run
import QuicWestwood.StreamTypes

/-! A set of streams per priority level, a map from each stream to its level, and per level a map from each
stream to its order id, by which the stream is found in the set again. The queue should be a map from streams to
priorities; the order ids that are never taken out of the side map break this. -/
namespace QuicWestwood
open Function Option

abbrev OrderId := ℕ

/-- Compared by the order id, then by the stream id. -/
abbrev OrderedStream := OrderId ×ₗ StreamId

def OrderedStream.of (streamId : StreamId) (orderId : OrderId) : OrderedStream := toLex (orderId,streamId)

def OrderedStream.streamId (stream : OrderedStream) : StreamId := (ofLex stream).2

def OrderedStream.orderId (stream : OrderedStream) : OrderId := (ofLex stream).1

@[simp] lemma OrderedStream.streamId_of (id : StreamId) (order : OrderId) : (of id order).streamId = id := rfl

variable {id : StreamId}

lemma OrderedStream.eq_of_iff {k : OrderedStream} {order : OrderId} :
    k = of id order ↔ k.streamId=id ∧ k.orderId=order := by
  constructor
  · rintro rfl
    exact ⟨rfl,rfl⟩
  · rintro ⟨rfl,rfl⟩
    rfl

structure Priority where
  level : Fin 8
  incremental : Bool
  orderId : OrderId := 0
  deriving DecidableEq

abbrev LevelIndex := Fin 16

def priority2index (pri : Priority) : LevelIndex :=
  ⟨pri.level*2+pri.incremental.toNat,by have := pri.level.isLt; have := pri.incremental.toNat_le; omega⟩

def firstOf (streams : Finset OrderedStream) : Option OrderedStream :=
  if h : streams.Nonempty then some (streams.min' h) else none

def nextOf (streams : Finset OrderedStream) (it : OrderedStream) : Option OrderedStream :=
  firstOf (streams.filter (it < ·))

/-- A level with its iterator. `nextStreamIt` is `none` at the end of the set. -/
structure Level where
  streams : Finset OrderedStream := ∅
  incremental : Bool := false
  streamToOrderId : AList fun _ : StreamId => OrderId := ∅
  nextStreamIt : Option OrderedStream := none
  nextsSoFar : ℕ := 0
  maxNextsPerStream : ℕ := 1

namespace Level

def empty (level : Level) : Bool := decide (level.streams = ∅)

def getOrderedStream (level : Level) (id : StreamId) : OrderedStream :=
  match level.streamToOrderId.lookup id with
  | none => .of id 0
  | some orderId => .of id orderId

def insert (level : Level) (streamId : StreamId) (orderId : OrderId) : Level :=
  {level with
    streamToOrderId := if 0<orderId then level.streamToOrderId.insert streamId orderId else level.streamToOrderId
    streams := Insert.insert (OrderedStream.of streamId orderId) level.streams}

/-- `eraseFromLevel`. The entry of `streamToOrderId` stays, and a stream that is not found stays too. -/
def eraseStream (level : Level) (id : StreamId) : Level :=
  let stream := level.getOrderedStream id
  if stream ∉ level.streams then level
  else if level.nextStreamIt = some stream then
    {level with
      streams := level.streams.erase stream
      nextStreamIt := nextOf level.streams stream
      nextsSoFar := 0}
  else {level with streams := level.streams.erase stream}

def begin (level : Level) : Level :=
  if level.incremental && level.nextStreamIt.isSome then level
  else {level with nextStreamIt := firstOf level.streams}

/-- The iterator stands at an element: `next` is called after `begin` on a level that is not empty. -/
def next (level : Level) (force : Bool) : Level :=
  let following := level.nextStreamIt.bind (nextOf level.streams)
  if level.incremental then
    if !force && decide (level.nextsSoFar+1 < level.maxNextsPerStream) then
      {level with nextsSoFar := level.nextsSoFar+1}
    else {level with nextStreamIt := following.or (firstOf level.streams), nextsSoFar := 0}
  else {level with nextStreamIt := following}

end Level

structure PriorityQueue where
  levels : LevelIndex → Level
  writableStreamsToLevel : AList fun _ : StreamId => LevelIndex

namespace PriorityQueue

def init (maxNextsPerStream : ℕ) : PriorityQueue where
  levels index := {incremental := index.val % 2 = 1, maxNextsPerStream}
  writableStreamsToLevel := ∅

def eraseFromLevel (q : PriorityQueue) (levelIndex : LevelIndex) (id : StreamId) : PriorityQueue :=
  {q with levels := update q.levels levelIndex ((q.levels levelIndex).eraseStream id)}

def place (q : PriorityQueue) (id : StreamId) (pri : Priority) : PriorityQueue :=
  let index := priority2index pri
  {levels := update q.levels index ((q.levels index).insert id pri.orderId)
   writableStreamsToLevel := q.writableStreamsToLevel.insert id index}

def updateExistingStreamPriority (q : PriorityQueue) (id : StreamId) (level : LevelIndex) (pri : Priority) :
    PriorityQueue :=
  if level = priority2index pri then q else (q.eraseFromLevel level id).place id pri

def updateIfExist (q : PriorityQueue) (id : StreamId) (pri : Priority) : PriorityQueue :=
  match q.writableStreamsToLevel.lookup id with
  | some level => q.updateExistingStreamPriority id level pri
  | none => q

def insertOrUpdate (q : PriorityQueue) (id : StreamId) (pri : Priority) : PriorityQueue :=
  match q.writableStreamsToLevel.lookup id with
  | some level => q.updateExistingStreamPriority id level pri
  | none => q.place id pri

def erase (q : PriorityQueue) (id : StreamId) : PriorityQueue :=
  match q.writableStreamsToLevel.lookup id with
  | some level =>
    {q.eraseFromLevel level id with writableStreamsToLevel := q.writableStreamsToLevel.erase id}
  | none => q

def empty (q : PriorityQueue) : Bool := q.writableStreamsToLevel.entries.isEmpty

def getNextScheduledStream (q : PriorityQueue) : Except Failure (StreamId × PriorityQueue) :=
  match (List.finRange 16).find? fun index => !(q.levels index).empty with
  | none => .error .checkFailed
  | some index =>
    let level := (q.levels index).begin
    match level.nextStreamIt with
    | none => .error .checkFailed
    | some it => .ok (it.streamId,{q with levels := update q.levels index level})

def takeFrom (q : PriorityQueue) (index : LevelIndex) (force : Bool) : PriorityQueue :=
  if (q.levels index).empty then q
  else {q with levels := update q.levels index ((q.levels index).begin.next force)}

end PriorityQueue

inductive QueueEvent
  | insertOrUpdate (id : StreamId) (pri : Priority)
  | updateIfExist (id : StreamId) (pri : Priority)
  | erase (id : StreamId)
  | takeFrom (index : LevelIndex) (force : Bool)
  deriving DecidableEq

/-- What the queue is for: each stream in it has a priority. -/
abbrev PriorityMap := StreamId → Option Priority

def PriorityMap.after (m : PriorityMap) : QueueEvent → PriorityMap
  | .insertOrUpdate id pri => update m id (some pri)
  | .updateIfExist id pri => update m id ((m id).map fun _ => pri)
  | .erase id => update m id none
  | .takeFrom _ _ => m

structure WriteQueue where
  queue : PriorityQueue
  priorities : PriorityMap

namespace WriteQueue

def init (maxNextsPerStream : ℕ) : WriteQueue := ⟨.init maxNextsPerStream,fun _ => none⟩

def step (s : WriteQueue) (e : QueueEvent) : WriteQueue where
  queue := match e with
    | .insertOrUpdate id pri => s.queue.insertOrUpdate id pri
    | .updateIfExist id pri => s.queue.updateIfExist id pri
    | .erase id => s.queue.erase id
    | .takeFrom index force => s.queue.takeFrom index force
  priorities := s.priorities.after e

end WriteQueue

/-- The streams on the levels are those of the map, each on its level and at its order id only. -/
def Stored (levels : LevelIndex → Level) (m : PriorityMap) : Prop :=
  ∀ index k,k ∈ (levels index).streams ↔
    ∃ pri,m k.streamId = some pri ∧ priority2index pri = index ∧ pri.orderId=k.orderId

namespace WriteQueue

/-- The stream scheduled next is on the first level that has one; without round robin it is the first
of the level. -/
def SchedulesFirst (q : PriorityQueue) : Prop :=
  q.empty = false → ∃ id index order q',q.getNextScheduledStream = .ok (id,q') ∧
    (∀ i < index,(q.levels i).empty = true) ∧ .of id order ∈ (q.levels index).streams ∧
    (index.val % 2 = 0 → ∀ k ∈ (q.levels index).streams,.of id order ≤ k)

structure Represents (s : WriteQueue) : Prop where
  stored : Stored s.queue.levels s.priorities
  empty_iff : s.queue.empty=true ↔ ∀ index,(s.queue.levels index).empty = true
  scheduled : SchedulesFirst s.queue

def Findable (s : WriteQueue) (id : StreamId) (pri : Priority) : Prop :=
  ((s.queue.levels (priority2index pri)).getOrderedStream id).orderId = pri.orderId

/-- A stream that stays on its level keeps its order id, and one that leaves its level can be found. -/
def Consistent (s : WriteQueue) (e : QueueEvent) : Prop :=
  match e with
  | .insertOrUpdate id pri | .updateIfExist id pri => ∀ old,s.priorities id = some old →
      if priority2index old = priority2index pri then old.orderId = pri.orderId else s.Findable id old
  | .erase id => ∀ old,s.priorities id = some old → s.Findable id old
  | .takeFrom _ _ => True

end WriteQueue

variable {streams : Finset OrderedStream}

lemma firstOf_eq_some {k : OrderedStream} (h : firstOf streams = some k) :
    k ∈ streams ∧ ∀ k' ∈ streams,k ≤ k' := by
  unfold firstOf at h
  split_ifs at h with hne
  obtain rfl := some.inj h
  exact ⟨streams.min'_mem hne,fun k' hk' => streams.min'_le k' hk'⟩

lemma exists_firstOf (h : streams≠∅) : ∃ k,firstOf streams = some k :=
  ⟨_,dif_pos (Finset.nonempty_iff_ne_empty.mpr h)⟩

lemma nextOf_eq_some {it k : OrderedStream} (h : nextOf streams it = some k) : k ∈ streams ∧ it<k := by
  simpa using (firstOf_eq_some h).1

abbrev Level.Valid (level : Level) : Prop := ∀ k ∈ level.nextStreamIt,k ∈ level.streams

def Level.SameStreams (level other : Level) : Prop :=
  level.streams=other.streams ∧ level.streamToOrderId=other.streamToOrderId ∧ level.incremental=other.incremental

structure LevelsKept (levels : LevelIndex → Level) (m : PriorityMap) : Prop where
  stored : Stored levels m
  known : ∀ id pri,m id = some pri → 0<pri.orderId →
    (levels (priority2index pri)).streamToOrderId.lookup id = some pri.orderId
  valid : ∀ index,∀ k ∈ (levels index).nextStreamIt,k ∈ (levels index).streams
  incremental : ∀ index,(levels index).incremental = decide (index.val % 2 = 1)

namespace LevelsKept
variable {levels : LevelIndex → Level} {m : PriorityMap} {id : StreamId} {pri old : Priority}

lemma mem_of_some (h : LevelsKept levels m) (hid : m id = some pri) :
    OrderedStream.of id pri.orderId ∈ (levels (priority2index pri)).streams :=
  (h.stored _ _).mpr ⟨pri,hid,rfl,rfl⟩

lemma forall_valid (h : LevelsKept levels m) {index : LevelIndex} {level : Level} (hvalid : level.Valid) :
    ∀ i,(update levels index level i).Valid :=
  (forall_update_iff levels fun _ => Level.Valid).mpr ⟨hvalid,fun i _ => h.valid i⟩

/-- One level changes in what it has of one stream. -/
lemma updated (h : LevelsKept levels m) (index : LevelIndex) {level : Level} {new : Option Priority}
    (hother : ∀ k,k.streamId≠id → (k ∈ level.streams ↔ k ∈ (levels index).streams))
    (hself : ∀ k,k.streamId = id → (k ∈ level.streams ↔
      ∃ pri,new = some pri ∧ priority2index pri = index ∧ pri.orderId=k.orderId))
    (hrest : ∀ i≠index,∀ k,k.streamId = id → (k ∈ (levels i).streams ↔
      ∃ pri,new = some pri ∧ priority2index pri = i ∧ pri.orderId=k.orderId))
    (horders : ∀ id'≠id,level.streamToOrderId.lookup id' = (levels index).streamToOrderId.lookup id')
    (hnew : ∀ pri,new = some pri → 0<pri.orderId →
      priority2index pri = index ∧ level.streamToOrderId.lookup id = some pri.orderId) (hvalid : level.Valid)
    (hincremental : level.incremental = (levels index).incremental) :
    LevelsKept (update levels index level) (update m id new) where
  stored i k := by
    by_cases hk : k.streamId=id
    · rw [hk,update_self]
      by_cases hi : i=index
      · subst hi
        rw [update_self]
        exact hself k hk
      · rw [update_of_ne hi]
        exact hrest i hi k hk
    · rw [update_of_ne hk,← h.stored i k]
      by_cases hi : i=index
      · subst hi
        rw [update_self]
        exact hother k hk
      · rw [update_of_ne hi]
  known id' pri' hpri' hpos := by
    by_cases hid' : id'=id
    · subst hid'
      rw [update_self] at hpri'
      obtain ⟨rfl,hknown⟩ := hnew pri' hpri' hpos
      rwa [update_self]
    · rw [update_of_ne hid'] at hpri'
      have hold := h.known id' pri' hpri' hpos
      by_cases hindex : priority2index pri' = index
      · rw [hindex] at hold ⊢
        rwa [update_self,horders id' hid']
      · rwa [update_of_ne hindex]
  valid := h.forall_valid hvalid
  incremental := (forall_update_iff levels fun i level => level.incremental = decide (i.val % 2 = 1)).mpr
    ⟨hincremental.trans (h.incremental index),fun i _ => h.incremental i⟩

lemma insert (h : LevelsKept levels m) (hid : m id = none) (pri : Priority) :
    LevelsKept (update levels (priority2index pri)
      ((levels (priority2index pri)).insert id pri.orderId)) (update m id (some pri)) := by
  have habsent : ∀ i k,OrderedStream.streamId k = id → k ∉ (levels i).streams := fun i k hk hmem => by
    obtain ⟨pri',hpri',-⟩ := (h.stored i k).mp hmem
    simp [hk,hid] at hpri'
  refine h.updated _ (fun k hk => ?_) (fun k hk => ?_) (fun i hi k hk => ?_) (fun id' hid' => ?_) ?_ ?_ rfl
  · have hne : k≠.of id pri.orderId := fun heq => hk (OrderedStream.eq_of_iff.mp heq).1
    simp [Level.insert,hne]
  · simp [Level.insert,habsent _ k hk,OrderedStream.eq_of_iff,hk,eq_comm]
  · simp [habsent i k hk,Ne.symm hi]
  · unfold Level.insert
    split_ifs
    · exact AList.lookup_insert_ne hid'
    · rfl
  · intro pri' hpri' hpos
    obtain rfl := some.inj hpri'
    simp [Level.insert,hpos]
  · exact fun k hk => Finset.mem_insert_of_mem (h.valid _ k hk)

lemma eraseStream_eq {level : Level} (hmem : level.getOrderedStream id ∈ level.streams) :
    (level.eraseStream id).streams = level.streams.erase (level.getOrderedStream id) ∧
      (level.eraseStream id).streamToOrderId = level.streamToOrderId ∧
      (level.eraseStream id).incremental = level.incremental ∧ (level.Valid → (level.eraseStream id).Valid) := by
  unfold Level.eraseStream
  simp only [hmem,not_true_eq_false,if_false]
  split_ifs with hit
  · refine ⟨rfl,rfl,rfl,fun _ k hk => ?_⟩
    obtain ⟨hk,hlt⟩ := nextOf_eq_some hk
    exact Finset.mem_erase.mpr ⟨hlt.ne',hk⟩
  · refine ⟨rfl,rfl,rfl,fun hvalid k hk => Finset.mem_erase.mpr ⟨?_,hvalid k hk⟩⟩
    rintro rfl
    exact hit hk

lemma getOrderedStream_eq {level : Level} {order : OrderId} (h : (level.getOrderedStream id).orderId = order) :
    level.getOrderedStream id = .of id order := by
  rw [OrderedStream.eq_of_iff]
  refine ⟨?_,h⟩
  unfold Level.getOrderedStream
  split <;> rfl

lemma erase (h : LevelsKept levels m) (hid : m id = some old)
    (hfind : ((levels (priority2index old)).getOrderedStream id).orderId = old.orderId) :
    LevelsKept (update levels (priority2index old)
      ((levels (priority2index old)).eraseStream id)) (update m id none) := by
  have hstream := getOrderedStream_eq hfind
  have hmem := h.mem_of_some hid
  obtain ⟨hstreams,horders,hincremental,hvalid⟩ := eraseStream_eq (hstream ▸ hmem)
  rw [hstream] at hstreams
  have honly : ∀ i k,OrderedStream.streamId k = id → k ∈ (levels i).streams →
      i = priority2index old ∧ k = .of id old.orderId := fun i k hk hmem => by
    obtain ⟨pri',hpri',hindex,horder⟩ := (h.stored i k).mp hmem
    rw [hk,hid] at hpri'
    obtain rfl := some.inj hpri'
    exact ⟨hindex.symm,OrderedStream.eq_of_iff.mpr ⟨hk,horder.symm⟩⟩
  refine h.updated _ (fun k hk => ?_) (fun k hk => ?_) (fun i hi k hk => ?_) (fun id' _ => by rw [horders])
    nofun (hvalid (h.valid _)) hincremental
  · have hne : k≠.of id old.orderId := fun heq => hk (OrderedStream.eq_of_iff.mp heq).1
    simp [hstreams,hne]
  · rw [hstreams]
    simpa using fun hne hk' => hne (honly _ k hk hk').2
  · simpa using fun hk' => hi (honly i k hk hk').1

lemma eraseStream_of_ne (h : LevelsKept levels m) (hid : m id = some old)
    (hfind : ((levels (priority2index old)).getOrderedStream id).orderId≠old.orderId) :
    (levels (priority2index old)).eraseStream id = levels (priority2index old) := by
  refine if_pos fun hmem => ?_
  rw [getOrderedStream_eq rfl] at hmem
  obtain ⟨pri',hpri',-,horder⟩ := (h.stored _ _).mp hmem
  rw [OrderedStream.streamId_of,hid] at hpri'
  obtain rfl := some.inj hpri'
  exact hfind horder.symm

lemma iterate (h : LevelsKept levels m) (index : LevelIndex) {level : Level}
    (hsame : level.SameStreams (levels index)) (hvalid : level.Valid) :
    LevelsKept (update levels index level) m := by
  have heach := (forall_update_iff levels fun i l => l.SameStreams (levels i)).mpr
    ⟨hsame,fun _ _ => ⟨rfl,rfl,rfl⟩⟩
  constructor
  case stored => exact fun i k => (heach i).1 ▸ h.stored i k
  case known => exact fun id pri hpri hpos => (heach _).2.1 ▸ h.known id pri hpri hpos
  case incremental => exact fun i => (heach i).2.2.trans (h.incremental i)
  case valid => exact h.forall_valid hvalid

end LevelsKept

namespace Level

lemma begin_streams (level : Level) : level.begin.SameStreams level := by
  unfold begin
  split <;> exact ⟨rfl,rfl,rfl⟩

lemma begin_spec {level : Level} (hne : level.streams≠∅) (hvalid : level.Valid) :
    ∃ k,level.begin.nextStreamIt = some k ∧ k ∈ level.streams ∧
      (level.incremental=false → ∀ k' ∈ level.streams,k ≤ k') := by
  obtain ⟨k,hfirst⟩ := exists_firstOf hne
  obtain ⟨hmem,hle⟩ := firstOf_eq_some hfirst
  unfold begin
  split
  · rename_i hstay
    obtain ⟨hround,hsome⟩ := (Bool.and_eq_true _ _).mp hstay
    obtain ⟨it,hit⟩ := isSome_iff_exists.mp hsome
    exact ⟨it,hit,hvalid it hit,fun hseq => by rw [hround] at hseq; cases hseq⟩
  · exact ⟨k,hfirst,hmem,fun _ => hle⟩

lemma next_spec {level : Level} (hvalid : level.Valid) (force : Bool) :
    (level.next force).SameStreams level ∧ (level.next force).Valid := by
  have hfollowing : ∀ k ∈ level.nextStreamIt.bind (nextOf level.streams),k ∈ level.streams := by
    intro k hk
    obtain ⟨it,-,hnext⟩ := bind_eq_some_iff.mp hk
    exact (nextOf_eq_some hnext).1
  unfold next
  split_ifs
  · exact ⟨⟨rfl,rfl,rfl⟩,hvalid⟩
  · refine ⟨⟨rfl,rfl,rfl⟩,fun k hk => ?_⟩
    rcases or_eq_some_iff.mp hk with hk | ⟨-,hk⟩
    · exact hfollowing k hk
    · exact (firstOf_eq_some hk).1
  · exact ⟨⟨rfl,rfl,rfl⟩,hfollowing⟩

end Level

namespace WriteQueue
variable {s : WriteQueue}

structure Kept (s : WriteQueue) : Prop where
  levels : LevelsKept s.queue.levels s.priorities
  toLevel : ∀ id,s.queue.writableStreamsToLevel.lookup id = (s.priorities id).map priority2index

lemma init_kept (maxNextsPerStream : ℕ) : (init maxNextsPerStream).Kept := by
  refine ⟨⟨fun index k => ?_,fun id pri hpri => ?_,fun index k hk => ?_,fun index => rfl⟩,fun id => rfl⟩
  · simp [init,PriorityQueue.init]
  · simp [init] at hpri
  · simp [init,PriorityQueue.init] at hk

lemma queue_empty_iff (q : PriorityQueue) : q.empty=true ↔ ∀ id,q.writableStreamsToLevel.lookup id = none := by
  unfold PriorityQueue.empty
  rw [List.isEmpty_iff]
  constructor
  · intro h id
    rw [AList.lookup_eq_none,AList.mem_keys,AList.keys,h]
    exact List.not_mem_nil
  · intro h
    by_contra hne
    obtain ⟨x,hx⟩ := List.exists_mem_of_ne_nil _ hne
    exact AList.lookup_eq_none.mp (h x.1) (List.mem_keys_of_mem hx)

lemma Kept.empty_iff (h : s.Kept) :
    s.queue.empty = true ↔ ∀ index,(s.queue.levels index).empty = true := by
  simp only [queue_empty_iff,h.toLevel,map_eq_none_iff,Level.empty,decide_eq_true_eq,
    Finset.eq_empty_iff_forall_notMem]
  constructor
  · intro hnone index k hk
    obtain ⟨pri,hpri,-⟩ := (h.levels.stored index k).mp hk
    rw [hnone] at hpri
    cases hpri
  · intro hempty id
    by_contra hsome
    obtain ⟨pri,hpri⟩ := ne_none_iff_exists'.mp hsome
    exact hempty _ _ (h.levels.mem_of_some hpri)

lemma first_level {levels : LevelIndex → Level} {index : LevelIndex}
    (h : (List.finRange 16).find? (fun i => !(levels i).empty) = some index) :
    (levels index).streams≠∅ ∧ ∀ i < index,(levels i).empty = true := by
  obtain ⟨hne,n,hn,hindex,hbefore⟩ := List.find?_eq_some_iff_getElem.mp h
  refine ⟨by simpa [Level.empty] using hne,fun i hi => ?_⟩
  rw [List.getElem_finRange] at hindex
  have hlt : i.val<n := by
    rw [← hindex] at hi
    exact hi
  simpa using hbefore i.val hlt

lemma Kept.schedulesFirst (h : s.Kept) : SchedulesFirst s.queue := by
  intro hempty
  have hexists : ∃ index,(s.queue.levels index).empty = false := by
    by_contra hall
    simp only [not_exists,Bool.not_eq_false] at hall
    rw [h.empty_iff.mpr hall] at hempty
    cases hempty
  obtain ⟨witness,hwitness⟩ := hexists
  cases hfind : (List.finRange 16).find? fun i => !(s.queue.levels i).empty with
  | none =>
    have := List.find?_eq_none.mp hfind witness (List.mem_finRange _)
    simp [hwitness] at this
  | some index =>
    obtain ⟨hne,hbefore⟩ := first_level hfind
    obtain ⟨k,hk,hmem,hleast⟩ := Level.begin_spec hne (h.levels.valid index)
    refine ⟨k.streamId,index,k.orderId,{s.queue with
      levels := update s.queue.levels index (s.queue.levels index).begin},?_,hbefore,hmem,fun heven => ?_⟩
    · simp only [PriorityQueue.getNextScheduledStream,hfind,hk]
    · refine hleast ?_
      rw [h.levels.incremental,decide_eq_false_iff_not]
      omega

lemma Kept.represents (h : s.Kept) : s.Represents := ⟨h.levels.stored,h.empty_iff,h.schedulesFirst⟩

lemma lookup_place {q : PriorityQueue} {m : PriorityMap}
    (h : ∀ id'≠id,q.writableStreamsToLevel.lookup id' = (m id').map priority2index) (pri : Priority)
    (id' : StreamId) : (q.place id pri).writableStreamsToLevel.lookup id' =
      (update m id (some pri) id').map priority2index := by
  unfold PriorityQueue.place
  by_cases hid : id'=id
  · subst hid
    simp
  · rw [update_of_ne hid,AList.lookup_insert_ne hid]
    exact h id' hid

/-- What one step has to satisfy: afterwards the queue is the map exactly if the step is consistent. -/
def Judged (s : WriteQueue) (e : QueueEvent) : Prop :=
  ((s.step e).Represents ↔ s.Consistent e) ∧ (s.Consistent e → (s.step e).Kept)

lemma judged_of_kept {e : QueueEvent} (hkept : (s.step e).Kept) (hconsistent : s.Consistent e) : s.Judged e :=
  ⟨iff_of_true hkept.represents hconsistent,fun _ => hkept⟩

lemma judged_of_lost {e : QueueEvent} (hstored : ¬Stored (s.step e).queue.levels (s.priorities.after e))
    (hconsistent : ¬s.Consistent e) : s.Judged e :=
  ⟨iff_of_false (fun h => hstored h.stored) hconsistent,fun h => absurd h hconsistent⟩

lemma eq_of_index_eq {pri old : Priority} (hindex : priority2index old = priority2index pri)
    (horder : old.orderId=pri.orderId) : old=pri := by
  obtain ⟨level,incremental,order⟩ := pri
  obtain ⟨level',incremental',order'⟩ := old
  obtain rfl : order'=order := horder
  have hval : level'.val*2+incremental'.toNat = level.val*2+incremental.toNat := congrArg Fin.val hindex
  have hle := incremental.toNat_le
  have hle' := incremental'.toNat_le
  obtain rfl : level'=level := Fin.ext (by omega)
  obtain rfl : incremental'=incremental := by
    cases incremental <;> cases incremental' <;> simp at hval ⊢
  rfl

lemma Kept.stays (h : s.Kept) {old : Priority} (hid : s.priorities id = some old) (hfind : ¬s.Findable id old) :
    .of id old.orderId ∈
      ((s.queue.eraseFromLevel (priority2index old) id).levels (priority2index old)).streams := by
  unfold PriorityQueue.eraseFromLevel
  dsimp only
  rw [update_self,h.levels.eraseStream_of_ne hid hfind]
  exact h.levels.mem_of_some hid

lemma Kept.judged_update (h : s.Kept) {old : Priority} (hid : s.priorities id = some old) (pri : Priority)
    {e : QueueEvent} (hstep : s.step e = ⟨s.queue.updateExistingStreamPriority id (priority2index old) pri,
      update s.priorities id (some pri)⟩)
    (hconsistent : s.Consistent e ↔ if priority2index old = priority2index pri then old.orderId = pri.orderId
      else s.Findable id old) : s.Judged e := by
  have hmem := h.levels.mem_of_some hid
  unfold PriorityQueue.updateExistingStreamPriority at hstep
  by_cases hindex : priority2index old = priority2index pri
  · rw [if_pos hindex] at hstep hconsistent
    by_cases horder : old.orderId=pri.orderId
    · refine judged_of_kept ?_ (hconsistent.mpr horder)
      obtain rfl := eq_of_index_eq hindex horder
      rw [hstep,← hid,update_eq_self]
      exact h
    · refine judged_of_lost (fun hstored => horder ?_) fun hc => horder (hconsistent.mp hc)
      rw [show s.priorities.after e = _ from congrArg WriteQueue.priorities hstep,hstep] at hstored
      obtain ⟨pri',hpri',-,horder'⟩ := (hstored _ _).mp hmem
      simp only [OrderedStream.streamId_of,update_self,some.injEq] at hpri'
      rw [hpri']
      exact horder'.symm
  · rw [if_neg hindex] at hstep hconsistent
    by_cases hfind : s.Findable id old
    · refine judged_of_kept ?_ (hconsistent.mpr hfind)
      rw [hstep]
      refine ⟨?_,lookup_place (fun id' _ => h.toLevel id') pri⟩
      have hplaced := (h.levels.erase hid hfind).insert (update_self _ _ _) pri
      rwa [update_idem] at hplaced
    · refine judged_of_lost (fun hstored => hindex ?_) fun hc => hfind (hconsistent.mp hc)
      rw [show s.priorities.after e = _ from congrArg WriteQueue.priorities hstep,hstep] at hstored
      have hstays := h.stays hid hfind
      rw [← update_of_ne hindex _ (PriorityQueue.levels _)] at hstays
      obtain ⟨pri',hpri',hindex',-⟩ := (hstored _ _).mp hstays
      simp only [OrderedStream.streamId_of,update_self,some.injEq] at hpri'
      rw [hpri',hindex']

lemma Kept.judged_erase (h : s.Kept) (id : StreamId) : s.Judged (.erase id) := by
  have hlookup := h.toLevel id
  cases hid : s.priorities id with
  | none =>
    have hstep : s.step (.erase id) = s := by
      simp only [step,PriorityMap.after,PriorityQueue.erase,hlookup,hid,map_none]
      rw [← hid,update_eq_self]
    refine judged_of_kept (by rwa [hstep]) fun old hold => ?_
    rw [hid] at hold
    cases hold
  | some old =>
    rw [hid,map_some] at hlookup
    have hqueue : (s.step (.erase id)).queue = {s.queue.eraseFromLevel (priority2index old) id with
        writableStreamsToLevel := s.queue.writableStreamsToLevel.erase id} := by
      simp only [step,PriorityQueue.erase,hlookup]
    have hconsistent : s.Consistent (.erase id) ↔ s.Findable id old := by
      simp [Consistent,hid]
    by_cases hfind : s.Findable id old
    · refine judged_of_kept ⟨?_,fun id' => ?_⟩ (hconsistent.mpr hfind)
      · rw [hqueue]
        exact h.levels.erase hid hfind
      · rw [hqueue]
        show (s.queue.writableStreamsToLevel.erase id).lookup id' = (update s.priorities id none id').map _
        by_cases hid' : id'=id
        · subst hid'
          simp
        · rw [update_of_ne hid',AList.lookup_erase_ne hid']
          exact h.toLevel id'
    · refine judged_of_lost (fun hstored => ?_) fun hc => hfind (hconsistent.mp hc)
      rw [hqueue] at hstored
      obtain ⟨pri',hpri',-⟩ := (hstored _ _).mp (h.stays hid hfind)
      simp [PriorityMap.after] at hpri'

lemma Kept.takeFrom (h : s.Kept) (index : LevelIndex) (force : Bool) : (s.step (.takeFrom index force)).Kept := by
  show Kept ⟨s.queue.takeFrom index force,s.priorities⟩
  unfold PriorityQueue.takeFrom
  split
  · exact h
  · rename_i hne
    obtain ⟨hstreams,horders,hincremental⟩ := (s.queue.levels index).begin_streams
    obtain ⟨k,hk,hmem,-⟩ := Level.begin_spec (by simpa [Level.empty] using hne) (h.levels.valid index)
    have hvalid : (s.queue.levels index).begin.Valid := by
      intro k' hk'
      obtain rfl := some.inj (hk.symm.trans hk')
      rwa [hstreams]
    obtain ⟨⟨hstreams',horders',hincremental'⟩,hvalid'⟩ := Level.next_spec hvalid force
    exact ⟨h.levels.iterate index ⟨hstreams'.trans hstreams,horders'.trans horders,
      hincremental'.trans hincremental⟩ hvalid',h.toLevel⟩

lemma Kept.judged (h : s.Kept) (e : QueueEvent) : s.Judged e := by
  cases e with
  | insertOrUpdate id pri =>
    have hlookup := h.toLevel id
    cases hid : s.priorities id with
    | none =>
      rw [hid,map_none] at hlookup
      refine judged_of_kept ⟨?_,?_⟩ fun old hold => by rw [hid] at hold; cases hold
      · show LevelsKept (s.queue.insertOrUpdate id pri).levels _
        simp only [PriorityQueue.insertOrUpdate,hlookup]
        exact h.levels.insert hid pri
      · show ∀ id',(s.queue.insertOrUpdate id pri).writableStreamsToLevel.lookup id' = _
        simp only [PriorityQueue.insertOrUpdate,hlookup]
        exact lookup_place (fun id' _ => h.toLevel id') pri
    | some old =>
      rw [hid,map_some] at hlookup
      refine h.judged_update hid pri ?_ (by simp [Consistent,hid])
      simp [step,PriorityQueue.insertOrUpdate,hlookup,PriorityMap.after]
  | updateIfExist id pri =>
    have hlookup := h.toLevel id
    cases hid : s.priorities id with
    | none =>
      have hstep : s.step (.updateIfExist id pri) = s := by
        simp only [step,PriorityMap.after,PriorityQueue.updateIfExist,hlookup,hid,map_none]
        rw [← hid,update_eq_self]
      exact judged_of_kept (by rwa [hstep]) fun old hold => by rw [hid] at hold; cases hold
    | some old =>
      rw [hid,map_some] at hlookup
      refine h.judged_update hid pri ?_ (by simp [Consistent,hid])
      simp [step,PriorityQueue.updateIfExist,hlookup,PriorityMap.after,hid]
  | erase id => exact h.judged_erase id
  | takeFrom index force => exact judged_of_kept (h.takeFrom index force) trivial

/-- The queue is the map of priorities after every step of exactly the runs in which no stream gets another
order id on its level and every stream that leaves a level is known there by its order id. -/
theorem write_queue_refines_iff (maxNextsPerStream : ℕ) (es : List QueueEvent) :
    (init maxNextsPerStream).Represents ∧
      (Run.EveryStep step (fun s e => (s.step e).Represents) (init maxNextsPerStream) es ↔
        Run.EveryStep step Consistent (init maxNextsPerStream) es) :=
  ⟨(init_kept _).represents,Run.everyStep_congr_while (init_kept _) fun _ ht e _ => ht.judged e⟩

/-- A stream that comes back to its level with order id 0 cannot be erased any more: the queue is empty
and the level is not. -/
theorem write_queue_keeps_erased_stream :
    let erased := Run.run step (init 1)
      [.insertOrUpdate 4 ⟨3,false,5⟩,.erase 4,.insertOrUpdate 4 ⟨3,false,0⟩,.erase 4]
    erased.priorities 4 = none ∧ erased.queue.empty=true ∧ .of 4 0 ∈ (erased.queue.levels 6).streams ∧
      ¬erased.Represents := by
  refine ⟨rfl,rfl,by decide,fun h => ?_⟩
  have hlevel := h.empty_iff.mp rfl 6
  exact absurd hlevel (by decide)

end WriteQueue

end QuicWestwood
