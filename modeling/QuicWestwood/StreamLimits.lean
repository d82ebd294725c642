import QuicWestwood.Run
import QuicWestwood.StreamTypes

/-! Streams of the peer are opened in order, with all lower ones, and closed in any order. Closed streams are
given back to the peer in portions, by raising the limit. Stream groups and the streams this endpoint opens are
left out. -/
namespace QuicWestwood
open IntervalSet

def kStreamIncrement : ℕ := 4

def kMaxMaxStreams : ℕ := 2^60

/-- Stream ids of one kind, of which every fourth number is one. -/
structure StreamIdSet where
  base : ℕ
  streams : IntervalSet 1 := .empty

namespace StreamIdSet

def scaled (set : StreamIdSet) (id : ℕ) : ℕ := (id-set.base)/kStreamIncrement

def remove (set : StreamIdSet) (id : ℕ) : Except Failure StreamIdSet := do
  check ((id-set.base) % kStreamIncrement = 0)
  return {set with streams := set.streams.withdraw (.point (set.scaled id))}

def add (set : StreamIdSet) (first last : ℕ) : Except Failure StreamIdSet := do
  check ((first-set.base) % kStreamIncrement = 0)
  check ((last-set.base) % kStreamIncrement = 0)
  if h : set.scaled first ≤ set.scaled last then
    return {set with streams := set.streams.insert ⟨set.scaled first,set.scaled last,h⟩}
  else .error .invalidArgument

def contains (set : StreamIdSet) (id : ℕ) : Bool := set.streams.contains (set.scaled id) (set.scaled id)

def size (set : StreamIdSet) : ℕ := set.streams.size

end StreamIdSet

structure PeerStreams where
  initialStreamLimit : ℕ
  initialRemoteStreamId : ℕ
  openPeerStreams : StreamIdSet
  nextAcceptableStreamId : ℕ
  maxRemoteStreamId : ℕ
  remoteStreamLimitUpdate : Option ℕ := none

namespace PeerStreams

/-- If the stream is not open yet, all lower streams are opened with it. -/
def openPeerStreamIfNotClosed (peer : PeerStreams) (streamId : ℕ) :
    Except Failure (Except LocalErrorCode PeerStreams) :=
  if streamId<peer.nextAcceptableStreamId then .ok (.error .creatingExistingStream)
  else if peer.maxRemoteStreamId ≤ streamId then .ok (.error .streamLimitExceeded)
  else do
    let openPeerStreams ← peer.openPeerStreams.add peer.nextAcceptableStreamId streamId
    return .ok {peer with openPeerStreams, nextAcceptableStreamId := streamId+kStreamIncrement}

def openableRemoteStreams (peer : PeerStreams) : Except Failure ℕ := do
  check (peer.nextAcceptableStreamId≤peer.maxRemoteStreamId)
  return (peer.maxRemoteStreamId-peer.nextAcceptableStreamId)/kStreamIncrement

def setMaxRemoteStreamsInternal (peer : PeerStreams) (maxStreams : ℕ) (force : Bool) :
    Except Failure PeerStreams :=
  if kMaxMaxStreams < maxStreams then
    .error (.quicTransportException
      {message := "Attempt to set maxStreams beyond the max allowed.", code := .streamLimitError})
  else
    let maxStreamId := maxStreams*kStreamIncrement+peer.initialRemoteStreamId
    if force || decide (peer.maxRemoteStreamId < maxStreamId) then
      .ok {peer with maxRemoteStreamId := maxStreamId}
    else .ok peer

/-- The peer is given the closed streams back when they are enough. -/
def creditClosed (peer : PeerStreams) (streamLimitWindowingFraction : ℕ) : Outcome Failure PeerStreams :=
  match peer.openableRemoteStreams with
  | .error e => .fail e peer
  | .ok openableRemoteStreams =>
    let streamWindow := peer.initialStreamLimit/streamLimitWindowingFraction
    let streamCredit := subU64 (subU64 peer.initialStreamLimit openableRemoteStreams) peer.openPeerStreams.size
    if streamWindow ≤ streamCredit then
      let maxStreams := (peer.maxRemoteStreamId-peer.initialRemoteStreamId)/kStreamIncrement
      match peer.setMaxRemoteStreamsInternal (maxStreams+streamCredit) false with
      | .error e => .fail e peer
      | .ok peer => .done {peer with remoteStreamLimitUpdate := some (maxStreams+streamCredit)}
    else .done peer

end PeerStreams

structure StreamManager where
  nodeType : QuicNodeType
  streams : List ℕ := []
  bidirectional : PeerStreams
  unidirectional : PeerStreams
  /-- Never set to 0. -/
  streamLimitWindowingFraction : ℕ := 2

namespace StreamManager

def peerStreams (s : StreamManager) (uni : Bool) : PeerStreams := if uni then s.unidirectional else s.bidirectional

def setPeerStreams (s : StreamManager) (uni : Bool) (peer : PeerStreams) : StreamManager :=
  if uni then {s with unidirectional := peer} else {s with bidirectional := peer}

def streamStateError (message : String) : Failure :=
  .quicTransportException {message, code := .streamStateError}

def exceededStreamLimit : Failure :=
  .quicTransportException {message := "Exceeded stream limit.", code := .streamLimitError}

/-- The manager and the stream returned; `none` for a stream that is closed. -/
def getOrCreatePeerStream (s : StreamManager) (streamId : ℕ) :
    Outcome Failure (StreamManager × Option ℕ) :=
  if isLocalStream s.nodeType streamId then
    .fail (streamStateError (match s.nodeType with
      | .Client => "Attempted getting client peer stream on client"
      | .Server => "Attempted getting server peer stream on server")) (s,none)
  else if streamId ∈ s.streams then .done (s,some streamId)
  else
    let uni := isUnidirectionalStream streamId
    if (s.peerStreams uni).openPeerStreams.contains streamId then
      .done ({s with streams := streamId::s.streams},some streamId)
    else
      match (s.peerStreams uni).openPeerStreamIfNotClosed streamId with
      | .error e => .fail e (s,none)
      | .ok (.error .streamLimitExceeded) => .fail exceededStreamLimit (s,none)
      | .ok (.error _) => .done (s,none)
      | .ok (.ok peer) =>
        .done ({s.setPeerStreams uni peer with streams := streamId::s.streams},some streamId)

def removeClosedStream (s : StreamManager) (streamId : ℕ) : Outcome Failure StreamManager :=
  if streamId ∉ s.streams then .done s
  else
    let s := {s with streams := s.streams.filter (·≠streamId)}
    if isRemoteStream s.nodeType streamId then
      let uni := isUnidirectionalStream streamId
      match (s.peerStreams uni).openPeerStreams.remove streamId with
      | .error e => .fail e s
      | .ok openPeerStreams =>
        .within (s.setPeerStreams uni)
          ({s.peerStreams uni with openPeerStreams}.creditClosed s.streamLimitWindowingFraction)
    else .done s

end StreamManager

structure LimitRun where
  manager : StreamManager
  removed : List ℕ := []

inductive LimitEvent
  | getStream (id : ℕ)
  | removeClosedStream (id : ℕ)
  deriving DecidableEq

def peerBase (nodeType : QuicNodeType) (uni : Bool) : ℕ :=
  match nodeType, uni with
  | .Server, false => 0
  | .Client, false => 1
  | .Server, true => 2
  | .Client, true => 3

def PeerStreams.init (base : ℕ) (initialStreamLimit : ℕ) : PeerStreams where
  initialStreamLimit
  initialRemoteStreamId := base
  openPeerStreams := {base}
  nextAcceptableStreamId := base
  maxRemoteStreamId := initialStreamLimit*kStreamIncrement+base

namespace LimitRun

def init (nodeType : QuicNodeType) (limitBidi limitUni streamLimitWindowingFraction : ℕ) : LimitRun where
  manager :=
    {nodeType
     bidirectional := .init (peerBase nodeType false) limitBidi
     unidirectional := .init (peerBase nodeType true) limitUni
     streamLimitWindowingFraction}

def perform (s : LimitRun) : LimitEvent → Outcome Failure LimitRun
  | .getStream id => .within (fun r => {s with manager := r.1}) (s.manager.getOrCreatePeerStream id)
  | .removeClosedStream id =>
    .within (fun manager => ⟨manager,if id ∈ s.manager.streams then id::s.removed else s.removed⟩)
      (s.manager.removeClosedStream id)

def step (s : LimitRun) (e : LimitEvent) : LimitRun := (s.perform e).state

/-- The streams of a direction that the peer could open next. -/
def openable (s : LimitRun) (uni : Bool) : ℕ :=
  ((s.manager.peerStreams uni).maxRemoteStreamId-(s.manager.peerStreams uni).nextAcceptableStreamId) /
    kStreamIncrement

def allowed (s : LimitRun) (uni : Bool) : ℕ :=
  ((s.manager.peerStreams uni).maxRemoteStreamId-(s.manager.peerStreams uni).initialRemoteStreamId) /
    kStreamIncrement

def removedOf (s : LimitRun) (uni : Bool) : List ℕ := s.removed.filter (isUnidirectionalStream · = uni)

/-- The removed streams that the peer has not been given back. -/
def uncredited (s : LimitRun) (uni : Bool) : ℕ :=
  (s.removedOf uni).length+(s.manager.peerStreams uni).initialStreamLimit-s.allowed uni

def IsPeerStream (s : LimitRun) (uni : Bool) (id : ℕ) : Prop :=
  isRemoteStream s.manager.nodeType id = true ∧ isUnidirectionalStream id = uni

/-- The state of the limits of one direction. -/
structure Balanced (s : LimitRun) (uni : Bool) : Prop where
  /-- Open, openable and uncredited streams add up to the initial limit. -/
  balance : (s.manager.peerStreams uni).openPeerStreams.size+s.openable uni+s.uncredited uni =
    (s.manager.peerStreams uni).initialStreamLimit
  credited_le : s.allowed uni ≤ (s.manager.peerStreams uni).initialStreamLimit+(s.removedOf uni).length
  open_le : (s.manager.peerStreams uni).openPeerStreams.size ≤ (s.manager.peerStreams uni).initialStreamLimit
  /-- The unsigned subtractions of the credit are exact. -/
  credit : subU64 (subU64 (s.manager.peerStreams uni).initialStreamLimit (s.openable uni))
    (s.manager.peerStreams uni).openPeerStreams.size = s.uncredited uni
  refused : ∀ id,s.IsPeerStream uni id → (s.manager.peerStreams uni).maxRemoteStreamId ≤ id →
    s.manager.getOrCreatePeerStream id = .fail StreamManager.exceededStreamLimit (s.manager,none)
  /-- A removed stream stays closed. -/
  closed : ∀ id ∈ s.removedOf uni,(s.manager.peerStreams uni).openPeerStreams.contains id = false ∧
    s.manager.getOrCreatePeerStream id = .done (s.manager,none)
  seen : ∀ id,s.IsPeerStream uni id → id < (s.manager.peerStreams uni).nextAcceptableStreamId →
    (s.manager.peerStreams uni).openPeerStreams.contains id = true ∨ id ∈ s.removedOf uni

structure LimitsKept (s : LimitRun) (e : LimitEvent) : Prop where
  balanced : ∀ uni,(s.step e).Balanced uni
  limit_le : ∀ uni,(s.manager.peerStreams uni).maxRemoteStreamId ≤
    ((s.step e).manager.peerStreams uni).maxRemoteStreamId
  removed_suffix : s.removed <:+ (s.step e).removed
  uncredited_lt : ∀ id ∈ s.manager.streams,e = .removeClosedStream id →
    (s.step e).uncredited (isUnidirectionalStream id) <
      max 1 ((s.manager.peerStreams (isUnidirectionalStream id)).initialStreamLimit /
        s.manager.streamLimitWindowingFraction)

/-- If the removed streams are enough for an update, the new limit is one that can be advertised. -/
def Creditable (s : LimitRun) : LimitEvent → Prop
  | .getStream _ => True
  | .removeClosedStream id => id ∈ s.manager.streams →
    (s.manager.peerStreams (isUnidirectionalStream id)).initialStreamLimit/s.manager.streamLimitWindowingFraction ≤
      s.uncredited (isUnidirectionalStream id)+1 →
    s.allowed (isUnidirectionalStream id)+s.uncredited (isUnidirectionalStream id)+1 ≤ kMaxMaxStreams

end LimitRun

lemma and_eq_mod_and {b : ℕ} (id : ℕ) (h : 3 &&& b = b) : id &&& b = (id % 4) &&& b := by
  rw [show id % 4 = id &&& 3 from (Nat.and_two_pow_sub_one_eq_mod id 2).symm,Nat.and_assoc,h]

variable (nodeType : QuicNodeType)

lemma peerBase_lt (uni : Bool) : peerBase nodeType uni < 4 := by
  cases nodeType <;> cases uni <;> decide

/-- The two lowest bits of an id say who opened the stream and its direction. -/
lemma isPeer_iff (uni : Bool) (id : ℕ) :
    isRemoteStream nodeType id = true ∧ isUnidirectionalStream id = uni ↔ id % 4 = peerBase nodeType uni := by
  have hlt : id % 4 < 4 := Nat.mod_lt _ (by decide)
  unfold isRemoteStream isLocalStream isClientStream isUnidirectionalStream
  rw [and_eq_mod_and id (b := 1) rfl,and_eq_mod_and id (b := 2) rfl]
  interval_cases id % 4 <;> cases nodeType <;> cases uni <;> decide

variable {uni : Bool}

lemma exists_scaled {nodeType : QuicNodeType} {id : ℕ}
    (h : isRemoteStream nodeType id = true ∧ isUnidirectionalStream id = uni) :
    ∃ n,id = peerBase nodeType uni+4*n :=
  ⟨id/4,by have := (isPeer_iff nodeType uni id).mp h; omega⟩

lemma isPeer_scaled (uni : Bool) (n : ℕ) : isRemoteStream nodeType (peerBase nodeType uni+4*n) = true ∧
      isUnidirectionalStream (peerBase nodeType uni+4*n) = uni := by
  have := peerBase_lt nodeType uni
  exact (isPeer_iff nodeType uni _).mpr (by omega)

namespace StreamIdSet

variable (set : StreamIdSet)

lemma scaled_eq (n : ℕ) : set.scaled (set.base+4*n) = n := by
  unfold scaled kStreamIncrement
  omega

lemma contains_iff (n : ℕ) : set.contains (set.base+4*n) = true ↔ n ∈ set.streams := by
  rw [contains,scaled_eq,contains_self]

lemma remove_eq (n : ℕ) :
    set.remove (set.base+4*n) = .ok {set with streams := set.streams.withdraw (.point n)} := by
  have hcheck : (set.base+4*n-set.base) % kStreamIncrement = 0 := by unfold kStreamIncrement; omega
  unfold remove
  rw [hcheck,scaled_eq]
  rfl

lemma add_eq {m n : ℕ} (h : m≤n) :
    set.add (set.base+4*m) (set.base+4*n) = .ok {set with streams := set.streams.insert ⟨m,n,h⟩} := by
  have hcheck : ∀ k,(set.base+4*k-set.base) % kStreamIncrement = 0 := by
    intro k
    unfold kStreamIncrement
    omega
  unfold add
  simp only [hcheck,scaled_eq,h,dif_pos]
  rfl

end StreamIdSet

/-- `k` streams have been opened and `m` are allowed; `removed` are the ids of the removed ones. -/
structure PeerStreams.Counted (p : PeerStreams) (base : ℕ) (removed : List ℕ) (k m : ℕ) : Prop where
  base_eq : p.openPeerStreams.base=base
  initial_eq : p.initialRemoteStreamId=base
  next_eq : p.nextAcceptableStreamId = base+4*k
  max_eq : p.maxRemoteStreamId = base+4*m
  opened_le : k ≤ m
  limit_le : m≤kMaxMaxStreams
  initial_le : p.initialStreamLimit≤kMaxMaxStreams
  credited_le : m ≤ p.initialStreamLimit+removed.length
  open_lt : ∀ n ∈ p.openPeerStreams.streams,n < k
  total : p.openPeerStreams.size+removed.length = k
  closed : ∀ id ∈ removed,∃ n < k,id = base+4*n ∧ n ∉ p.openPeerStreams.streams
  seen : ∀ n < k,n ∈ p.openPeerStreams.streams ∨ base+4*n ∈ removed

namespace PeerStreams.Counted
variable {p : PeerStreams} {base : ℕ} {removed : List ℕ} {k m n : ℕ}

lemma init (base : ℕ) {limit : ℕ} (h : limit≤kMaxMaxStreams) :
    (PeerStreams.init base limit).Counted base [] 0 limit := by
  constructor
  case base_eq => rfl
  case initial_eq => rfl
  case next_eq => rfl
  case max_eq => simp [PeerStreams.init,kStreamIncrement]; omega
  case opened_le => exact Nat.zero_le _
  case limit_le => exact h
  case initial_le => exact h
  case credited_le => exact le_rfl
  case open_lt => exact fun n hn => absurd hn (not_mem_empty n)
  case total => rfl
  case closed => simp
  case seen => simp

lemma opens (h : p.Counted base removed k m) (hk : k≤n) (hm : n < m) :
    ∃ p',p.openPeerStreamIfNotClosed (base+4*n) = .ok (.ok p') ∧ p'.Counted base removed (n+1) m ∧
      n ∈ p'.openPeerStreams.streams ∧ ∀ j ∈ p.openPeerStreams.streams,j ∈ p'.openPeerStreams.streams := by
  have hadd : p.openPeerStreams.add p.nextAcceptableStreamId (base+4*n) =
      .ok {p.openPeerStreams with streams := p.openPeerStreams.streams.insert ⟨k,n,hk⟩} := by
    rw [h.next_eq,← h.base_eq]
    exact p.openPeerStreams.add_eq hk
  refine ⟨{p with
    openPeerStreams := {p.openPeerStreams with streams := p.openPeerStreams.streams.insert ⟨k,n,hk⟩}
    nextAcceptableStreamId := base+4*n+kStreamIncrement},?_,?_,?_,?_⟩
  · unfold openPeerStreamIfNotClosed
    rw [if_neg (by rw [h.next_eq]; omega),if_neg (by rw [h.max_eq]; omega),hadd]
    rfl
  · refine {h with
      next_eq := ?_, opened_le := hm, open_lt := fun j hj => ?_, total := ?_, closed := fun id hid => ?_,
      seen := fun j hj => ?_}
    · show base+4*n+kStreamIncrement = _
      unfold kStreamIncrement
      omega
    · rcases mem_insert.mp hj with hj | hj
      · exact (h.open_lt j hj).trans_le (by omega)
      · exact Nat.lt_succ_of_le hj.2
    · have hsize : (p.openPeerStreams.streams.insert ⟨k,n,hk⟩).size = p.openPeerStreams.streams.size+(n-k+1) :=
        size_insert fun j hj hin => absurd (h.open_lt j hj) (not_lt.mpr hin.1)
      have htotal := h.total
      simp only [StreamIdSet.size] at htotal ⊢
      omega
    · obtain ⟨j,hj,hid,hclosed⟩ := h.closed id hid
      refine ⟨j,by omega,hid,fun hmem => ?_⟩
      rcases mem_insert.mp hmem with hmem | hmem
      · exact hclosed hmem
      · exact absurd hj (not_lt.mpr hmem.1)
    · by_cases hjk : j<k
      · rcases h.seen j hjk with hopen | hremoved
        · exact .inl (mem_insert.mpr (.inl hopen))
        · exact .inr hremoved
      · exact .inl (mem_insert.mpr (.inr ⟨not_lt.mp hjk,Nat.le_of_lt_succ hj⟩))
  · exact mem_insert.mpr (.inr ⟨hk,le_rfl⟩)
  · exact fun j hj => mem_insert.mpr (.inl hj)

lemma credit_eq (h : p.Counted base removed k m) :
    p.openableRemoteStreams = .ok (m-k) ∧
      subU64 (subU64 p.initialStreamLimit (m-k)) p.openPeerStreams.size = removed.length+p.initialStreamLimit-m ∧
      p.openPeerStreams.size+(m-k)+(removed.length+p.initialStreamLimit-m) = p.initialStreamLimit := by
  have htotal := h.total
  have hopened := h.opened_le
  have hcredited := h.credited_le
  have hinitial : p.initialStreamLimit < 2^64 := h.initial_le.trans_lt (by decide)
  refine ⟨?_,?_,by omega⟩
  · have hcheck : p.nextAcceptableStreamId≤p.maxRemoteStreamId := by rw [h.next_eq,h.max_eq]; omega
    have hdiv : (p.maxRemoteStreamId-p.nextAcceptableStreamId)/kStreamIncrement = m-k := by
      rw [h.next_eq,h.max_eq,kStreamIncrement]
      omega
    unfold openableRemoteStreams
    rw [decide_eq_true hcheck,hdiv]
    rfl
  · rw [subU64_of_le (by omega) hinitial,subU64_of_le (by omega) (by omega)]
    omega

lemma allowed_eq (h : p.Counted base removed k m) :
    (p.maxRemoteStreamId-p.initialRemoteStreamId)/kStreamIncrement = m := by
  rw [h.max_eq,h.initial_eq,kStreamIncrement]
  omega

lemma remove (h : p.Counted base removed k m) (hn : n ∈ p.openPeerStreams.streams) :
    Counted {p with openPeerStreams := {p.openPeerStreams with
      streams := p.openPeerStreams.streams.withdraw (.point n)}} base ((base+4*n)::removed) k m := by
  refine {h with
    credited_le := h.credited_le.trans (by simp), open_lt := fun j hj => h.open_lt j (mem_withdraw.mp hj).1
    total := ?_, closed := fun id hid => ?_, seen := fun j hj => ?_}
  · have hsize := size_withdraw_point hn
    have htotal := h.total
    simp only [StreamIdSet.size,List.length_cons] at htotal ⊢
    omega
  · rcases List.mem_cons.mp hid with rfl | hid
    · exact ⟨n,h.open_lt n hn,rfl,fun hmem => (mem_withdraw.mp hmem).2 (Interval.mem_point.mpr rfl)⟩
    · obtain ⟨j,hj,hid,hclosed⟩ := h.closed id hid
      exact ⟨j,hj,hid,fun hmem => hclosed (mem_withdraw.mp hmem).1⟩
  · by_cases hjn : j=n
    · subst hjn
      exact .inr List.mem_cons_self
    · rcases h.seen j hj with hopen | hremoved
      · exact .inl (mem_withdraw.mpr ⟨hopen,fun hmem => hjn (Interval.mem_point.mp hmem)⟩)
      · exact .inr (List.mem_cons_of_mem _ hremoved)

lemma creditClosed (h : p.Counted base removed k m) (hnew : m < p.initialStreamLimit+removed.length)
    (fraction : ℕ) {u : ℕ} (hdef : u = removed.length+p.initialStreamLimit-m) :
    (p.initialStreamLimit/fraction ≤ u → m+u ≤ kMaxMaxStreams →
      (p.creditClosed fraction).state.Counted base removed k (m+u)) ∧
    (¬(p.initialStreamLimit/fraction ≤ u ∧ m+u ≤ kMaxMaxStreams) → (p.creditClosed fraction).state = p) ∧
    (p.creditClosed fraction).state.initialStreamLimit = p.initialStreamLimit ∧
    (p.creditClosed fraction).state.openPeerStreams = p.openPeerStreams := by
  obtain ⟨hopenable,hcredit,-⟩ := h.credit_eq
  rw [← hdef] at hcredit
  have hmax := h.max_eq
  unfold PeerStreams.creditClosed
  rw [hopenable]
  simp only [hcredit,h.allowed_eq]
  by_cases hwindow : p.initialStreamLimit/fraction ≤ u
  · rw [if_pos hwindow]
    unfold setMaxRemoteStreamsInternal
    by_cases hlimit : m+u ≤ kMaxMaxStreams
    · have hraise : p.maxRemoteStreamId < (m+u)*kStreamIncrement+p.initialRemoteStreamId := by
        rw [hmax,h.initial_eq,kStreamIncrement]
        omega
      simp only [if_neg (not_lt.mpr hlimit),decide_eq_true hraise,Bool.or_true,if_true]
      refine ⟨fun _ _ => ?_,fun hnot => absurd ⟨hwindow,hlimit⟩ hnot,rfl,rfl⟩
      refine {h with max_eq := ?_, opened_le := ?_, limit_le := hlimit, credited_le := ?_}
      · show (m+u)*kStreamIncrement+p.initialRemoteStreamId = _
        rw [h.initial_eq,kStreamIncrement]
        omega
      · exact h.opened_le.trans (Nat.le_add_right _ _)
      · show m+u ≤ p.initialStreamLimit+removed.length
        omega
    · simp only [if_pos (not_le.mp hlimit)]
      exact ⟨fun _ hle => absurd hle hlimit,fun _ => rfl,rfl,rfl⟩
  · rw [if_neg hwindow]
    exact ⟨fun hle => absurd hle hwindow,fun _ => rfl,rfl,rfl⟩

end PeerStreams.Counted

namespace LimitRun
variable {s : LimitRun}

abbrev Counts (s : LimitRun) (uni : Bool) (k m : ℕ) : Prop :=
  (s.manager.peerStreams uni).Counted (peerBase s.manager.nodeType uni) (s.removedOf uni) k m

structure Sound (s : LimitRun) : Prop where
  counted : ∀ uni,∃ k m,s.Counts uni k m
  fresh : ∀ id ∈ s.manager.streams,∃ uni n,id = peerBase s.manager.nodeType uni+4*n ∧
    n ∈ (s.manager.peerStreams uni).openPeerStreams.streams

lemma init_sound {limitBidi limitUni : ℕ} (hbidi : limitBidi≤kMaxMaxStreams)
    (huni : limitUni≤kMaxMaxStreams) (fraction : ℕ) : (init nodeType limitBidi limitUni fraction).Sound := by
  refine ⟨fun uni => ?_,nofun⟩
  cases uni with
  | false => exact ⟨0,_,.init _ hbidi⟩
  | true => exact ⟨0,_,.init _ huni⟩

lemma scaled_inj {nodeType : QuicNodeType} {uni uni' : Bool} {n n' : ℕ}
    (h : peerBase nodeType uni+4*n = peerBase nodeType uni'+4*n') : uni=uni' ∧ n=n' := by
  cases nodeType <;> cases uni <;> cases uni' <;> simp only [peerBase] at h <;>
    first | exact ⟨rfl,by omega⟩ | omega

section Lookup
variable {uni : Bool} {k m n : ℕ}

lemma Sound.mem_open (h : s.Sound) (hid : peerBase s.manager.nodeType uni+4*n ∈ s.manager.streams) :
    n ∈ (s.manager.peerStreams uni).openPeerStreams.streams := by
  obtain ⟨uni',n',heq,hopen⟩ := h.fresh _ hid
  obtain ⟨rfl,rfl⟩ := scaled_inj heq
  exact hopen

lemma contains_iff_open (hcounted : s.Counts uni k m) (n : ℕ) :
    (s.manager.peerStreams uni).openPeerStreams.contains (peerBase s.manager.nodeType uni+4*n) = true ↔
      n ∈ (s.manager.peerStreams uni).openPeerStreams.streams := by
  rw [← hcounted.base_eq]
  exact StreamIdSet.contains_iff _ n

lemma Sound.get_unopened (h : s.Sound) (hcounted : s.Counts uni k m)
    (hopen : n ∉ (s.manager.peerStreams uni).openPeerStreams.streams) :
    s.manager.getOrCreatePeerStream (peerBase s.manager.nodeType uni+4*n) =
      match (s.manager.peerStreams uni).openPeerStreamIfNotClosed (peerBase s.manager.nodeType uni+4*n) with
      | .error e => .fail e (s.manager,none)
      | .ok (.error .streamLimitExceeded) => .fail StreamManager.exceededStreamLimit (s.manager,none)
      | .ok (.error _) => .done (s.manager,none)
      | .ok (.ok peer) => .done ({s.manager.setPeerStreams uni peer with
          streams := (peerBase s.manager.nodeType uni+4*n)::s.manager.streams},
            some (peerBase s.manager.nodeType uni+4*n)) := by
  obtain ⟨hremote,huni⟩ := isPeer_scaled s.manager.nodeType uni n
  have hlocal : isLocalStream s.manager.nodeType (peerBase s.manager.nodeType uni+4*n) = false := by
    simpa [isRemoteStream] using hremote
  have hcontains : (s.manager.peerStreams uni).openPeerStreams.contains
      (peerBase s.manager.nodeType uni+4*n) = false := by
    simpa using mt (contains_iff_open hcounted n).mp hopen
  unfold StreamManager.getOrCreatePeerStream
  rw [hlocal,if_neg Bool.false_ne_true,if_neg fun hid => hopen (h.mem_open hid)]
  simp only [huni,hcontains,Bool.false_eq_true,if_false]

lemma Sound.get_closed (h : s.Sound) (hcounted : s.Counts uni k m)
    (hopen : n ∉ (s.manager.peerStreams uni).openPeerStreams.streams) (hn : n<k) :
    s.manager.getOrCreatePeerStream (peerBase s.manager.nodeType uni+4*n) = .done (s.manager,none) := by
  rw [h.get_unopened hcounted hopen,PeerStreams.openPeerStreamIfNotClosed,
    if_pos (by rw [hcounted.next_eq]; omega)]

lemma Sound.get_refused (h : s.Sound) (hcounted : s.Counts uni k m) (hn : m≤n) :
    s.manager.getOrCreatePeerStream (peerBase s.manager.nodeType uni+4*n) =
      .fail StreamManager.exceededStreamLimit (s.manager,none) := by
  have hopened := hcounted.opened_le
  rw [h.get_unopened hcounted fun hopen => absurd (hcounted.open_lt n hopen) (by omega),
    PeerStreams.openPeerStreamIfNotClosed,if_neg (by rw [hcounted.next_eq]; omega),
    if_pos (by rw [hcounted.max_eq]; omega)]

end Lookup

lemma Sound.balanced (h : s.Sound) (uni : Bool) : s.Balanced uni := by
  obtain ⟨k,m,hcounted⟩ := h.counted uni
  obtain ⟨hopenable,hcredit,hbalance⟩ := hcounted.credit_eq
  have hm : s.allowed uni = m := hcounted.allowed_eq
  have hk : s.openable uni = m-k := by
    unfold openable
    rw [hcounted.next_eq,hcounted.max_eq,kStreamIncrement]
    omega
  have hu : s.uncredited uni = (s.removedOf uni).length+(s.manager.peerStreams uni).initialStreamLimit-m := by
    rw [uncredited,hm]
  constructor
  case balance => rw [hk,hu]; exact hbalance
  case credited_le => rw [hm]; exact hcounted.credited_le
  case open_le => omega
  case credit => rw [hk,hu]; exact hcredit
  case refused =>
    intro id hid hlimit
    obtain ⟨n,rfl⟩ := exists_scaled hid
    rw [hcounted.max_eq] at hlimit
    exact h.get_refused hcounted (by omega)
  case closed =>
    intro id hid
    obtain ⟨n,hn,rfl,hopen⟩ := hcounted.closed id hid
    refine ⟨by simpa using mt (contains_iff_open hcounted n).mp hopen,h.get_closed hcounted hopen hn⟩
  case seen =>
    intro id hid hlt
    obtain ⟨n,rfl⟩ := exists_scaled hid
    rw [hcounted.next_eq] at hlt
    rw [contains_iff_open hcounted n]
    exact hcounted.seen n (by omega)

lemma Sound.kept_of_same (h : s.Sound) {e : LimitEvent} (hstep : s.step e = s)
    (hnone : ∀ id ∈ s.manager.streams,e≠.removeClosedStream id) : s.LimitsKept e := by
  refine ⟨fun uni => by rw [hstep]; exact h.balanced uni,fun uni => by rw [hstep],by rw [hstep],?_⟩
  exact fun id hid he => absurd he (hnone id hid)

/-- One direction changes, and every stream of it with a state is open. -/
lemma Sound.update (h : s.Sound) {t : LimitRun} {peer : PeerStreams} {k m : ℕ}
    (hnode : t.manager.nodeType=s.manager.nodeType)
    (hpeers : ∀ uni',t.manager.peerStreams uni' = if uni'=uni then peer else s.manager.peerStreams uni')
    (hmax : (s.manager.peerStreams uni).maxRemoteStreamId≤peer.maxRemoteStreamId)
    (hremoved : ∀ uni',uni'≠uni → t.removedOf uni' = s.removedOf uni')
    (hcounted : peer.Counted (peerBase s.manager.nodeType uni) (t.removedOf uni) k m)
    (hold : ∀ id ∈ t.manager.streams,id ∈ s.manager.streams ∨ ∃ n,id = peerBase s.manager.nodeType uni+4*n)
    (hopen : ∀ n,peerBase s.manager.nodeType uni+4*n ∈ t.manager.streams → n ∈ peer.openPeerStreams.streams) :
    t.Sound ∧ ∀ uni',(s.manager.peerStreams uni').maxRemoteStreamId ≤ (t.manager.peerStreams uni').maxRemoteStreamId := by
  refine ⟨⟨fun uni' => ?_,fun id hid => ?_⟩,fun uni' => ?_⟩
  · unfold Counts
    rw [hnode,hpeers]
    split_ifs with heq
    · subst heq
      exact ⟨k,m,hcounted⟩
    · rw [hremoved uni' heq]
      exact h.counted uni'
  · rw [hnode]
    rcases hold id hid with hs | ⟨n,rfl⟩
    · obtain ⟨uni',n,rfl,hn⟩ := h.fresh id hs
      refine ⟨uni',n,rfl,?_⟩
      rw [hpeers]
      split_ifs with heq
      · subst heq
        exact hopen n hid
      · exact hn
    · exact ⟨uni,n,rfl,by rw [hpeers,if_pos rfl]; exact hopen n hid⟩
  · rw [hpeers]
    split_ifs with heq
    · subst heq
      exact hmax
    · exact le_rfl

lemma Sound.getStream (h : s.Sound) (id : ℕ) :
    (s.step (.getStream id)).Sound ∧ s.LimitsKept (.getStream id) := by
  have hsame (hmanager : (s.manager.getOrCreatePeerStream id).state.1 = s.manager) :
      (s.step (.getStream id)).Sound ∧ s.LimitsKept (.getStream id) := by
    have hstep : s.step (.getStream id) = s := by
      show {s with manager := _} = s
      rw [hmanager]
    exact ⟨by rw [hstep]; exact h,h.kept_of_same hstep nofun⟩
  by_cases hlocal : isLocalStream s.manager.nodeType id = true
  · refine hsame ?_
    unfold StreamManager.getOrCreatePeerStream
    rw [if_pos hlocal]
    rfl
  by_cases hstate : id ∈ s.manager.streams
  · refine hsame ?_
    unfold StreamManager.getOrCreatePeerStream
    rw [if_neg hlocal,if_pos hstate]
    rfl
  obtain ⟨uni,huni⟩ : ∃ uni,isUnidirectionalStream id = uni := ⟨_,rfl⟩
  obtain ⟨k,m,hcounted⟩ := h.counted uni
  obtain ⟨n,hid⟩ := exists_scaled ⟨by simpa [isRemoteStream] using hlocal,huni⟩
  have hchanged (peer : PeerStreams) {k' : ℕ} (hmanager : (s.step (.getStream id)).manager =
        {s.manager.setPeerStreams uni peer with streams := id::s.manager.streams})
      (hpeer : peer.Counted (peerBase s.manager.nodeType uni) (s.removedOf uni) k' m)
      (hnew : n ∈ peer.openPeerStreams.streams)
      (hmono : ∀ j ∈ (s.manager.peerStreams uni).openPeerStreams.streams,j ∈ peer.openPeerStreams.streams) :
      (s.step (.getStream id)).Sound ∧ s.LimitsKept (.getStream id) := by
    have hstreams : (s.step (.getStream id)).manager.streams = id::s.manager.streams := by rw [hmanager]
    obtain ⟨hsound,hle⟩ := h.update (t := s.step (.getStream id)) (by rw [hmanager]; cases uni <;> rfl)
      (fun uni' => by rw [hmanager]; cases uni <;> cases uni' <;> rfl)
      (by rw [hpeer.max_eq,hcounted.max_eq]) (fun _ _ => rfl) hpeer
      (fun id' hin => (List.mem_cons.mp (hstreams ▸ hin)).symm.imp_right fun heq => ⟨n,heq.trans hid⟩)
      fun j hj => by
        rcases List.mem_cons.mp (hstreams ▸ hj) with heq | hj
        · obtain ⟨-,rfl⟩ := scaled_inj (heq.trans hid)
          exact hnew
        · exact hmono j (h.mem_open hj)
    exact ⟨hsound,hsound.balanced,hle,List.suffix_rfl,nofun⟩
  by_cases hopen : n ∈ (s.manager.peerStreams uni).openPeerStreams.streams
  · refine hchanged (s.manager.peerStreams uni) ?_ hcounted hopen fun _ hj => hj
    show (s.manager.getOrCreatePeerStream _).state.1 = _
    unfold StreamManager.getOrCreatePeerStream
    rw [if_neg hlocal,if_neg hstate]
    simp only [huni,hid ▸ (contains_iff_open hcounted n).mpr hopen,if_true]
    cases uni <;> rfl
  by_cases hk : n<k
  · exact hsame (by rw [hid,h.get_closed hcounted hopen hk]; rfl)
  by_cases hm : n < m
  · obtain ⟨peer,hopens,hpeer,hnew,hmono⟩ := hcounted.opens (not_lt.mp hk) hm
    refine hchanged peer ?_ hpeer hnew hmono
    show (s.manager.getOrCreatePeerStream _).state.1 = _
    rw [hid,h.get_unopened hcounted hopen,hopens]
    rfl
  · exact hsame (by rw [hid,h.get_refused hcounted (not_lt.mp hm)]; rfl)

lemma Sound.step_remove (h : s.Sound) {n id : ℕ} (hdef : id = peerBase s.manager.nodeType uni+4*n)
    (hid : id ∈ s.manager.streams) {peer : PeerStreams} (heq : s.manager.peerStreams uni = peer) :
    s.step (.removeClosedStream id) =
      ⟨StreamManager.setPeerStreams {s.manager with streams := s.manager.streams.filter (·≠id)} uni
        (({peer with openPeerStreams := {peer.openPeerStreams with
           streams := peer.openPeerStreams.streams.withdraw (.point n)}} :
          PeerStreams).creditClosed s.manager.streamLimitWindowingFraction).state,id::s.removed⟩ := by
  obtain ⟨hremote,huni⟩ := isPeer_scaled s.manager.nodeType uni n
  rw [← hdef] at hremote huni
  obtain ⟨k,m,hcounted⟩ := h.counted uni
  have hremove : peer.openPeerStreams.remove id =
      .ok {peer.openPeerStreams with streams := peer.openPeerStreams.streams.withdraw (.point n)} := by
    rw [hdef,← hcounted.base_eq,heq]
    exact StreamIdSet.remove_eq _ n
  have hpeer : StreamManager.peerStreams {s.manager with streams := s.manager.streams.filter (·≠id)} uni =
      peer := heq ▸ by cases uni <;> rfl
  show (⟨(s.manager.removeClosedStream _).state,if _ then _ else _⟩ : LimitRun) = _
  rw [if_pos hid]
  unfold StreamManager.removeClosedStream
  rw [if_neg (not_not.mpr hid)]
  simp only [hremote,huni,hpeer,hremove,if_true,Outcome.within_state]

lemma Sound.removeClosedStream (h : s.Sound) (id : ℕ) : (s.step (.removeClosedStream id)).Sound ∧
    (s.LimitsKept (.removeClosedStream id) ↔ s.Creditable (.removeClosedStream id)) := by
  by_cases hid : id ∈ s.manager.streams
  swap
  · have hstep : s.step (.removeClosedStream id) = s := by
      show (⟨(s.manager.removeClosedStream id).state,if _ then _ else _⟩ : LimitRun) = s
      rw [if_neg hid,StreamManager.removeClosedStream,if_pos hid]
      rfl
    refine ⟨by rw [hstep]; exact h,iff_of_true (h.kept_of_same hstep ?_) fun hin => absurd hin hid⟩
    rintro id' hid' ⟨⟩
    exact hid hid'
  obtain ⟨uni,n,rfl,hopen⟩ := h.fresh id hid
  obtain ⟨-,huni⟩ := isPeer_scaled s.manager.nodeType uni n
  obtain ⟨k,m,hcounted⟩ := h.counted uni
  have hcredited := hcounted.credited_le
  have hallowed : s.allowed uni = m := hcounted.allowed_eq
  have huncredited : s.uncredited uni =
      (s.removedOf uni).length+(s.manager.peerStreams uni).initialStreamLimit-m := by
    rw [uncredited,hallowed]
  have hstep := h.step_remove rfl hid rfl
  set t := s.step (.removeClosedStream (peerBase s.manager.nodeType uni+4*n)) with ht
  have hremoved := hcounted.remove hopen
  obtain ⟨hraised,hleft,hinitial,hstreams⟩ := hremoved.creditClosed
    (by simp only [List.length_cons]; omega) s.manager.streamLimitWindowingFraction
    (u := s.uncredited uni+1) (by simp only [List.length_cons]; omega)
  generalize hpeer : PeerStreams.creditClosed _ _ = outcome at hstep hraised hleft hinitial hstreams
  -- the limit is raised by all uncredited streams or stays
  obtain ⟨m',hcounted',hm',hcase⟩ : ∃ m',outcome.state.Counted (peerBase s.manager.nodeType uni)
      ((peerBase s.manager.nodeType uni+4*n)::s.removedOf uni) k m' ∧ m ≤ m' ∧
      if (s.manager.peerStreams uni).initialStreamLimit/s.manager.streamLimitWindowingFraction ≤
        s.uncredited uni+1 ∧ m+(s.uncredited uni+1) ≤ kMaxMaxStreams then m' = m+(s.uncredited uni+1)
      else m' = m := by
    split_ifs with hboth
    · exact ⟨_,hraised hboth.1 hboth.2,Nat.le_add_right _ _,rfl⟩
    · exact ⟨m,by rw [hleft hboth]; exact hremoved,le_rfl,rfl⟩
  have hpeers (uni' : Bool) : t.manager.peerStreams uni' =
      if uni'=uni then outcome.state else s.manager.peerStreams uni' := by
    rw [hstep]
    cases uni <;> cases uni' <;> rfl
  have hremovedOf : t.removedOf uni = (peerBase s.manager.nodeType uni+4*n)::s.removedOf uni := by
    rw [hstep]
    simp [removedOf,huni]
  have hkeep (id : ℕ) (hin : id ∈ t.manager.streams) :
      id ∈ s.manager.streams ∧ id≠peerBase s.manager.nodeType uni+4*n := by
    rw [hstep] at hin
    cases uni <;> simpa using List.mem_filter.mp hin
  obtain ⟨hsound,hle⟩ := h.update (t := t) (by rw [hstep]; cases uni <;> rfl) hpeers
    (by rw [hcounted.max_eq,hcounted'.max_eq]; omega)
    (fun uni' hne => by rw [hstep]; simp [removedOf,huni,hne.symm]) (by rw [hremovedOf]; exact hcounted')
    (fun id hin => .inl (hkeep id hin).1) fun j hj => by
      rw [hstreams]
      exact mem_withdraw.mpr ⟨h.mem_open (hkeep _ hj).1,fun hmem =>
        (hkeep _ hj).2 (by rw [Interval.mem_point.mp hmem])⟩
  have hafter : t.uncredited uni =
      (s.removedOf uni).length+1+(s.manager.peerStreams uni).initialStreamLimit-m' := by
    rw [uncredited,allowed,hpeers,if_pos rfl,hcounted'.allowed_eq,hinitial,hremovedOf,List.length_cons]
  refine ⟨hsound,?_⟩
  constructor
  · intro hkept hin hwindow
    have hlt := hkept.uncredited_lt _ hid rfl
    rw [huni] at hlt hwindow ⊢
    rw [hallowed]
    by_contra hlimit
    rw [if_neg fun hboth => hlimit (by omega)] at hcase
    rw [hafter,hcase,lt_max_iff] at hlt
    omega
  · intro hcreditable
    refine ⟨hsound.balanced,hle,?_,fun id' hid' he => ?_⟩
    · rw [← ht,hstep]
      exact List.suffix_cons _ _
    · obtain rfl := LimitEvent.removeClosedStream.inj he
      have hlimit := hcreditable hid
      rw [huni] at hlimit ⊢
      rw [hallowed] at hlimit
      rw [hafter,lt_max_iff]
      split_ifs at hcase with hboth
      · left
        omega
      · right
        rw [hcase]
        by_contra hge
        exact hboth ⟨by omega,by have := hlimit (by omega); omega⟩

/-- In every run from the initial limits, the limits are kept by every step exactly if every update of
a limit is one that can be advertised. -/
theorem peer_stream_limits_iff (nodeType : QuicNodeType) {limitBidi limitUni fraction : ℕ}
    (hbidi : limitBidi≤kMaxMaxStreams) (huni : limitUni≤kMaxMaxStreams) (es : List LimitEvent) :
    (∀ uni,(init nodeType limitBidi limitUni fraction).Balanced uni) ∧
      (Run.EveryStep step LimitsKept (init nodeType limitBidi limitUni fraction) es ↔
        Run.EveryStep step Creditable (init nodeType limitBidi limitUni fraction) es) := by
  have hinit := init_sound nodeType hbidi huni fraction
  refine ⟨hinit.balanced,Run.everyStep_congr hinit (fun t ht e _ => ?_) fun t ht e _ => ?_⟩
  · cases e with
    | getStream id => exact (ht.getStream id).1
    | removeClosedStream id => exact (ht.removeClosedStream id).1
  · cases e with
    | getStream id => exact iff_of_true (ht.getStream id).2 trivial
    | removeClosedStream id => exact (ht.removeClosedStream id).2

theorem peer_stream_limits_two_streams :
    Run.EveryStep step LimitsKept (init .Server 2 1 2)
      [.getStream 4,.removeClosedStream 4,.getStream 8,.getStream 12] := by
  refine (peer_stream_limits_iff .Server (by decide) (by decide) _).2.mpr ⟨trivial,?_,trivial,trivial,trivial⟩
  intro _ _
  decide

/-- With the largest limit the removal of a stream throws, and the stream is not given back. -/
theorem peer_stream_limit_overflows :
    let opened := (init .Server (2^60) 1 (2^60)).step (.getStream 0)
    (opened.perform (.removeClosedStream 0)).thrown = some (.quicTransportException
        {message := "Attempt to set maxStreams beyond the max allowed.", code := .streamLimitError}) ∧
      (opened.step (.removeClosedStream 0)).uncredited false = 1 ∧
      ¬opened.LimitsKept (.removeClosedStream 0) := by
  refine ⟨by decide +kernel,by decide +kernel,fun h => ?_⟩
  have hlt := h.uncredited_lt 0 (by decide +kernel) rfl
  exact absurd hlt (by decide +kernel)

end LimitRun

end QuicWestwood
