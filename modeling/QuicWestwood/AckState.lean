import QuicWestwood.IntervalSet
import QuicWestwood.Run

/-! `addPacketToAckState` files every arrival: its number in the interval set of packets to acknowledge, and its
receive time if no larger number has arrived before. The counters for statistics are left out. -/
namespace QuicWestwood
open List

structure ReceivedPacket where
  pktNum : ℕ
  receiveTimePoint : ℤ
  deriving DecidableEq

structure AckState where
  acks : IntervalSet 1 := .empty
  lastRecvdPacketInfo : Option ReceivedPacket := none
  recvdPacketInfos : List ReceivedPacket := []
  largestRecvdPacketNum : Option ℕ := none
  largestRecvdPacketTime : Option ℤ := none
  ecnECT0CountReceived : ℕ := 0
  ecnECT1CountReceived : ℕ := 0
  ecnCECountReceived : ℕ := 0

/-- A datagram that carries one packet: its number, receive time and TOS byte. -/
structure Arrival where
  packetNum : ℕ
  receiveTimePoint : ℤ
  tosValue : UInt8 := 0
  deriving DecidableEq

def Arrival.info (a : Arrival) : ReceivedPacket := ⟨a.packetNum,a.receiveTimePoint⟩

namespace AckState

def expectedNextPacket (s : AckState) : ℕ :=
  match s.largestRecvdPacketNum with
  | some n => n+1
  | none => 0

def storeTime (maxStored : ℕ) (infos : List ReceivedPacket) (p : ReceivedPacket) :
    List ReceivedPacket :=
  (if infos.length=maxStored then infos.tail else infos)++[p]

def countEcn (s : AckState) (tosValue : UInt8) : AckState :=
  match tosValue.toNat % 4 with
  | 3 => {s with ecnCECountReceived := (s.ecnCECountReceived+1) % 2^32}
  | 1 => {s with ecnECT1CountReceived := (s.ecnECT1CountReceived+1) % 2^32}
  | 2 => {s with ecnECT0CountReceived := (s.ecnECT0CountReceived+1) % 2^32}
  | _ => s

/-- The new state and the distance of the packet number from the expected one. -/
def addPacketToAckState (maxStored : ℕ) (s : AckState) (a : Arrival) : AckState × ℕ :=
  let expected := s.expectedNextPacket
  let largest := max (s.largestRecvdPacketNum.getD a.packetNum) a.packetNum
  let s' : AckState :=
    {s with
      largestRecvdPacketNum := some largest
      acks := s.acks.insertPoint a.packetNum
      largestRecvdPacketTime :=
        if largest=a.packetNum then some a.receiveTimePoint else s.largestRecvdPacketTime
      lastRecvdPacketInfo := some a.info
      recvdPacketInfos :=
        if expected≤a.packetNum then storeTime maxStored s.recvdPacketInfos a.info
        else s.recvdPacketInfos}
  (s'.countEcn a.tosValue,if expected=0 then 0
    else if expected<a.packetNum then a.packetNum-expected else expected-a.packetNum)

def receive (maxStored : ℕ) : AckState → List Arrival → AckState :=
  Run.run fun s a => (addPacketToAckState maxStored s a).1

section Fields
variable (maxStored : ℕ) (s : AckState) (a : Arrival)

@[simp] lemma addPacketToAckState_acks :
    (addPacketToAckState maxStored s a).1.acks = s.acks.insertPoint a.packetNum := by
  simp only [addPacketToAckState,countEcn]
  split <;> rfl

@[simp] lemma addPacketToAckState_largest :
    (addPacketToAckState maxStored s a).1.largestRecvdPacketNum =
      some (max (s.largestRecvdPacketNum.getD a.packetNum) a.packetNum) := by
  simp only [addPacketToAckState,countEcn]
  split <;> rfl

@[simp] lemma addPacketToAckState_largestTime :
    (addPacketToAckState maxStored s a).1.largestRecvdPacketTime =
      if max (s.largestRecvdPacketNum.getD a.packetNum) a.packetNum = a.packetNum then
        some a.receiveTimePoint
      else s.largestRecvdPacketTime := by
  simp only [addPacketToAckState,countEcn]
  split <;> rfl

@[simp] lemma addPacketToAckState_last :
    (addPacketToAckState maxStored s a).1.lastRecvdPacketInfo = some a.info := by
  simp only [addPacketToAckState,countEcn]
  split <;> rfl

@[simp] lemma addPacketToAckState_infos :
    (addPacketToAckState maxStored s a).1.recvdPacketInfos = if s.expectedNextPacket≤a.packetNum then
        storeTime maxStored s.recvdPacketInfos a.info
      else s.recvdPacketInfos := by
  simp only [addPacketToAckState,countEcn]
  split <;> rfl

end Fields

/-- The arrival that brought packet `n`; later ones are duplicates. -/
def firstArrival (arrivals : List Arrival) (n : ℕ) : Option Arrival :=
  arrivals.find? fun a => a.packetNum = n

variable {arrivals : List Arrival}

lemma firstArrival_append_of_some {n : ℕ} {a : Arrival} (h : firstArrival arrivals n = some a)
    (more : List Arrival) : firstArrival (arrivals++more) n = some a := by
  rw [firstArrival,find?_append]
  exact Option.or_of_isSome (Option.isSome_of_eq_some h) |>.trans h

lemma firstArrival_append_of_new {a : Arrival} (h : ∀ b ∈ arrivals,b.packetNum≠a.packetNum) :
    firstArrival (arrivals++[a]) a.packetNum = some a := by
  have hnone : arrivals.find? (fun b => b.packetNum = a.packetNum) = none := by
    simpa [find?_eq_none] using h
  simp [firstArrival,find?_append,hnone]

structure Remembers (s : AckState) (arrivals : List Arrival) : Prop where
  acks : ∀ n,n ∈ s.acks ↔ ∃ a ∈ arrivals,a.packetNum=n
  last : s.lastRecvdPacketInfo = arrivals.getLast?.map Arrival.info
  sublist : s.recvdPacketInfos.Sublist (arrivals.map Arrival.info)
  first : ∀ p ∈ s.recvdPacketInfos,(firstArrival arrivals p.pktNum).map Arrival.info = some p
  increasing : s.recvdPacketInfos.Pairwise fun p q => p.pktNum < q.pktNum
  newest : s.recvdPacketInfos.getLast?.map ReceivedPacket.pktNum = s.largestRecvdPacketNum
  below : ∀ a ∈ arrivals,a.packetNum < s.expectedNextPacket
  largestTime : ∀ t ∈ s.largestRecvdPacketTime,∃ a ∈ arrivals,a.receiveTimePoint=t

lemma storeTime_sublist (maxStored : ℕ) (infos : List ReceivedPacket) (p : ReceivedPacket) :
    (storeTime maxStored infos p).Sublist (infos++[p]) := by
  unfold storeTime
  split
  · exact (tail_sublist infos).append_right [p]
  · exact Sublist.refl _

lemma remembers_nil : Remembers {} [] where
  acks := by simp
  last := rfl
  sublist := Sublist.refl _
  first := by simp
  increasing := .nil
  newest := rfl
  below := by simp
  largestTime := by simp

lemma Remembers.stored_lt {s : AckState} (h : Remembers s arrivals) {p : ReceivedPacket}
    (hp : p ∈ s.recvdPacketInfos) : p.pktNum < s.expectedNextPacket := by
  obtain ⟨a,ha,rfl⟩ := mem_map.mp (h.sublist.subset hp)
  exact h.below a ha

theorem Remembers.add {s : AckState} (h : Remembers s arrivals) (maxStored : ℕ) (a : Arrival) :
    Remembers (addPacketToAckState maxStored s a).1 (arrivals++[a]) := by
  have hkeep : ∀ p ∈ s.recvdPacketInfos,
      (firstArrival (arrivals++[a]) p.pktNum).map Arrival.info = some p := by
    intro p hp
    obtain ⟨b,hb,hbp⟩ := Option.map_eq_some_iff.mp (h.first p hp)
    rw [firstArrival_append_of_some hb,Option.map_some,hbp]
  have hstored := storeTime_sublist maxStored s.recvdPacketInfos a.info
  constructor
  · intro n
    simp [h.acks,or_and_right,exists_or,eq_comm]
  · simp
  · rw [addPacketToAckState_infos,map_append]
    split
    · exact hstored.trans (h.sublist.append_right _)
    · exact h.sublist.trans (sublist_append_left _ _)
  · intro p hp
    rw [addPacketToAckState_infos] at hp
    split at hp
    · rename_i hnew
      rcases mem_append.mp (hstored.subset hp) with hp | hp
      · exact hkeep p hp
      · obtain rfl := mem_singleton.mp hp
        have hne : ∀ b ∈ arrivals,b.packetNum≠a.packetNum := fun b hb =>
          ((h.below b hb).trans_le hnew).ne
        change (firstArrival (arrivals++[a]) a.packetNum).map Arrival.info = _
        rw [firstArrival_append_of_new hne,Option.map_some]
    · exact hkeep p hp
  · rw [addPacketToAckState_infos]
    split
    · rename_i hnew
      refine (pairwise_append.mpr ⟨h.increasing,pairwise_singleton _ _,?_⟩).sublist hstored
      intro p hp q hq
      obtain rfl := mem_singleton.mp hq
      exact (h.stored_lt hp).trans_le hnew
    · exact h.increasing
  · rw [addPacketToAckState_infos,addPacketToAckState_largest]
    cases hl : s.largestRecvdPacketNum with
    | none => simp [expectedNextPacket,hl,storeTime,Arrival.info]
    | some n =>
      simp only [expectedNextPacket,hl,Option.getD_some]
      split
      · rename_i hnew
        simp only [storeTime,getLast?_append,getLast?_singleton,Option.some_or,
          Option.map_some,Arrival.info,Option.some.injEq]
        omega
      · rw [h.newest,hl,max_eq_left (by omega)]
  · intro b hb
    simp only [expectedNextPacket,addPacketToAckState_largest]
    rcases mem_append.mp hb with hb | hb
    · have hlt := h.below b hb
      cases hl : s.largestRecvdPacketNum with
      | none => simp [expectedNextPacket,hl] at hlt
      | some n =>
        simp only [expectedNextPacket,hl,Option.getD_some] at hlt ⊢
        omega
    · obtain rfl := mem_singleton.mp hb
      omega
  · intro t ht
    rw [addPacketToAckState_largestTime] at ht
    split at ht
    · exact ⟨a,by simp,Option.some.inj ht⟩
    · obtain ⟨b,hb,hbt⟩ := h.largestTime t ht
      exact ⟨b,by simp [hb],hbt⟩

theorem remembers_receive (maxStored : ℕ) (arrivals : List Arrival) :
    Remembers (receive maxStored {} arrivals) arrivals := by
  induction arrivals using reverseRecOn with
  | nil => exact remembers_nil
  | append_singleton arrivals a ih =>
    rw [receive,Run.run_append]
    exact ih.add maxStored a

end AckState

end QuicWestwood
