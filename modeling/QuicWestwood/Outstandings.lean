import QuicWestwood.PacketTypes
import QuicWestwood.Sweep

/-! `OutstandingsInfo` keeps the sent packets that are not acknowledged, the identifiers shared by clones, and
counters kept by hand. A packet is live until it is declared lost or scheduled for destruction. `Counted` is the
relation between packets and counters. -/
namespace QuicWestwood
open OutstandingPacket List

namespace OutstandingPacket

def live (p : OutstandingPacket) : Bool := !p.declaredLost && !p.metadata.scheduledForDestruction

def inSpace (s : PacketNumberSpace) (p : OutstandingPacket) : Bool := p.packetNumberSpace = s

def identifier (p : OutstandingPacket) : ClonedPacketIdentifier := ⟨p.packetNumberSpace,p.packetNum⟩

def schedule (p : OutstandingPacket) : OutstandingPacket :=
  {p with metadata := {p.metadata with scheduledForDestruction := true}}

@[simp] lemma schedule_live (p : OutstandingPacket) : p.schedule.live=false := by
  simp [schedule,live]

@[simp] lemma schedule_packetNum (p : OutstandingPacket) : p.schedule.packetNum=p.packetNum := rfl

end OutstandingPacket

/-- The counters of `OutstandingsInfo` and the set of clone identifiers not yet processed. -/
structure OutstandingCounts where
  clonedPacketIdentifiers : Finset ClonedPacketIdentifier := ∅
  packetCount : PacketNumberSpace → ℕ := fun _ => 0
  clonedPacketCount : PacketNumberSpace → ℕ := fun _ => 0
  declaredLostCount : ℕ := 0
  dsrCount : ℕ := 0
  scheduledForDestructionCount : ℕ := 0

structure OutstandingsInfo extends OutstandingCounts where
  packets : List OutstandingPacket := []

namespace OutstandingCounts

/-- `numOutstanding()` of a list of `size` packets. -/
def numOutstanding (c : OutstandingCounts) (size : ℕ) : Except Failure ℕ := do
  check (c.declaredLostCount+c.scheduledForDestructionCount ≤ size)
  return size-c.declaredLostCount-c.scheduledForDestructionCount

def numClonedPackets (c : OutstandingCounts) : ℕ :=
  c.clonedPacketCount .initial+c.clonedPacketCount .handshake+c.clonedPacketCount .appData

/-- No identifier, or one of which no copy has been acked or lost. -/
def needsProcess (c : OutstandingCounts) (p : OutstandingPacket) : Bool :=
  match p.maybeClonedPacketIdentifier with
  | none => true
  | some id => id ∈ c.clonedPacketIdentifiers

/-- `CHECK(count[s]); --count[s];` under a condition. -/
def decrementIf (condition : Bool) (count : PacketNumberSpace → ℕ) (s : PacketNumberSpace) :
    Except Failure (PacketNumberSpace → ℕ) :=
  if condition then do
    check (0 < count s)
    return Function.update count s (count s-1)
  else .ok count

/-- The identifier of `p` counts as processed from now on. -/
def eraseIdentifier (c : OutstandingCounts) (p : OutstandingPacket) : Finset ClonedPacketIdentifier :=
  match p.maybeClonedPacketIdentifier with
  | none => c.clonedPacketIdentifiers
  | some id => c.clonedPacketIdentifiers.erase id

/-- The bookkeeping for a packet that stops being live by an ack, by a loss or by the
rejection of its 0-RTT data. The three places make these steps in different orders, but a
failed `CHECK` ends the process wherever it stands. -/
def retire (c : OutstandingCounts) (p : OutstandingPacket) : Except Failure OutstandingCounts := do
  let packetCount ← decrementIf (c.needsProcess p) c.packetCount p.packetNumberSpace
  let clonedPacketCount ← decrementIf p.maybeClonedPacketIdentifier.isSome c.clonedPacketCount
    p.packetNumberSpace
  return {c with packetCount, clonedPacketCount, clonedPacketIdentifiers := c.eraseIdentifier p}

def pendingIdentifiers (c : OutstandingCounts) (s : PacketNumberSpace) : Finset ClonedPacketIdentifier :=
  c.clonedPacketIdentifiers.filter fun id => id.packetNumberSpace = s

end OutstandingCounts

namespace OutstandingsInfo

/-- `getNextOutstandingPacket(conn, s, from)`: the part of the list from the first live
packet of the space on. -/
def getNextOutstandingPacket (s : PacketNumberSpace) : List OutstandingPacket → List OutstandingPacket :=
  dropWhile fun p => !(p.live && p.inSpace s)

def getFirstOutstandingPacket (o : OutstandingsInfo) (s : PacketNumberSpace) : Option OutstandingPacket :=
  (getNextOutstandingPacket s o.packets).head?

def numOutstanding (o : OutstandingsInfo) : Except Failure ℕ :=
  o.toOutstandingCounts.numOutstanding o.packets.length

end OutstandingsInfo

def liveBytes (packets : List OutstandingPacket) : ℕ :=
  ((packets.filter live).map size).sum

@[simp] lemma liveBytes_nil : liveBytes [] = 0 := rfl

@[simp] lemma liveBytes_append (l l' : List OutstandingPacket) :
    liveBytes (l++l') = liveBytes l+liveBytes l' := by
  simp [liveBytes]

@[simp] lemma liveBytes_cons (p : OutstandingPacket) (l : List OutstandingPacket) :
    liveBytes (p::l) = (if p.live then p.size else 0)+liveBytes l := by
  cases h : p.live <;> simp [liveBytes,h]

@[simp] lemma liveBytes_reverse (l : List OutstandingPacket) : liveBytes l.reverse = liveBytes l := by
  simp [liveBytes,filter_reverse]

lemma forall_mem_insert {p : OutstandingPacket} {front back : List OutstandingPacket}
    {P : OutstandingPacket → Prop} : (∀ q ∈ front++p::back,P q) ↔ P p ∧ ∀ q ∈ front++back,P q := by
  simp only [forall_mem_append,forall_mem_cons]
  tauto

/-- What the counters say about the packets. `ackedDsr` DSR packets have been acked in the
current call and are still to be taken off `dsrCount`. -/
structure Counted (ackedDsr : ℕ) (c : OutstandingCounts) (packets : List OutstandingPacket) : Prop where
  declaredLost : c.declaredLostCount =
    packets.countP fun p => p.declaredLost && !p.metadata.scheduledForDestruction
  scheduled : c.scheduledForDestructionCount = packets.countP fun p => p.metadata.scheduledForDestruction
  dsr : c.dsrCount = packets.countP (fun p => p.live && p.isDSRPacket)+ackedDsr
  cloned : ∀ s,c.clonedPacketCount s =
    packets.countP fun p => p.live && p.inSpace s && p.maybeClonedPacketIdentifier.isSome
  plain : ∀ s,c.packetCount s =
    packets.countP (fun p => p.live && p.inSpace s && p.maybeClonedPacketIdentifier.isNone) +
      (c.pendingIdentifiers s).card
  identifierSpace : ∀ p ∈ packets,∀ id,p.maybeClonedPacketIdentifier = some id →
    id.packetNumberSpace = p.packetNumberSpace
  identified : ∀ p ∈ packets,p.identifier ∈ c.clonedPacketIdentifiers →
    p.maybeClonedPacketIdentifier = some p.identifier

namespace Counted
open OutstandingCounts

lemma empty : Counted 0 {} [] where
  declaredLost := rfl
  scheduled := rfl
  dsr := rfl
  cloned _ := rfl
  plain _ := rfl
  identifierSpace := by simp
  identified := by simp

lemma decrementIf_of_pos {b : Bool} {count : PacketNumberSpace → ℕ} {s : PacketNumberSpace}
    (h : b → 0 < count s) :
    decrementIf b count s = .ok fun t => count t-if b ∧ t=s then 1 else 0 := by
  cases b with
  | false => simp [decrementIf]
  | true =>
    rw [decrementIf,if_pos rfl,decide_eq_true (h rfl),check_true]
    refine congrArg Except.ok (funext fun t => ?_)
    by_cases ht : t=s
    · simp [ht]
    · simp [ht]

lemma card_erase_pending (c : OutstandingCounts) {id : ClonedPacketIdentifier}
    (hid : id ∈ c.clonedPacketIdentifiers) (s : PacketNumberSpace) :
    ((c.clonedPacketIdentifiers.erase id).filter fun i => i.packetNumberSpace = s).card +
      (if id.packetNumberSpace=s then 1 else 0) = (c.pendingIdentifiers s).card := by
  rw [pendingIdentifiers,Finset.filter_erase]
  split_ifs with hs
  · exact Finset.card_erase_add_one (by simp [hid,hs])
  · rw [Finset.erase_eq_of_notMem (by simp [hs]),Nat.add_zero]

section Retire
variable {d : ℕ} {c : OutstandingCounts} {pre post out : List OutstandingPacket}
  {p : OutstandingPacket}

section
variable (h : Counted d c (pre++p::post)) (hp : p.live)
include h hp

lemma packetCount_pos (hn : c.needsProcess p) : 0 < c.packetCount p.packetNumberSpace := by
  rw [h.plain]
  unfold needsProcess at hn
  split at hn
  · rename_i hnone
    simp [hp,hnone,inSpace]
  · rename_i id hid
    have hspace := h.identifierSpace p (by simp) id hid
    have hmem : id ∈ c.pendingIdentifiers p.packetNumberSpace := by
      simpa [pendingIdentifiers,hspace] using hn
    exact Nat.add_pos_right _ (Finset.card_pos.mpr ⟨id,hmem⟩)

lemma clonedPacketCount_pos (hid : p.maybeClonedPacketIdentifier.isSome) :
    0 < c.clonedPacketCount p.packetNumberSpace := by
  rw [h.cloned]
  simp [hp,hid,inSpace]

lemma retire_eq : c.retire p = .ok {c with
      packetCount := fun s =>
        c.packetCount s-if c.needsProcess p ∧ s=p.packetNumberSpace then 1 else 0
      clonedPacketCount := fun s => c.clonedPacketCount s -
        if p.maybeClonedPacketIdentifier.isSome ∧ s=p.packetNumberSpace then 1 else 0
      clonedPacketIdentifiers := c.eraseIdentifier p} := by
  rw [retire,decrementIf_of_pos (h.packetCount_pos hp),decrementIf_of_pos (h.clonedPacketCount_pos hp)]
  rfl

/-- The pending identifiers and the plain live packets lose together what the count loses. -/
lemma plain_retired (s : PacketNumberSpace) :
    c.packetCount s-(if c.needsProcess p ∧ s=p.packetNumberSpace then 1 else 0) = (pre++post).countP
        (fun q => q.live && q.inSpace s && q.maybeClonedPacketIdentifier.isNone) +
        ((c.eraseIdentifier p).filter fun id => id.packetNumberSpace = s).card := by
  have hplain := h.plain s
  simp only [countP_append,countP_cons] at hplain ⊢
  cases hid : p.maybeClonedPacketIdentifier with
  | none =>
    have hiff : (p.inSpace s = true) ↔ s=p.packetNumberSpace := by
      simp [inSpace,eq_comm]
    simp only [needsProcess,eraseIdentifier,hid,true_and,hp,Bool.true_and,Option.isNone_none,
      Bool.and_true,hiff,pendingIdentifiers] at hplain ⊢
    split_ifs at hplain ⊢ <;> omega
  | some id =>
    have hspace := h.identifierSpace p (by simp) id hid
    simp only [needsProcess,eraseIdentifier,hid,Option.isNone_some,Bool.and_false,
      Bool.false_eq_true,if_false,decide_eq_true_eq] at hplain ⊢
    by_cases hmem : id ∈ c.clonedPacketIdentifiers
    · have hcard := card_erase_pending c hmem s
      simp only [hmem,true_and,← hspace,eq_comm (a := s)]
      split_ifs at hcard ⊢ <;> omega
    · rw [Finset.erase_eq_of_notMem hmem,if_neg (by simp [hmem])]
      exact hplain

lemma cloned_retired (s : PacketNumberSpace) :
    c.clonedPacketCount s -
        (if p.maybeClonedPacketIdentifier.isSome ∧ s=p.packetNumberSpace then 1 else 0) = (pre++post).countP
        (fun q => q.live && q.inSpace s && q.maybeClonedPacketIdentifier.isSome) := by
  have hcloned := h.cloned s
  have hiff : (p.inSpace s = true) ↔ s=p.packetNumberSpace := by
    simp [inSpace,eq_comm]
  simp only [countP_append,countP_cons,hp,Bool.true_and,Bool.and_eq_true,hiff] at hcloned ⊢
  rw [hcloned]
  split_ifs <;> first | omega | (exfalso; tauto)

end

lemma eraseIdentifier_subset (c : OutstandingCounts) (p : OutstandingPacket) :
    c.eraseIdentifier p ⊆ c.clonedPacketIdentifiers := by
  unfold eraseIdentifier
  split
  · exact subset_rfl
  · exact Finset.erase_subset _ _

lemma countP_eq_zero_of_not_live (hout : ∀ q ∈ out,q.live = false) (f : OutstandingPacket → Bool) :
    out.countP (fun q => q.live && f q) = 0 := by
  rw [countP_eq_zero]
  intro q hq
  simp [hout q hq]

/-- What takes the place of a packet and has its identifiers keeps what they say. -/
lemma of_same_identifiers (out : List OutstandingPacket) (h : Counted d c (pre++p::post)) {ids : Finset ClonedPacketIdentifier}
    (hids : ids ⊆ c.clonedPacketIdentifiers) (hsame : ∀ q ∈ out,q.identifier = p.identifier ∧
      q.maybeClonedPacketIdentifier = p.maybeClonedPacketIdentifier) :
    ∀ q ∈ pre++(out++post),
      (∀ id,q.maybeClonedPacketIdentifier = some id → id.packetNumberSpace = q.packetNumberSpace) ∧
      (q.identifier ∈ ids → q.maybeClonedPacketIdentifier = some q.identifier) := by
  intro q hq
  obtain ⟨r,hr,hid,hclone⟩ : ∃ r ∈ pre++p::post,q.identifier = r.identifier ∧
      q.maybeClonedPacketIdentifier = r.maybeClonedPacketIdentifier := by
    simp only [mem_append] at hq
    rcases hq with hq | hq | hq
    · exact ⟨q,by simp [hq],rfl,rfl⟩
    · exact ⟨p,by simp,hsame q hq⟩
    · exact ⟨q,by simp [hq],rfl,rfl⟩
  have hspace : q.packetNumberSpace=r.packetNumberSpace :=
    congrArg ClonedPacketIdentifier.packetNumberSpace hid
  rw [hclone,hspace,hid]
  exact ⟨h.identifierSpace r hr,fun hmem => h.identified r hr (hids hmem)⟩

/-- A live packet leaves by an ack, a loss or a 0-RTT rejection: `out`, which is no longer
live, takes its place. The three cases differ in how the DSR packets are counted. -/
theorem retire (out : List OutstandingPacket) (dsr d' : ℕ) (h : Counted d c (pre++p::post)) (hp : p.live)
    (hout : ∀ q ∈ out,q.live = false)
    (hsame : ∀ q ∈ out,q.identifier = p.identifier ∧
      q.maybeClonedPacketIdentifier = p.maybeClonedPacketIdentifier)
    (hdsr : dsr+d+(if p.isDSRPacket then 1 else 0) = c.dsrCount+d') :
    ∃ c',c.retire p = .ok c' ∧ (c'.dsrCount=c.dsrCount ∧
      c'.scheduledForDestructionCount = c.scheduledForDestructionCount) ∧
      c'.clonedPacketIdentifiers ⊆ c.clonedPacketIdentifiers ∧ Counted d' {c' with
        dsrCount := dsr
        declaredLostCount := c'.declaredLostCount +
          out.countP fun q => q.declaredLost && !q.metadata.scheduledForDestruction
        scheduledForDestructionCount := c'.scheduledForDestructionCount +
          out.countP fun q => q.metadata.scheduledForDestruction} (pre++(out++post)) := by
  obtain ⟨hlost,hsched⟩ : p.declaredLost=false ∧ p.metadata.scheduledForDestruction=false := by
    simpa [live] using hp
  have hzero := countP_eq_zero_of_not_live hout
  have hids := h.of_same_identifiers out (eraseIdentifier_subset c p) hsame
  refine ⟨_,h.retire_eq hp,⟨rfl,rfl⟩,eraseIdentifier_subset c p,?_⟩
  constructor
  case declaredLost =>
    have hcount := h.declaredLost
    simp only [countP_append,countP_cons,hlost,Bool.false_and,Bool.false_eq_true,if_false] at hcount ⊢
    omega
  case scheduled =>
    have hcount := h.scheduled
    simp only [countP_append,countP_cons,hsched,Bool.false_eq_true,if_false] at hcount ⊢
    omega
  case dsr =>
    have hcount := h.dsr
    simp only [countP_append,countP_cons,hp,Bool.true_and,hzero] at hcount ⊢
    omega
  case cloned =>
    intro s
    have hold := h.cloned_retired hp s
    simp only [Bool.and_assoc,countP_append,hzero,Nat.zero_add] at hold ⊢
    exact hold
  case plain =>
    intro s
    have hold := h.plain_retired hp s
    simp only [Bool.and_assoc,countP_append,hzero,Nat.zero_add] at hold ⊢
    exact hold
  case identifierSpace => exact fun q hq => (hids q hq).1
  case identified => exact fun q hq => (hids q hq).2

end Retire

section Totals
variable {d : ℕ} {c : OutstandingCounts} {packets : List OutstandingPacket}

lemma length_eq (packets : List OutstandingPacket) :
    packets.length = packets.countP live +
      packets.countP (fun p => p.declaredLost && !p.metadata.scheduledForDestruction) +
      packets.countP fun p => p.metadata.scheduledForDestruction := by
  induction packets with
  | nil => rfl
  | cons p ps ih =>
    have hlive : p.live = (!p.declaredLost && !p.metadata.scheduledForDestruction) := rfl
    simp only [length_cons,countP_cons,hlive,ih]
    cases hl : p.declaredLost <;> cases hs : p.metadata.scheduledForDestruction <;> simp <;> omega

variable (h : Counted d c packets)
include h

lemma reverse : Counted d c packets.reverse where
  declaredLost := by rw [h.declaredLost,countP_reverse]
  scheduled := by rw [h.scheduled,countP_reverse]
  dsr := by rw [h.dsr,countP_reverse]
  cloned s := by rw [h.cloned,countP_reverse]
  plain s := by rw [h.plain,countP_reverse]
  identifierSpace p hp := h.identifierSpace p (mem_reverse.mp hp)
  identified p hp := h.identified p (mem_reverse.mp hp)

lemma dsrCount_pos {p : OutstandingPacket} (hmem : p ∈ packets) (hp : p.live) (hdsr : p.isDSRPacket=true) :
    0 < c.dsrCount := by
  rw [h.dsr]
  exact Nat.add_pos_left (countP_pos_iff.mpr ⟨p,hmem,by simp [hp,hdsr]⟩) _

lemma declaredLostCount_pos {p : OutstandingPacket} (hmem : p ∈ packets) (hlost : p.declaredLost=true)
    (hsched : p.metadata.scheduledForDestruction=false) : 0 < c.declaredLostCount := by
  rw [h.declaredLost]
  exact countP_pos_iff.mpr ⟨p,hmem,by simp [hlost,hsched]⟩

lemma numOutstanding_eq : c.numOutstanding packets.length = .ok (packets.countP live) := by
  have hlen := length_eq packets
  have hlost := h.declaredLost
  have hsched := h.scheduled
  rw [numOutstanding,decide_eq_true (by omega),check_true]
  refine congrArg Except.ok ?_
  omega

lemma numClonedPackets_eq : c.numClonedPackets =
    packets.countP fun p => p.live && p.maybeClonedPacketIdentifier.isSome := by
  rw [numClonedPackets,h.cloned,h.cloned,h.cloned]
  clear h
  induction packets with
  | nil => rfl
  | cons p ps ih =>
    have hspace : ∀ s,p.inSpace s = decide (p.packetNumberSpace=s) := fun _ => rfl
    simp only [countP_cons,hspace]
    cases p.packetNumberSpace <;> cases p.live <;> cases p.maybeClonedPacketIdentifier <;>
      simp <;> omega

lemma numClonedPackets_le : c.numClonedPackets ≤ packets.countP live := by
  rw [h.numClonedPackets_eq]
  exact countP_mono_left fun p _ hp => (Bool.and_eq_true_iff.mp hp).1

lemma settleDsr : d ≤ c.dsrCount ∧ Counted 0 {c with dsrCount := c.dsrCount-d} packets := by
  have hdsr := h.dsr
  refine ⟨by omega,{h with dsr := ?_}⟩
  change c.dsrCount-d = _
  omega

end Totals

lemma of_filter_live {d : ℕ} {c : OutstandingCounts} {l l' : List OutstandingPacket}
    (h : Counted d c l) (hsub : l' ⊆ l)
    (hlive : l'.filter live = l.filter live) :
    Counted d {c with
      declaredLostCount := l'.countP fun p => p.declaredLost && !p.metadata.scheduledForDestruction
      scheduledForDestructionCount := l'.countP fun p => p.metadata.scheduledForDestruction} l' := by
  have hcount : ∀ f : OutstandingPacket → Bool,
      l'.countP (fun p => p.live && f p) = l.countP fun p => p.live && f p := by
    intro f
    have hboth : ∀ l : List OutstandingPacket,
        l.countP (fun p => p.live && f p) = (l.filter live).countP f := by
      intro l
      rw [countP_filter]
      exact countP_congr fun p _ => by rw [Bool.and_comm]
    rw [hboth,hboth,hlive]
  constructor
  case declaredLost => rfl
  case scheduled => rfl
  case dsr => rw [hcount,h.dsr]
  case cloned => exact fun s => by simpa only [Bool.and_assoc,hcount] using h.cloned s
  case plain => exact fun s => by simpa only [Bool.and_assoc,hcount,pendingIdentifiers] using h.plain s
  case identifierSpace => exact fun p hp => h.identifierSpace p (hsub hp)
  case identified => exact fun p hp => h.identified p (hsub hp)

lemma spurious {d : ℕ} {c : OutstandingCounts} {pre post : List OutstandingPacket}
    {p : OutstandingPacket} (h : Counted d c (pre++p::post)) (hlost : p.declaredLost=true)
    (hsched : p.metadata.scheduledForDestruction=false) :
    Counted d {c with
      declaredLostCount := c.declaredLostCount-1
      scheduledForDestructionCount := c.scheduledForDestructionCount+1}
      (pre++p.schedule::post) := by
  have hlive : p.live=false := by simp [live,hlost]
  have hids := h.of_same_identifiers [p.schedule] subset_rfl (forall_mem_singleton.mpr ⟨rfl,rfl⟩)
  constructor
  case declaredLost =>
    have hcount := h.declaredLost
    simp [hlost,hsched,schedule] at hcount ⊢
    omega
  case scheduled =>
    have hcount := h.scheduled
    simp [hsched,schedule] at hcount ⊢
    omega
  case dsr => simpa [hlive] using h.dsr
  case cloned => exact fun s => by simpa [hlive] using h.cloned s
  case plain => exact fun s => by simpa [hlive,pendingIdentifiers] using h.plain s
  case identifierSpace => exact fun q hq => (hids q hq).1
  case identified => exact fun q hq => (hids q hq).2

end Counted

/-- The order that the sorted insertion keeps: by number, and no packet twice. Packets of
different spaces may share a number. -/
def WellOrdered (packets : List OutstandingPacket) : Prop :=
  (packets.map identifier).Pairwise fun a b =>
    a.packetNumber ≤ b.packetNumber ∧ a≠b

namespace WellOrdered
variable {l l' : List OutstandingPacket}

lemma sublist (h : WellOrdered l) (hs : l'.Sublist l) : WellOrdered l' := Pairwise.sublist (hs.map _) h

lemma of_map_eq (h : WellOrdered l)
    (heq : l'.map identifier = l.map identifier) :
    WellOrdered l' := by
  rwa [WellOrdered,heq]

lemma eq_of_identifier_eq (h : WellOrdered l) {p q : OutstandingPacket} (hp : p ∈ l) (hq : q ∈ l)
    (heq : p.identifier=q.identifier) : p=q :=
  inj_on_of_nodup_map (h.imp And.right) hp hq heq

end WellOrdered

/-- How the schedulers build packets: stream frames without data of their own stand in DSR
packets only, and DSR packets are protected with a 1-RTT key. -/
structure OutstandingPacket.FromScheduler (p : OutstandingPacket) : Prop where
  dsrKey : p.isDSRPacket → p.protectionType = .keyPhaseZero
  bufMeta : ∀ frame,QuicWriteFrame.writeStreamFrame frame ∈ p.frames → frame.fromBufMeta → p.isDSRPacket

/-- What holds of the outstanding packets in the middle of an operation as well. -/
structure OutstandingsInfo.Consistent (o : OutstandingsInfo) : Prop where
  counted : Counted 0 o.toOutstandingCounts o.packets
  ordered : WellOrdered o.packets
  built : ∀ p ∈ o.packets,p.FromScheduler

/-- What ack and loss processing leave alone in a packet; they bring none back to life. -/
structure OutstandingPacket.Becomes (p q : OutstandingPacket) : Prop where
  packetNum : q.packetNum=p.packetNum
  protectionType : q.protectionType=p.protectionType
  frames : q.frames=p.frames
  isDSRPacket : q.isDSRPacket=p.isDSRPacket
  sequenceNumber : q.nonDsrPacketSequenceNumber=p.nonDsrPacketSequenceNumber
  live : q.live → p.live

namespace OutstandingPacket
variable {p q : OutstandingPacket}

lemma Becomes.refl (p : OutstandingPacket) : p.Becomes p := ⟨rfl,rfl,rfl,rfl,rfl,id⟩

lemma Becomes.trans {r : OutstandingPacket} (h : p.Becomes q) (h' : q.Becomes r) : p.Becomes r :=
  ⟨h'.1.trans h.1,h'.2.trans h.2,h'.3.trans h.3,h'.4.trans h.4,h'.5.trans h.5,h.6 ∘ h'.6⟩

lemma Becomes.identifier (h : p.Becomes q) : q.identifier=p.identifier := by
  rw [OutstandingPacket.identifier,OutstandingPacket.identifier,packetNumberSpace,packetNumberSpace,
    h.packetNum,h.protectionType]

lemma Becomes.built (h : p.Becomes q) (hp : p.FromScheduler) : q.FromScheduler where
  dsrKey hq := h.protectionType ▸ hp.dsrKey (h.isDSRPacket ▸ hq)
  bufMeta frame hf hm := h.isDSRPacket ▸ hp.bufMeta frame (h.frames ▸ hf) hm

lemma Becomes.map_identifier {l l' : List OutstandingPacket} (h : List.Forall₂ Becomes l l') :
    l'.map OutstandingPacket.identifier = l.map OutstandingPacket.identifier := by
  induction h with
  | nil => rfl
  | cons hsame _ ih => rw [map_cons,map_cons,ih,hsame.identifier]

end OutstandingPacket

/-- `o` is what remains of `o'`: packets may have gone or changed their state, none is new. -/
structure OutstandingsInfo.Within (o o' : OutstandingsInfo) : Prop where
  order : (o.packets.map identifier).Sublist
    (o'.packets.map identifier)
  origin : ∀ q ∈ o.packets,∃ p ∈ o'.packets,p.Becomes q
  ids : o.clonedPacketIdentifiers ⊆ o'.clonedPacketIdentifiers

namespace OutstandingsInfo.Within
variable {o o' o'' : OutstandingsInfo}

lemma refl (o : OutstandingsInfo) : o.Within o := ⟨.refl _,fun q hq => ⟨q,hq,.refl q⟩,subset_rfl⟩

lemma trans (h : o.Within o') (h' : o'.Within o'') : o.Within o'' where
  order := h.order.trans h'.order
  origin q hq := by
    obtain ⟨p,hp,hsame⟩ := h.origin q hq
    obtain ⟨r,hr,hsame'⟩ := h'.origin p hp
    exact ⟨r,hr,hsame'.trans hsame⟩
  ids := h.ids.trans h'.ids

lemma of_sublist (h : o.packets.Sublist o'.packets)
    (hids : o.clonedPacketIdentifiers ⊆ o'.clonedPacketIdentifiers) : o.Within o' :=
  ⟨h.map _,fun q hq => ⟨q,h.subset hq,.refl q⟩,hids⟩

lemma of_forall₂ (h : Forall₂ Becomes o'.packets o.packets)
    (hids : o.clonedPacketIdentifiers ⊆ o'.clonedPacketIdentifiers) : o.Within o' :=
  ⟨OutstandingPacket.Becomes.map_identifier h ▸ .refl _,exists_of_mem_forall₂ h,hids⟩

lemma consistent (h : o.Within o') (ho : o'.Consistent)
    (hcounted : Counted 0 o.toOutstandingCounts o.packets) : o.Consistent where
  counted := hcounted
  ordered := Pairwise.sublist h.order ho.ordered
  built q hq := by
    obtain ⟨p,hp,hsame⟩ := h.origin q hq
    exact hsame.built (ho.built p hp)

end OutstandingsInfo.Within

lemma OutstandingCounts.retire_scheduled (c : OutstandingCounts) (n : ℕ) (p : OutstandingPacket) :
    {c with scheduledForDestructionCount := n}.retire p =
      (fun c' => {c' with scheduledForDestructionCount := n}) <$> c.retire p := by
  have hneeds : {c with scheduledForDestructionCount := n}.needsProcess p = c.needsProcess p := rfl
  simp only [retire,hneeds]
  cases decrementIf (c.needsProcess p) c.packetCount p.packetNumberSpace with
  | error e => rfl
  | ok packetCount =>
    cases decrementIf p.maybeClonedPacketIdentifier.isSome c.clonedPacketCount p.packetNumberSpace <;> rfl

end QuicWestwood
