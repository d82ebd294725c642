import QuicWestwood.AckFrameDecode
import QuicWestwood.Outstandings

/-! `AckedPacketIterator` goes through the outstanding packets from the largest number down and through the ack
blocks along with them. On a list sorted by packet number it visits exactly the packets of its space that
`coveredBy` selects, whatever the blocks are. -/
namespace QuicWestwood
open List

/-- A reverse iterator into a list: `rest` runs from the element pointed at to the front,
`passed` is the part behind it. -/
structure ReverseCursor (α : Type) where
  passed : List α
  rest : List α

namespace ReverseCursor
variable {α : Type}

def rbegin (l : List α) : ReverseCursor α := ⟨[],l.reverse⟩

def toList (c : ReverseCursor α) : List α := c.rest.reverse++c.passed

def skipWhile (f : α → Bool) (c : ReverseCursor α) : ReverseCursor α :=
  ⟨(c.rest.takeWhile f).reverse++c.passed,c.rest.dropWhile f⟩

lemma skipWhile_spec (f : α → Bool) (c : ReverseCursor α) :
    ∃ skipped,c.rest = skipped++(c.skipWhile f).rest ∧
      (c.skipWhile f).passed = skipped.reverse++c.passed ∧ ∀ a ∈ skipped,f a = true := by
  refine ⟨c.rest.takeWhile f,takeWhile_append_dropWhile.symm,rfl,fun a ha => ?_⟩
  exact mem_takeWhile_imp ha

lemma skipWhile_head (f : α → Bool) (c : ReverseCursor α) {a : α} {as : List α}
    (h : (c.skipWhile f).rest = a::as) : f a = false := by
  have hhead := head?_dropWhile_not f c.rest
  rw [show c.rest.dropWhile f = a::as from h] at hhead
  simpa using hhead

end ReverseCursor

/-- The remaining blocks start at `ackBlockIter_`. -/
structure AckedPacketIterator where
  outstandings : ReverseCursor OutstandingPacket
  ackBlocks : List AckBlock
  valid : Bool

namespace AckedPacketIterator

/-- The two moves inside a block: the binary search for its upper end, which on a sorted
list is a skip, and the skip over the packets of the other spaces. -/
def moveToNextValidInAckBlock (pnSpace : PacketNumberSpace) (ackBlock : AckBlock)
    (outstandings : ReverseCursor OutstandingPacket) : ReverseCursor OutstandingPacket × Bool :=
  let moved := (outstandings.skipWhile fun p => ackBlock.endPacket < p.packetNum).skipWhile
    fun p => !p.inSpace pnSpace
  (moved,match moved.rest with
    | [] => false
    | p::_ => ackBlock.startPacket ≤ p.packetNum)

def moveToNextValid (pnSpace : PacketNumberSpace) :
    List AckBlock → ReverseCursor OutstandingPacket → AckedPacketIterator
  | [], outstandings => ⟨outstandings,[],false⟩
  | ackBlock::ackBlocks, outstandings =>
    let moved := moveToNextValidInAckBlock pnSpace ackBlock outstandings
    if moved.1.rest.isEmpty then ⟨moved.1,ackBlock::ackBlocks,false⟩
    else if moved.2 then ⟨moved.1,ackBlock::ackBlocks,true⟩
    else moveToNextValid pnSpace ackBlocks moved.1

/-- The constructor; `getLastOutstandingPacket` also stops at lost and scheduled packets. -/
def construct (pnSpace : PacketNumberSpace) (ackBlocks : List AckBlock)
    (packets : List OutstandingPacket) : AckedPacketIterator :=
  moveToNextValid pnSpace ackBlocks
    ((ReverseCursor.rbegin packets).skipWhile fun p => !p.inSpace pnSpace)

def next (pnSpace : PacketNumberSpace) (it : AckedPacketIterator) (p : OutstandingPacket) :
    AckedPacketIterator :=
  let outstandings : ReverseCursor OutstandingPacket :=
    ⟨p::it.outstandings.passed,it.outstandings.rest.tail⟩
  if outstandings.rest.isEmpty then ⟨outstandings,it.ackBlocks,false⟩
  else moveToNextValid pnSpace it.ackBlocks outstandings

/-- `while (valid()) { body; next(); }` -/
def forEach {τ : Type} (pnSpace : PacketNumberSpace)
    (body : τ → OutstandingPacket → Except Failure (τ × OutstandingPacket)) :
    ℕ → τ → AckedPacketIterator → Except Failure (τ × List OutstandingPacket)
  | 0, t, it => .ok (t,it.outstandings.toList)
  | fuel+1, t, it =>
    match it.valid, it.outstandings.rest with
    | true, p::_ => do
      let r ← body t p
      forEach pnSpace body fuel r.1 (it.next pnSpace r.2)
    | _, _ => .ok (t,it.outstandings.toList)

def eraseRun (pnSpace : PacketNumberSpace) (ackBlock : AckBlock) :
    ℕ → List OutstandingPacket → Except Failure (ℕ × List OutstandingPacket)
  | count, [] => .ok (count,[])
  | count, p::rest =>
    if ackBlock.startPacket≤p.packetNum ∧ p.inSpace pnSpace then do
      check p.metadata.scheduledForDestruction
      check (0 < count)
      eraseRun pnSpace ackBlock (count-1) rest
    else .ok (count,p::rest)

def eraseInAckBlock (pnSpace : PacketNumberSpace) (ackBlock : AckBlock) :
    ℕ → ℕ → ReverseCursor OutstandingPacket → Except Failure (ℕ × ReverseCursor OutstandingPacket)
  | 0, count, outstandings => .ok (count,outstandings)
  | fuel+1, count, outstandings =>
    let moved := moveToNextValidInAckBlock pnSpace ackBlock outstandings
    if moved.2 then do
      let r ← eraseRun pnSpace ackBlock count moved.1.rest
      eraseInAckBlock pnSpace ackBlock fuel r.1 ⟨moved.1.passed,r.2⟩
    else .ok (count,moved.1)

def eraseInAckBlocks (pnSpace : PacketNumberSpace) :
    List AckBlock → ℕ → ReverseCursor OutstandingPacket → Except Failure (ℕ × ReverseCursor OutstandingPacket)
  | [], count, outstandings => .ok (count,outstandings)
  | ackBlock::ackBlocks, count, outstandings => do
    let r ← eraseInAckBlock pnSpace ackBlock (outstandings.rest.length+1) count outstandings
    eraseInAckBlocks pnSpace ackBlocks r.1 r.2

/-- `count` is `scheduledForDestructionCount`. -/
def eraseAckedOutstandings (pnSpace : PacketNumberSpace) (ackBlocks : List AckBlock) (count : ℕ)
    (packets : List OutstandingPacket) : Except Failure (ℕ × List OutstandingPacket) := do
  let it := construct pnSpace ackBlocks packets
  let r ← eraseInAckBlocks pnSpace it.ackBlocks count it.outstandings
  return (r.1,r.2.toList)

def forEachAcked {τ : Type} (pnSpace : PacketNumberSpace) (ackBlocks : List AckBlock)
    (body : τ → OutstandingPacket → Except Failure (τ × OutstandingPacket)) (t : τ)
    (packets : List OutstandingPacket) : Except Failure (τ × List OutstandingPacket) :=
  forEach pnSpace body (packets.length+1) t (construct pnSpace ackBlocks packets)

end AckedPacketIterator

/-- A packet number is acknowledged by the first block that it has not been moved below. -/
def coveredBy : List AckBlock → ℕ → Bool
  | [], _ => false
  | b::bs, n =>
    if n≤b.endPacket ∧ n<b.startPacket then coveredBy bs n
    else b.startPacket ≤ n ∧ n≤b.endPacket

def OutstandingPacket.ackedBy (pnSpace : PacketNumberSpace) (ackBlocks : List AckBlock)
    (p : OutstandingPacket) : Bool := p.inSpace pnSpace && coveredBy ackBlocks p.packetNum

variable {bs : List AckBlock}

/-- Blocks from the largest packets down, none touching another: coverage is membership. -/
lemma coveredBy_eq_any (hvalid : ∀ b ∈ bs,b.startPacket ≤ b.endPacket)
    (hdesc : bs.Pairwise fun b c => c.endPacket < b.startPacket) (n : ℕ) :
    coveredBy bs n = bs.any fun b => b.startPacket ≤ n ∧ n≤b.endPacket := by
  induction bs with
  | nil => rfl
  | cons b bs ih =>
    obtain ⟨hbelow,hrest⟩ := pairwise_cons.mp hdesc
    rw [coveredBy,any_cons]
    split_ifs with h
    · have hnot : ¬(b.startPacket≤n ∧ n≤b.endPacket) := by omega
      rw [ih (fun c hc => hvalid c (by simp [hc])) hrest,decide_eq_false hnot,Bool.false_or]
    · have hb := hvalid b (by simp)
      by_cases hin : b.startPacket≤n ∧ n≤b.endPacket
      · simp [hin]
      · -- the number is above this block, hence above all later ones
        have habove : b.endPacket<n := by omega
        rw [decide_eq_false hin,Bool.false_or,eq_comm,any_eq_false]
        intro c hc
        have hlt := hbelow c hc
        simp only [decide_eq_true_eq]
        omega

def SortedByPacketNum (packets : List OutstandingPacket) : Prop :=
  packets.Pairwise fun p q => p.packetNum ≤ q.packetNum

def Descending (packets : List OutstandingPacket) : Prop := packets.Pairwise fun p q => q.packetNum ≤ p.packetNum

namespace Descending
variable {l l' packets : List OutstandingPacket} {p q : OutstandingPacket}

lemma right (h : Descending packets) (heq : packets = l++l') : Descending l' := by
  subst heq
  exact (pairwise_append.mp h).2.1

lemma le_head (h : Descending (p::l)) (hq : q ∈ p::l) : q.packetNum≤p.packetNum := by
  rcases mem_cons.mp hq with rfl | hq
  · exact le_rfl
  · exact (pairwise_cons.mp h).1 q hq

end Descending

namespace AckedPacketIterator
open OutstandingPacket

variable {pnSpace : PacketNumberSpace}

lemma not_ackedBy_of_other {p : OutstandingPacket} (h : (!p.inSpace pnSpace) = true) (bs : List AckBlock) :
    p.ackedBy pnSpace bs = false := by
  simp_all [ackedBy]

variable (pnSpace) in
/-- What one block does: it skips packets that no ack starting with this block covers, and
stands at a packet of the space that is not above the block, if there is any. -/
lemma moveToNextValidInAckBlock_spec (b : AckBlock) (c : ReverseCursor OutstandingPacket)
    (hs : Descending c.rest) :
    ∃ skipped,c.rest = skipped++(moveToNextValidInAckBlock pnSpace b c).1.rest ∧
      (moveToNextValidInAckBlock pnSpace b c).1.passed = skipped.reverse++c.passed ∧
      (∀ p ∈ skipped,∀ bs,p.ackedBy pnSpace (b::bs) = false) ∧
      ((moveToNextValidInAckBlock pnSpace b c).1.rest = [] →
        (moveToNextValidInAckBlock pnSpace b c).2 = false) ∧
      ∀ p rest,(moveToNextValidInAckBlock pnSpace b c).1.rest = p::rest →
        p.inSpace pnSpace = true ∧ p.packetNum≤b.endPacket ∧
        (moveToNextValidInAckBlock pnSpace b c).2 = decide (b.startPacket≤p.packetNum) := by
  obtain ⟨above,habove,hpabove,habove_end⟩ :=
    c.skipWhile_spec fun p => decide (b.endPacket<p.packetNum)
  obtain ⟨other,hother,hpother,hother_space⟩ :=
    (c.skipWhile fun p => decide (b.endPacket<p.packetNum)).skipWhile_spec
      fun p => !p.inSpace pnSpace
  refine ⟨above++other,?_,?_,?_,?_,?_⟩
  · simp only [moveToNextValidInAckBlock]
    rw [habove,hother,append_assoc]
  · simp only [moveToNextValidInAckBlock]
    rw [hpother,hpabove,reverse_append,append_assoc]
  · intro p hp bs
    rcases mem_append.mp hp with hp | hp
    · have hend : b.endPacket<p.packetNum := by simpa using habove_end p hp
      have hin : ¬(p.packetNum≤b.endPacket ∧ p.packetNum<b.startPacket) := by omega
      have hout : ¬(b.startPacket≤p.packetNum ∧ p.packetNum≤b.endPacket) := by omega
      simp [ackedBy,coveredBy,hin,hout]
    · exact not_ackedBy_of_other (hother_space p hp) _
  · intro hm
    simp only [moveToNextValidInAckBlock] at hm ⊢
    rw [hm]
  · intro p rest hm
    simp only [moveToNextValidInAckBlock] at hm ⊢
    refine ⟨?_,?_,?_⟩
    · simpa using ReverseCursor.skipWhile_head _ _ hm
    · -- the first packet that is not above the block bounds all that follow it
      cases hfirst : (c.skipWhile fun p => decide (b.endPacket<p.packetNum)).rest with
      | nil => rw [hfirst,hm] at hother; simp at hother
      | cons q qs =>
        have hq : q.packetNum≤b.endPacket := by
          simpa using ReverseCursor.skipWhile_head _ _ hfirst
        have hmem : p ∈ q::qs := by rw [← hfirst,hother,hm]; simp
        rw [hfirst] at habove
        exact ((hs.right habove).le_head hmem).trans hq
    · rw [hm]

variable (pnSpace) in
/-- Everything `moveToNextValid` does: it skips packets that are not acknowledged and stops
at one that is, with blocks that judge the rest as before; or there is none left. -/
lemma moveToNextValid_spec (bs : List AckBlock) (c : ReverseCursor OutstandingPacket)
    (hs : Descending c.rest) :
    ∃ skipped it,moveToNextValid pnSpace bs c = it ∧ c.rest = skipped++it.outstandings.rest ∧
      it.outstandings.passed = skipped.reverse++c.passed ∧ (∀ p ∈ skipped,p.ackedBy pnSpace bs = false) ∧
      (∀ q ∈ it.outstandings.rest,q.ackedBy pnSpace it.ackBlocks = q.ackedBy pnSpace bs) ∧
      ((it.valid=true ∧ ∃ p rest,it.outstandings.rest = p::rest ∧ p.ackedBy pnSpace bs = true) ∨
        (it.valid=false ∧ ∀ q ∈ it.outstandings.rest,q.ackedBy pnSpace bs = false)) := by
  induction bs generalizing c with
  | nil =>
    exact ⟨[],_,rfl,rfl,rfl,by simp,fun _ _ => rfl,.inr ⟨rfl,by simp [ackedBy,coveredBy]⟩⟩
  | cons b bs ih =>
    obtain ⟨skipped,hrest,hpassed,hskipped,-,hhead⟩ :=
      moveToNextValidInAckBlock_spec pnSpace b c hs
    rw [moveToNextValid]
    generalize moveToNextValidInAckBlock pnSpace b c = moved at hrest hpassed hhead
    cases hm : moved.1.rest with
    | nil =>
      refine ⟨skipped,_,rfl,?_⟩
      simp only [hm,isEmpty_nil,if_true]
      exact ⟨hm ▸ hrest,hpassed,fun p hp => hskipped p hp bs,by simp,by simp⟩
    | cons p rest =>
      obtain ⟨hspace,hle,hflag⟩ := hhead p rest hm
      have hsorted := hs.right hrest
      simp only [isEmpty_cons,hflag,Bool.false_eq_true,if_false,decide_eq_true_eq]
      split_ifs with hstart
      · refine ⟨skipped,_,rfl,hrest,hpassed,fun p hp => hskipped p hp bs,fun q _ => rfl,
          .inl ⟨rfl,p,rest,hm,?_⟩⟩
        simp [ackedBy,coveredBy,hspace,hstart,hle]
      · have hpass : ∀ q ∈ moved.1.rest,q.ackedBy pnSpace (b::bs) = q.ackedBy pnSpace bs := by
          intro q hq
          have hqp := (hm ▸ hsorted).le_head (hm ▸ hq)
          have hin : q.packetNum≤b.endPacket ∧ q.packetNum<b.startPacket := by omega
          simp [ackedBy,coveredBy,hin]
        obtain ⟨more,it,hit,hr,hp,hno,hsame,hend⟩ := ih moved.1 hsorted
        have hsuffix : ∀ q ∈ it.outstandings.rest,q ∈ moved.1.rest := by
          intro q hq
          rw [hr]
          exact mem_append_right _ hq
        refine ⟨skipped++more,it,hit,?_,?_,?_,?_,?_⟩
        · rw [hrest,hr,append_assoc]
        · rw [hp,hpassed,reverse_append,append_assoc]
        · intro q hq
          rcases mem_append.mp hq with hq | hq
          · exact hskipped q hq bs
          · rw [hpass q (by rw [hr]; exact mem_append_left _ hq)]
            exact hno q hq
        · intro q hq
          rw [hsame q hq,hpass q (hsuffix q hq)]
        · rcases hend with ⟨hv,q,qs,hqs,hacked⟩ | ⟨hv,hnone⟩
          · refine .inl ⟨hv,q,qs,hqs,?_⟩
            rw [hpass q (hsuffix q (by simp [hqs])),hacked]
          · refine .inr ⟨hv,fun q hq => ?_⟩
            rw [hpass q (hsuffix q hq),hnone q hq]

def visit {τ : Type} (pnSpace : PacketNumberSpace) (bs : List AckBlock)
    (body : τ → OutstandingPacket → Except Failure (τ × List OutstandingPacket)) (t : τ)
    (p : OutstandingPacket) : Except Failure (τ × List OutstandingPacket) :=
  if p.ackedBy pnSpace bs then body t p else .ok (t,[p])

def inPlace {τ : Type} (body : τ → OutstandingPacket → Except Failure (τ × OutstandingPacket))
    (t : τ) (p : OutstandingPacket) : Except Failure (τ × List OutstandingPacket) :=
  (fun r => (r.1,[r.2])) <$> body t p

section Visits
variable {τ : Type} {body : τ → OutstandingPacket → Except Failure (τ × OutstandingPacket)}

lemma visit_of_not_acked {body : τ → OutstandingPacket → Except Failure (τ × List OutstandingPacket)}
    {p : OutstandingPacket} (h : p.ackedBy pnSpace bs = false) (t : τ) :
    visit pnSpace bs body t p = .ok (t,[p]) := by
  simp [visit,h]

lemma forEach_invalid (fuel : ℕ) (t : τ) {it : AckedPacketIterator} (h : it.valid=false) :
    forEach pnSpace body fuel t it = .ok (t,it.outstandings.toList) := by
  cases fuel with
  | zero => rfl
  | succ fuel => simp [forEach,h]

lemma forEach_eq_sweep (fuel : ℕ) (t : τ) (bs : List AckBlock) (c : ReverseCursor OutstandingPacket)
    (hs : Descending c.rest) (hfuel : c.rest.length<fuel) :
    forEach pnSpace body fuel t (moveToNextValid pnSpace bs c) = (fun r => (r.1,r.2.reverse++c.passed)) <$>
        sweep (visit pnSpace bs (inPlace body)) t c.rest := by
  induction fuel generalizing t bs c with
  | zero => omega
  | succ fuel ih =>
    obtain ⟨skipped,it,hit,hrest,hpassed,hskipped,hsame,hend⟩ :=
      moveToNextValid_spec pnSpace bs c hs
    rw [hit,hrest,sweep_untouched_append _ fun p hp t => visit_of_not_acked (hskipped p hp) t]
    rcases hend with ⟨hv,p,rest,hp,hacked⟩ | ⟨hv,hnone⟩
    · have hsorted : Descending rest := (hs.right hrest).right (l := [p]) hp
      have hvisit : visit pnSpace bs (inPlace body) t p = (fun r => (r.1,[r.2])) <$> body t p := by
        simp [visit,hacked,inPlace]
      simp only [forEach,hv,hp,sweep,hvisit]
      cases hbody : body t p with
      | error e => rfl
      | ok r =>
        have hlen : rest.length<fuel := by
          rw [hrest,hp] at hfuel
          simp only [length_append,length_cons] at hfuel
          omega
        have hnext : forEach pnSpace body fuel r.1 (it.next pnSpace r.2) =
            (fun q => (q.1,q.2.reverse++r.2::it.outstandings.passed)) <$>
              sweep (visit pnSpace bs (inPlace body)) r.1 rest := by
          simp only [next,hp,tail_cons]
          cases hr : rest with
          | nil => simp [forEach_invalid,ReverseCursor.toList,sweep]
          | cons q qs =>
            rw [isEmpty_cons,if_neg Bool.false_ne_true,← hr]
            refine (ih r.1 it.ackBlocks ⟨_,rest⟩ hsorted hlen).trans (congrArg _ ?_)
            refine sweep_congr fun x hx s => ?_
            simp only [visit,hsame x (hp ▸ mem_cons_of_mem _ hx)]
        change forEach pnSpace body fuel r.1 (it.next pnSpace r.2) = _
        rw [hnext,hpassed]
        cases hsw : sweep (visit pnSpace bs (inPlace body)) r.1 rest with
        | error e => simp [hsw,bind,Except.bind]
        | ok q => simp [hsw,bind,Except.bind,pure,Except.pure]
    · rw [forEach_invalid _ _ hv,sweep_of_untouched fun p hp t => visit_of_not_acked (hnone p hp) t]
      simp [ReverseCursor.toList,hpassed]

theorem forEachAcked_eq_sweep {packets : List OutstandingPacket} (t : τ) (hs : SortedByPacketNum packets) :
    forEachAcked pnSpace bs body t packets = (fun r => (r.1,r.2.reverse)) <$>
        sweep (visit pnSpace bs (inPlace body)) t packets.reverse := by
  have hrev : Descending packets.reverse := pairwise_reverse.mpr hs
  obtain ⟨skipped,hrest,hpassed,hother⟩ :=
    (ReverseCursor.rbegin packets).skipWhile_spec fun p => !p.inSpace pnSpace
  have hnot : ∀ p ∈ skipped,∀ t,visit pnSpace bs (inPlace body) t p = .ok (t,[p]) := by
    intro p hp t
    exact visit_of_not_acked (not_ackedBy_of_other (hother p hp) _) t
  have hlen : packets.length =
      (skipped++((ReverseCursor.rbegin packets).skipWhile fun p => !p.inSpace pnSpace).rest).length := by
    rw [← hrest]
    simp [ReverseCursor.rbegin]
  rw [show packets.reverse = (ReverseCursor.rbegin packets).rest from rfl,hrest]
  rw [forEachAcked,construct,forEach_eq_sweep _ _ _ _ (hrev.right hrest),
    sweep_untouched_append _ hnot,hpassed]
  · cases hsw : sweep (visit pnSpace bs (inPlace body)) t
      ((ReverseCursor.rbegin packets).skipWhile fun p => !p.inSpace pnSpace).rest with
    | error e => simp
    | ok r => simp [ReverseCursor.rbegin]
  · rw [hlen,length_append]
    omega

end Visits

/-- Erasing one packet: it must be scheduled, and counted as such. -/
def eraseScheduled (count : ℕ) (p : OutstandingPacket) : Except Failure (ℕ × List OutstandingPacket) := do
  check p.metadata.scheduledForDestruction
  check (0 < count)
  return (count-1,[])

lemma eraseScheduled_out {count : ℕ} {p : OutstandingPacket} {r : ℕ × List OutstandingPacket}
    (h : eraseScheduled count p = .ok r) : r = (count-1,[]) := by
  unfold eraseScheduled at h
  cases hs : p.metadata.scheduledForDestruction with
  | false => rw [hs] at h; cases h
  | true =>
    by_cases hc : 0 < count
    · rw [hs,decide_eq_true hc] at h
      exact (Except.ok.inj h).symm
    · rw [hs,decide_eq_false hc] at h
      cases h

variable (pnSpace) in
lemma eraseRun_eq_sweep (b : AckBlock) (l : List OutstandingPacket)
    (hle : ∀ q ∈ l,q.packetNum ≤ b.endPacket) :
    ∃ erased rest,l = erased++rest ∧ (∀ q ∈ erased,q.ackedBy pnSpace [b] = true) ∧
      (∀ q,l.head? = some q → q.ackedBy pnSpace [b] = true → erased≠[]) ∧ ∀ count,eraseRun pnSpace b count l =
          (fun r => (r.1,rest)) <$> sweep (visit pnSpace [b] eraseScheduled) count erased ∧
        ∀ r,sweep (visit pnSpace [b] eraseScheduled) count erased = .ok r → r.2=[] := by
  induction l with
  | nil => exact ⟨[],[],rfl,by simp,by simp,fun count => ⟨rfl,by rintro r ⟨⟩; rfl⟩⟩
  | cons p l ih =>
    have hend := hle p (by simp)
    have hacked : p.ackedBy pnSpace [b] = true ↔ b.startPacket≤p.packetNum ∧ p.inSpace pnSpace := by
      by_cases hstart : b.startPacket≤p.packetNum
      · simp [ackedBy,coveredBy,hstart,hend]
      · simp [ackedBy,coveredBy,hstart,hend]
    by_cases hp : p.ackedBy pnSpace [b] = true
    · obtain ⟨erased,rest,hl,hall,-,hrun⟩ := ih fun q hq => hle q (by simp [hq])
      have hvisit : ∀ count,visit pnSpace [b] eraseScheduled count p = eraseScheduled count p := by
        simp [visit,hp]
      refine ⟨p::erased,rest,by rw [hl]; rfl,by simpa [hp] using hall,by simp,?_⟩
      intro count
      obtain ⟨hone,hout⟩ := hrun (count-1)
      constructor
      · rw [eraseRun,if_pos (hacked.mp hp),hone,sweep,hvisit,eraseScheduled]
        cases p.metadata.scheduledForDestruction with
        | false => rfl
        | true =>
          by_cases hc : 0 < count
          · rw [decide_eq_true hc]
            simp only [check_true,bind,Except.bind,pure,Except.pure]
            cases sweep (visit pnSpace [b] eraseScheduled) (count-1) erased <;> rfl
          · rw [decide_eq_false hc]
            rfl
      · intro r hr
        rw [sweep,hvisit] at hr
        cases he : eraseScheduled count p with
        | error e => rw [he] at hr; cases hr
        | ok q =>
          rw [he,eraseScheduled_out he] at hr
          simp only [bind,Except.bind] at hr
          split at hr
          · cases hr
          · rename_i r' hr'
            obtain rfl := Except.ok.inj hr
            simpa using hout r' hr'
    · refine ⟨[],p::l,rfl,by simp,?_,fun count => ⟨?_,by rintro r ⟨⟩; rfl⟩⟩
      · intro q hq hacked'
        rw [head?_cons,Option.some.injEq] at hq
        exact absurd (hq ▸ hacked') hp
      · rw [eraseRun,if_neg (fun h => hp (hacked.mpr h))]
        rfl

variable (pnSpace) in
lemma eraseInAckBlock_eq_sweep (b : AckBlock) (fuel : ℕ) (c : ReverseCursor OutstandingPacket)
    (hs : Descending c.rest) (hfuel : c.rest.length<fuel) :
    ∃ swept rest,c.rest = swept++rest ∧ (∀ q ∈ swept,∀ bs,q.ackedBy pnSpace (b::bs) = q.ackedBy pnSpace [b]) ∧
      (∀ q ∈ rest,∀ bs,q.ackedBy pnSpace (b::bs) = q.ackedBy pnSpace bs) ∧
      ∀ count,eraseInAckBlock pnSpace b fuel count c = (fun r => (r.1,⟨r.2.reverse++c.passed,rest⟩)) <$>
          sweep (visit pnSpace [b] eraseScheduled) count swept := by
  induction fuel generalizing c with
  | zero => omega
  | succ fuel ih =>
    obtain ⟨skipped,hrest,hpassed,hskipped,hempty,hhead⟩ :=
      moveToNextValidInAckBlock_spec pnSpace b c hs
    simp only [eraseInAckBlock]
    generalize moveToNextValidInAckBlock pnSpace b c = moved at hrest hpassed hempty hhead
    have hsorted := hs.right hrest
    have hsame : ∀ q ∈ skipped,∀ bs,q.ackedBy pnSpace (b::bs) = q.ackedBy pnSpace [b] := by
      intro q hq bs
      rw [hskipped q hq,hskipped q hq]
    have huntouched : ∀ q ∈ skipped,∀ n,visit pnSpace [b] eraseScheduled n q = .ok (n,[q]) :=
      fun q hq n => visit_of_not_acked (hskipped q hq []) n
    cases hflag : moved.2 with
    | false =>
      refine ⟨skipped,moved.1.rest,hrest,hsame,?_,fun count => ?_⟩
      · intro q hq bs
        cases hm : moved.1.rest with
        | nil => simp [hm] at hq
        | cons p l =>
          obtain ⟨-,hend,hstart⟩ := hhead p l hm
          have hqp := (hm ▸ hsorted).le_head (hm ▸ hq)
          have hlow := of_decide_eq_false (hstart.symm.trans hflag)
          have hin : q.packetNum≤b.endPacket ∧ q.packetNum<b.startPacket := by omega
          simp [ackedBy,coveredBy,hin]
      · rw [sweep_of_untouched huntouched]
        simp [← hpassed]
    | true =>
      obtain ⟨p,l,hm⟩ := exists_cons_of_ne_nil fun hm => by rw [hempty hm] at hflag; cases hflag
      obtain ⟨hspace,hend,hstart⟩ := hhead p l hm
      have hlow := of_decide_eq_true (hstart.symm.trans hflag)
      obtain ⟨erased,left,hsplit,hall,hsome,hrun⟩ :=
        eraseRun_eq_sweep pnSpace b moved.1.rest
          fun q hq => ((hm ▸ hsorted).le_head (hm ▸ hq)).trans hend
      have hne := hsome p (by rw [hm]; rfl) (by simp [ackedBy,coveredBy, *])
      have hlen : left.length<fuel := by
        have hpos := length_pos_iff.mpr hne
        rw [hrest,hsplit] at hfuel
        simp only [length_append] at hfuel
        omega
      have hacked : ∀ q ∈ erased,∀ bs,q.ackedBy pnSpace (b::bs) = q.ackedBy pnSpace [b] := by
        intro q hq bs
        have hone := hall q hq
        simp only [ackedBy,coveredBy] at hone ⊢
        split_ifs at hone ⊢ with hin
        · simp at hone
        · rfl
      obtain ⟨swept,rest,hr,hswept,hbelow,heq⟩ := ih ⟨moved.1.passed,left⟩ (hsorted.right hsplit) hlen
      simp only at hr
      refine ⟨skipped++(erased++swept),rest,?_,?_,hbelow,fun count => ?_⟩
      · rw [hrest,hsplit,hr]
        simp only [append_assoc]
      · intro q hq
        rcases mem_append.mp hq with hq | hq
        · exact hsame q hq
        rcases mem_append.mp hq with hq | hq
        · exact hacked q hq
        · exact hswept q hq
      · obtain ⟨hone,hout⟩ := hrun count
        rw [if_pos rfl,hone,sweep_untouched_append _ huntouched,sweep_append]
        cases hsw : sweep (visit pnSpace [b] eraseScheduled) count erased with
        | error e => rfl
        | ok r =>
          simp only [Except.map_ok,bind,Except.bind,heq,hout r hsw,nil_append]
          rw [hpassed]
          cases sweep (visit pnSpace [b] eraseScheduled) r.1 swept with
          | error e => rfl
          | ok q => simp

variable (pnSpace) in
lemma eraseInAckBlocks_eq_sweep (bs : List AckBlock) (count : ℕ) (c : ReverseCursor OutstandingPacket)
    (hs : Descending c.rest) :
    (fun r => (r.1,r.2.toList)) <$> eraseInAckBlocks pnSpace bs count c =
      (fun r => (r.1,r.2.reverse++c.passed)) <$>
        sweep (visit pnSpace bs eraseScheduled) count c.rest := by
  induction bs generalizing count c with
  | nil =>
    rw [sweep_of_untouched fun p _ t => visit_of_not_acked (by simp [ackedBy,coveredBy]) t]
    rfl
  | cons b bs ih =>
    obtain ⟨swept,rest,hrest,hswept,hbelow,heq⟩ :=
      eraseInAckBlock_eq_sweep pnSpace b (c.rest.length+1) c hs (by omega)
    have hfirst : sweep (visit pnSpace (b::bs) eraseScheduled) count swept =
        sweep (visit pnSpace [b] eraseScheduled) count swept :=
      sweep_congr fun q hq n => by simp only [visit,hswept q hq bs]
    rw [eraseInAckBlocks,heq,hrest,sweep_append,hfirst]
    cases sweep (visit pnSpace [b] eraseScheduled) count swept with
    | error e => rfl
    | ok r =>
      have hlater : sweep (visit pnSpace (b::bs) eraseScheduled) r.1 rest =
          sweep (visit pnSpace bs eraseScheduled) r.1 rest :=
        sweep_congr fun q hq n => by simp only [visit,hbelow q hq bs]
      simp only [Except.map_ok,bind,Except.bind,hlater]
      rw [ih r.1 ⟨r.2.reverse++c.passed,rest⟩ (hs.right hrest)]
      cases sweep (visit pnSpace bs eraseScheduled) r.1 rest with
      | error e => rfl
      | ok q => simp

theorem eraseAckedOutstandings_eq_sweep {packets : List OutstandingPacket} (count : ℕ)
    (hs : SortedByPacketNum packets) : eraseAckedOutstandings pnSpace bs count packets =
      (fun r => (r.1,r.2.reverse)) <$>
        sweep (visit pnSpace bs eraseScheduled) count packets.reverse := by
  have hrev : Descending packets.reverse := pairwise_reverse.mpr hs
  obtain ⟨other,hrest,hpassed,hother⟩ :=
    (ReverseCursor.rbegin packets).skipWhile_spec fun p => !p.inSpace pnSpace
  rw [show packets.reverse = (ReverseCursor.rbegin packets).rest from rfl,hrest]
  have hlater := hrev.right hrest
  obtain ⟨skipped,it,hit,hmoved,hpast,hskipped,hsame,-⟩ :=
    moveToNextValid_spec pnSpace bs _ hlater
  have hnot : ∀ p ∈ other++skipped,∀ n,visit pnSpace bs eraseScheduled n p = .ok (n,[p]) := by
    intro p hp n
    refine visit_of_not_acked ?_ n
    rcases mem_append.mp hp with hp | hp
    · exact not_ackedBy_of_other (hother p hp) _
    · exact hskipped p hp
  have hblocks := eraseInAckBlocks_eq_sweep pnSpace it.ackBlocks count it.outstandings (hlater.right hmoved)
  have hcongr : sweep (visit pnSpace it.ackBlocks eraseScheduled) count it.outstandings.rest =
      sweep (visit pnSpace bs eraseScheduled) count it.outstandings.rest :=
    sweep_congr fun q hq n => by simp only [visit,hsame q hq]
  rw [hmoved,← append_assoc,sweep_untouched_append _ hnot,eraseAckedOutstandings,construct,hit]
  rw [hcongr,hpast,hpassed] at hblocks
  refine hblocks.trans ?_
  cases sweep (visit pnSpace bs eraseScheduled) count it.outstandings.rest with
  | error e => rfl
  | ok r => simp [ReverseCursor.rbegin]

end AckedPacketIterator

end QuicWestwood
