import QuicWestwood.WestwoodWindow

/-! A loss starts a recovery period only if it contains a packet sent after the clock reading that ended the
last one. The readings are kept in a log, and what happens between two of them is stated event by event. -/
namespace QuicWestwood
open Controlled

/-- A loss that started a recovery period, and the reading stored in `endOfRecovery_`. -/
structure Reaction where
  reading : ℤ
  loss : LossEvent

/-- How a reaction relates to the one before it. -/
structure Reaction.Follows (a b : Reaction) : Prop where
  reading_le : a.reading≤b.reading
  sent_after : ∀ ps,b.loss.MadeOf ps → ∃ p ∈ ps,a.reading<p.metadata.time
  /-- If the lost packets were sent before they were found lost, time has passed. -/
  reading_lt : (∀ sent,b.loss.largestLostSentTime = some sent → sent≤b.reading) → a.reading<b.reading

variable {loss : LossEvent}

lemma WestwoodCore.isNewLoss_sent_after {w : WestwoodCore} (h : w.isNewLoss loss = .ok true) {t : ℤ}
    (ht : w.endOfRecovery = some t) : ∃ sent,loss.largestLostSentTime = some sent ∧ t < sent := by
  unfold isNewLoss at h
  rw [ht] at h
  cases hsent : loss.largestLostSentTime with
  | none => simp [hsent] at h
  | some sent => exact ⟨sent,rfl,by simpa [hsent] using h⟩

namespace Westwood
variable (clock : ℕ → ℤ) (fp : FloatUnit) (c : CwndSettings)

def reactionTo (s : Controlled Westwood) (loss : LossEvent) : List Reaction :=
  if s.cc.StartsRecovery s.inflightBytes loss then [⟨clock (settleLoss clock s loss).ticks,loss⟩]
  else []

def reacting : Controlled Westwood × List Reaction → CcEvent → Controlled Westwood × List Reaction :=
  Run.logged (next clock fp c)
    (noteEvent (onPacketLoss clock fp c) (reactionTo clock) fun _ _ => [])

/-- `endOfRecovery_` is the last reading, and it is not in the future. -/
structure InForce (s : Controlled Westwood) (log : List Reaction) : Prop where
  last : s.cc.endOfRecovery = log.getLast?.map Reaction.reading
  past : ∀ t,s.cc.endOfRecovery = some t → t ≤ clock s.ticks
  chain : log.IsChain Reaction.Follows

variable {clock fp c} {s : Controlled Westwood} {log : List Reaction}

lemma InForce.frame (hclock : Monotone clock) (h : InForce clock s log) {t : Controlled Westwood}
    (hend : t.cc.endOfRecovery=s.cc.endOfRecovery) (hticks : s.ticks≤t.ticks) :
    InForce clock t log :=
  ⟨hend.trans h.last,fun u hu => (h.past u (hend ▸ hu)).trans (hclock hticks),h.chain⟩

lemma InForce.react (fp : FloatUnit) (c : CwndSettings) (hclock : Monotone clock) (h : InForce clock s log)
    (hnew : s.cc.isNewLoss loss = .ok true) : InForce clock (startRecovery clock fp c (settleLoss clock s loss))
      (log++[⟨clock (settleLoss clock s loss).ticks,loss⟩]) := by
  refine ⟨by simp [startRecovery,WestwoodCore.reduceTo],?_,?_⟩
  · rintro t ⟨⟩
    exact hclock (Nat.le_succ _)
  · refine List.isChain_append.mpr ⟨h.chain,by simp,?_⟩
    rintro a ha b ⟨⟩
    have hend : s.cc.endOfRecovery = some a.reading := by rw [h.last,ha]; rfl
    have hle := (h.past _ hend).trans (hclock (le_settleLoss_ticks clock s loss))
    obtain ⟨sent,hsent,hlt⟩ := WestwoodCore.isNewLoss_sent_after hnew hend
    refine ⟨hle,fun ps hps => ?_,fun hpast => hlt.trans_le (hpast sent hsent)⟩
    obtain ⟨p,hp,rfl⟩ := hps.exists_sent hsent
    exact ⟨p,hp,hlt⟩

@[simp] lemma ifPersistent_endOfRecovery (loss : LossEvent) (s : Controlled Westwood) :
    (ifPersistent c loss s).cc.endOfRecovery = s.cc.endOfRecovery := by
  unfold ifPersistent
  split_ifs <;> rfl

@[simp] lemma ifPersistent_ticks (loss : LossEvent) (s : Controlled Westwood) :
    (ifPersistent c loss s).ticks = s.ticks := by
  unfold ifPersistent
  split_ifs <;> rfl

lemma onPacketLoss_frame (h : ¬s.cc.StartsRecovery s.inflightBytes loss) :
    (onPacketLoss clock fp c s loss).state.cc.endOfRecovery = s.cc.endOfRecovery ∧
      s.ticks ≤ (onPacketLoss clock fp c s loss).state.ticks := by
  have hticks := le_settleLoss_ticks clock s loss
  rcases onPacketLoss_of_not_startsRecovery clock fp c h with hl | hl | hl <;> simp [hl,hticks]

lemma InForce.onPacketLoss (hclock : Monotone clock) (h : InForce clock s log) (loss : LossEvent) :
    InForce clock (onPacketLoss clock fp c s loss).state (log++reactionTo clock s loss) := by
  by_cases hstart : s.cc.StartsRecovery s.inflightBytes loss
  · rw [onPacketLoss_of_startsRecovery clock fp c hstart,reactionTo,if_pos hstart]
    exact (h.react fp c hclock hstart.2).frame hclock (by simp) (by simp)
  · rw [reactionTo,if_neg hstart,List.append_nil]
    exact h.frame hclock (onPacketLoss_frame hstart).1 (onPacketLoss_frame hstart).2

variable (clock fp c s) in
lemma onAckEvent_frame (ack : AckEvent) :
    (onAckEvent clock fp c s ack).state.cc.endOfRecovery = s.cc.endOfRecovery ∧
      s.ticks ≤ (onAckEvent clock fp c s ack).state.ticks := by
  refine ackEventWith_logged_invariant noteRtt (onPacketAcked clock fp c) (clampCwnd c)
    (l := []) (P := fun t _ => t.cc.endOfRecovery = s.cc.endOfRecovery ∧ s.ticks≤t.ticks)
    (fun _ _ _ h => h) (fun t p _ h => ?_) (fun _ _ h => h) ?_
  · exact ⟨by simpa using h.1,h.2.trans (le_onPacketAcked_ticks clock fp c t p)⟩
  · unfold noteRtt
    split <;> exact ⟨rfl,le_rfl⟩

lemma InForce.step (hclock : Monotone clock) {x : Controlled Westwood × List Reaction}
    (h : InForce clock x.1 x.2) (e : CcEvent) :
    InForce clock (reacting clock fp c x e).1 (reacting clock fp c x e).2 := by
  refine handle_logged_invariant _ _ (P := InForce clock) ?_ ?_ ?_ h
  · exact fun _ h => h.frame hclock rfl le_rfl
  · exact fun loss _ h => h.onPacketLoss hclock loss
  · intro t ack l _ h
    obtain ⟨hend,hticks⟩ := onAckEvent_frame clock fp c t ack
    simpa using h.frame hclock hend hticks

lemma inForce_construct (inflight : ℕ) : InForce clock (construct clock c inflight) [] :=
  ⟨rfl,by rintro t ⟨⟩,by simp⟩

structure Quiet (clock : ℕ → ℤ) (fp : FloatUnit) (c : CwndSettings)
    (x : Controlled Westwood × List Reaction) (e : CcEvent) : Prop where
  /-- `endOfRecovery_` holds the reading of the latest reaction and never decreases. -/
  last : x.1.cc.endOfRecovery = x.2.getLast?.map Reaction.reading
  mono : ∀ t,x.1.cc.endOfRecovery = some t → ∃ t',(next clock fp c x.1 e).cc.endOfRecovery = some t' ∧ t≤t'
  /-- A loss that is not a reaction moves nothing unless it is persistent congestion. -/
  loss : ∀ loss,lossOf e = some loss → ¬x.1.cc.StartsRecovery x.1.inflightBytes loss →
    loss.persistentCongestion = false →
    (onPacketLoss clock fp c x.1 loss).state.cc.toWestwoodCore = x.1.cc.toWestwoodCore
  /-- An acked packet sent before the reading in force moves nothing. -/
  acked : ∀ s ack,ackEntry (onPacketLoss clock fp c) x.1 e = some (s,ack) →
    ∀ call ∈ ackEntriesWith noteRtt (onPacketAcked clock fp c) s ack,
      ∀ t,call.1.cc.endOfRecovery = some t → call.2.time<t →
        onPacketAcked clock fp c call.1 call.2 = .done call.1
  /-- Nor does the clamp at the end of the ack event. -/
  ackEvent : ∀ s ack,ackEntry (onPacketLoss clock fp c) x.1 e = some (s,ack) →
    ∀ t,s.cc.endOfRecovery = some t → (∀ p ∈ ack.ackedPackets,p.time < t) →
      let w := (onAckEvent clock fp c s ack).state.cc
      w.cwndBytes = s.cc.cwndBytes ∧ w.ssthresh=s.cc.ssthresh ∧ w.bandwidthEstimate = s.cc.bandwidthEstimate ∧
        w.bytesAckedInCurrentInterval = s.cc.bytesAckedInCurrentInterval

lemma onPacketLoss_core (h : ¬s.cc.StartsRecovery s.inflightBytes loss)
    (hp : loss.persistentCongestion=false) :
    (onPacketLoss clock fp c s loss).state.cc.toWestwoodCore = s.cc.toWestwoodCore := by
  have hid : ∀ t,ifPersistent c loss t = t := fun t => by simp [ifPersistent,hp]
  rcases onPacketLoss_of_not_startsRecovery clock fp c h with hl | hl | hl <;> simp [hl,hid]

lemma next_endOfRecovery_mono (hclock : Monotone clock) (h : InForce clock s log) {t : ℤ}
    (ht : s.cc.endOfRecovery = some t) (e : CcEvent) :
    ∃ t',(next clock fp c s e).cc.endOfRecovery = some t' ∧ t≤t' := by
  refine handle_invariant
    (P := fun u : Controlled Westwood => ∃ t',u.cc.endOfRecovery = some t' ∧ t≤t')
    (fun _ h => h) ?_ ?_ ⟨t,ht,le_rfl⟩ e
  · intro loss hs
    by_cases hstart : s.cc.StartsRecovery s.inflightBytes loss
    · rw [onPacketLoss_of_startsRecovery clock fp c hstart]
      refine ⟨clock (settleLoss clock s loss).ticks,by simp [startRecovery,WestwoodCore.reduceTo],?_⟩
      exact (h.past t ht).trans (hclock (le_settleLoss_ticks clock s loss))
    · rwa [(onPacketLoss_frame hstart).1]
  · intro u ack hu
    rwa [(onAckEvent_frame clock fp c u ack).1]

variable (clock fp) in
lemma onAckEvent_of_old (hclamp : s.cc.cwndBytes = c.bounded s.cc.cwndBytes) {ack : AckEvent} {t : ℤ}
    (ht : s.cc.endOfRecovery = some t) (hold : ∀ p ∈ ack.ackedPackets,p.time < t) :
    (onAckEvent clock fp c s ack).state.cc.toWestwoodCore = (noteRtt s ack).cc.toWestwoodCore := by
  have hrtt : (noteRtt s ack).cc.endOfRecovery = some t := by
    unfold noteRtt
    split <;> exact ht
  have hdone : ∀ n,Outcome.each (onPacketAcked clock fp c)
      {noteRtt s ack with inflightBytes := n} ack.ackedPackets =
      .done {noteRtt s ack with inflightBytes := n} := fun n =>
    Outcome.each_eq_done fun p hp => onPacketAcked_of_inRecovery clock fp c (by
      simp only [WestwoodCore.inRecovery,hrtt,decide_eq_true_eq]
      exact hold p hp)
  unfold onAckEvent ackEventWith
  split
  · rfl
  · rw [hdone,Outcome.done_andThen,Outcome.done_state]
    simp only [clampCwnd,WestwoodCore.clampCwnd,noteRtt_cwndBytes,← hclamp]
    rw [← noteRtt_cwndBytes s ack]

lemma quiet_of_inForce (hclock : Monotone clock) {x : Controlled Westwood × List Reaction}
    (h : InForce clock x.1 x.2) (hclamp : x.1.cc.cwndBytes = c.bounded x.1.cc.cwndBytes)
    (e : CcEvent) : Quiet clock fp c x e where
  last := h.last
  mono _ ht := next_endOfRecovery_mono hclock h ht e
  loss _ _ hstart hp := onPacketLoss_core hstart hp
  acked s ack _ call _ t ht hlt := onPacketAcked_of_inRecovery clock fp c (by
    simpa [WestwoodCore.inRecovery,ht] using hlt)
  ackEvent s ack hentry t ht hold := by
    have hbound : c.Established fun n => n = c.bounded n := fun n => (c.bounded_idem n).symm
    have hs := ackEntry_invariant (P := fun u => u.cc.cwndBytes = c.bounded u.cc.cwndBytes)
        (fun loss => onPacketLoss_cwndBytes hbound hclamp loss) hclamp hentry
    have hcore := onAckEvent_of_old clock fp hs ht hold
    intro w
    simp only [w,hcore]
    unfold noteRtt
    split <;> exact ⟨rfl,rfl,rfl,rfl⟩

/-- In every run with a clock that does not run backwards, each reaction answers a packet
sent after the reading of the one before it, and between them every event is quiet. -/
theorem one_reaction_per_flight (clock : ℕ → ℤ) (hclock : Monotone clock) (fp : FloatUnit)
    (c : CwndSettings) (inflight : ℕ) (es : List CcEvent) :
    (Run.run (reacting clock fp c) (construct clock c inflight,[]) es).2.IsChain
      Reaction.Follows ∧
    Run.EveryStep (reacting clock fp c) (Quiet clock fp c) (construct clock c inflight,[]) es := by
  have hbound : c.Established fun n => n = c.bounded n := fun n => (c.bounded_idem n).symm
  have hinit : InForce clock (construct clock c inflight) [] ∧ (construct clock c inflight).cc.cwndBytes =
        c.bounded (construct clock c inflight).cc.cwndBytes := ⟨inForce_construct inflight,hbound _⟩
  have hstep : ∀ x : Controlled Westwood × List Reaction,
      InForce clock x.1 x.2 ∧ x.1.cc.cwndBytes = c.bounded x.1.cc.cwndBytes → ∀ e ∈ es,
      InForce clock (reacting clock fp c x e).1 (reacting clock fp c x e).2 ∧
        (reacting clock fp c x e).1.cc.cwndBytes = c.bounded (reacting clock fp c x e).1.cc.cwndBytes :=
    fun x h e _ => ⟨h.1.step hclock e,next_cwndBytes hbound h.2 e⟩
  refine ⟨?_,?_⟩
  · exact (Run.run_invariant (P := fun x : Controlled Westwood × List Reaction =>
      InForce clock x.1 x.2 ∧ x.1.cc.cwndBytes = c.bounded x.1.cc.cwndBytes) hinit hstep).1.chain
  · exact Run.everyStep_of_invariant (P := fun x : Controlled Westwood × List Reaction =>
      InForce clock x.1 x.2 ∧ x.1.cc.cwndBytes = c.bounded x.1.cc.cwndBytes) hinit hstep
      fun x h e _ => quiet_of_inForce hclock h.1 h.2 e

theorem one_reaction_per_flight_two_losses :
    let es : List CcEvent := [.lossOfOne 5 0,.ackOfOne 7 100,.lossOfOne 9 8]
    let x := Run.run (reacting (fun k => k) ⟨0,0,0,0⟩ {}) (construct (fun k => k) {} 3000,[]) es
    x.2.map Reaction.reading = [2,3] ∧ x.2.IsChain Reaction.Follows :=
  ⟨by decide +kernel,(one_reaction_per_flight (fun k => k) Nat.mono_cast ⟨0,0,0,0⟩ {} 3000 _).1⟩

end Westwood

end QuicWestwood
