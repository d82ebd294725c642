import QuicWestwood.OneWayDelay
import QuicWestwood.WestwoodMinRtt

/-! Every acked packet and every loss is logged with what it does to the running one-way delay and with the
controller it leaves. At each entry of the log, and at the end of the run, the running delay is the reflected
sum of the variations since it was last forgotten. -/
namespace QuicWestwood.WestwoodOWD
open ReflectedSum

inductive DelayNote where
  | untimed
  | initialised
  | variation (owdv : ℤ)
  /-- by a loss, or by the reaction to a long delay -/
  | forgotten
  deriving DecidableEq

namespace DelayNote

def isTimed : DelayNote → Bool
  | initialised | variation _ => true
  | untimed | forgotten => false

def follow (vs : List ℤ) : DelayNote → List ℤ
  | untimed | initialised => vs
  | variation owdv => vs++[owdv]
  | forgotten => []

/-- The variations since the delay was last forgotten, oldest first. -/
def sinceForgotten (notes : List DelayNote) : List ℤ := notes.foldl follow []

@[simp] lemma sinceForgotten_snoc (notes : List DelayNote) (n : DelayNote) :
    sinceForgotten (notes++[n]) = follow (sinceForgotten notes) n := by
  simp [sinceForgotten]

end DelayNote

def noteUpdate (w : WestwoodOWD) (packet : AckPacket) : DelayNote :=
  match packet.receiveRelativeTimeStampUsec with
  | none => .untimed
  | some _ => if w.isFirstPacket then .initialised else .variation (w.updateOneWayDelay packet).owdv

theorem updateOneWayDelay_cases (w : WestwoodOWD) (packet : AckPacket) :
    (packet.receiveRelativeTimeStampUsec=none ∧ noteUpdate w packet = .untimed ∧
      w.updateOneWayDelay packet = w) ∨
    (∃ receive,packet.receiveRelativeTimeStampUsec = some receive ∧ w.isFirstPacket=true ∧
      noteUpdate w packet = .initialised ∧ w.updateOneWayDelay packet =
        {w with latestReceiveTimeStamp := receive, latestSendTimeStamp := packet.time}) ∨
    (packet.receiveRelativeTimeStampUsec.isSome ∧ w.isFirstPacket=false ∧
      noteUpdate w packet = .variation (w.updateOneWayDelay packet).owdv ∧
      (w.updateOneWayDelay packet).owd = max 0 (w.owd+(w.updateOneWayDelay packet).owdv)) := by
  cases hreceive : packet.receiveRelativeTimeStampUsec with
  | none => exact .inl ⟨rfl,by simp [noteUpdate,hreceive],by simp [updateOneWayDelay,hreceive]⟩
  | some receive =>
    refine .inr ?_
    cases hfirst : w.isFirstPacket with
    | true =>
      refine .inl ⟨receive,rfl,rfl,by simp [noteUpdate,hreceive,hfirst],?_⟩
      simp [updateOneWayDelay,hreceive,hfirst]
    | false =>
      refine .inr ⟨rfl,rfl,by simp [noteUpdate,hreceive,hfirst],?_⟩
      simp [updateOneWayDelay,hreceive,hfirst]

section Notes
variable (clock : ℕ → ℤ) (fp : DelayFloatUnit) (c : CwndSettings)

/-- The log entries of an acked packet. The first has the controller that the delay
control is asked in, unless the packet was sent before the end of recovery. -/
def notePacket (x : Controlled WestwoodOWD × AckPacket) : List (DelayNote × WestwoodOWD) :=
  (noteUpdate x.1.cc x.2,x.1.cc.updateOneWayDelay x.2) ::
    if !x.1.cc.inRecovery x.2.time && (x.1.cc.updateOneWayDelay x.2).delayControl fp then
      [(.forgotten,(perPacket clock fp c x.1 x.2).state.cc)]
    else []

/-- A loss of more bytes than are in flight throws before the delay is looked at. -/
def noteLoss (s : Controlled WestwoodOWD) (loss : LossEvent) : List (DelayNote × WestwoodOWD) :=
  if loss.lostBytes ≤ s.inflightBytes then [(.forgotten,(onPacketLoss clock fp c s loss).state.cc)]
  else []

def remembered : Controlled WestwoodOWD × List (DelayNote × WestwoodOWD) → CcEvent →
    Controlled WestwoodOWD × List (DelayNote × WestwoodOWD) :=
  Run.logged (next clock fp c) (Controlled.noteEvent (onPacketLoss clock fp c) (noteLoss clock fp c)
    fun s ack => (Controlled.ackEntriesWith noteRtt (perPacket clock fp c) s ack).flatMap
      (notePacket clock fp c))

end Notes

structure Remembers (w : WestwoodOWD) (notes : List DelayNote) : Prop where
  owd : w.owd = reflected (DelayNote.sinceForgotten notes)
  lossMaxRtt : w.lossMaxRtt=250000
  minRtt : 0≤w.rttSampler.minRtt ∧ w.rttSampler.minRtt ≤ microsecondsMax
  isFirst : (∀ n ∈ notes,n.isTimed = false) → w.isFirstPacket=true

namespace Remembers
variable {w v : WestwoodOWD} {notes : List DelayNote}

lemma updateOneWayDelay (h : Remembers w notes) (packet : AckPacket) :
    Remembers (w.updateOneWayDelay packet) (notes++[noteUpdate w packet]) := by
  have hmax := (updateOneWayDelay_lossMaxRtt w packet).trans h.lossMaxRtt
  have hrtt : 0 ≤ (w.updateOneWayDelay packet).rttSampler.minRtt ∧
      (w.updateOneWayDelay packet).rttSampler.minRtt ≤ microsecondsMax := by simpa using h.minRtt
  obtain ⟨-,hnote,hw⟩ | ⟨_,-,-,hnote,hw⟩ | ⟨-,-,hnote,howd⟩ := updateOneWayDelay_cases w packet
  · refine ⟨?_,hmax,hrtt,fun hall => ?_⟩
    · simpa [hnote,hw,DelayNote.follow] using h.owd
    · rw [hw]
      exact h.isFirst fun n hn => hall n (by simp [hn])
  · refine ⟨?_,hmax,hrtt,fun hall => ?_⟩
    · simpa [hnote,hw,DelayNote.follow] using h.owd
    · simpa [hnote,DelayNote.isTimed] using hall .initialised
  · refine ⟨?_,hmax,hrtt,fun hall => ?_⟩
    · rw [hnote,DelayNote.sinceForgotten_snoc,DelayNote.follow,reflected_snoc,howd,h.owd]
    · rw [hnote] at hall
      simpa [DelayNote.isTimed] using hall (.variation (w.updateOneWayDelay packet).owdv)

lemma congr (h : Remembers w notes) (howd : v.owd=w.owd) (hmax : v.lossMaxRtt=w.lossMaxRtt)
    (hrtt : v.rttSampler=w.rttSampler) (hsend : v.latestSendTimeStamp=w.latestSendTimeStamp) :
    Remembers v notes where
  owd := howd.trans h.owd
  lossMaxRtt := hmax.trans h.lossMaxRtt
  minRtt := hrtt ▸ h.minRtt
  isFirst hall := by simpa only [isFirstPacket,hsend] using h.isFirst hall

lemma forgotten (h : Remembers w notes) (howd : v.owd=0) (hmax : v.lossMaxRtt=w.lossMaxRtt)
    (hrtt : 0≤v.rttSampler.minRtt ∧ v.rttSampler.minRtt ≤ microsecondsMax)
    (hsend : v.latestSendTimeStamp=w.latestSendTimeStamp) :
    Remembers v (notes++[.forgotten]) where
  owd := by simp [howd,DelayNote.follow]
  lossMaxRtt := hmax.trans h.lossMaxRtt
  minRtt := hrtt
  isFirst hall := by
    simpa only [isFirstPacket,hsend] using h.isFirst fun n hn => hall n (by simp [hn])

end Remembers

/-- The first packet with a timestamp is one that only sets the two timestamps. -/
def StartsWith (notes : List DelayNote) (n : DelayNote) : Prop :=
  n.isTimed = true → (∀ m ∈ notes,m.isTimed = false) → n = .initialised

variable {notes : List DelayNote}

lemma Remembers.startsWith {w : WestwoodOWD} (h : Remembers w notes) (packet : AckPacket) :
    StartsWith notes (noteUpdate w packet) := by
  intro htimed hnone
  obtain ⟨-,hnote,-⟩ | ⟨_,-,-,hnote,-⟩ | ⟨-,hfirst,-⟩ := updateOneWayDelay_cases w packet
  · simp [hnote,DelayNote.isTimed] at htimed
  · exact hnote
  · simp [h.isFirst hnone] at hfirst

def Traced (w : WestwoodOWD) (log : List (DelayNote × WestwoodOWD)) : Prop :=
  Remembers w (log.map Prod.fst) ∧ ∀ pre n v,pre++[(n,v)] <+: log →
    Remembers v (pre.map Prod.fst++[n]) ∧ StartsWith (pre.map Prod.fst) n

namespace Traced
variable {w v : WestwoodOWD} {log : List (DelayNote × WestwoodOWD)}

lemma snoc (h : Traced w log) {n : DelayNote} (hv : Remembers v (log.map Prod.fst++[n]))
    (hn : StartsWith (log.map Prod.fst) n) : Traced v (log++[(n,v)]) := by
  refine ⟨by simpa using hv,fun pre m u hpre => ?_⟩
  rcases List.prefix_concat_iff.mp hpre with heq | hpre
  · obtain ⟨rfl,hlast⟩ := List.append_inj' heq rfl
    obtain ⟨rfl,rfl⟩ := Prod.mk.inj (List.singleton_inj.mp hlast)
    exact ⟨hv,hn⟩
  · exact h.2 pre m u hpre

lemma forgotten (h : Traced w log) (hv : Remembers v (log.map Prod.fst++[.forgotten])) :
    Traced v (log++[(.forgotten,v)]) := h.snoc hv fun htimed => by simp [DelayNote.isTimed] at htimed

lemma congr (h : Traced w log) (hv : Remembers v (log.map Prod.fst)) : Traced v log := ⟨hv,h.2⟩

end Traced

section Steps
variable {clock : ℕ → ℤ} {fp : DelayFloatUnit} {c : CwndSettings}

lemma delayControl_congr {v w : WestwoodOWD} (howd : v.owd=w.owd)
    (hmax : v.lossMaxRtt=w.lossMaxRtt) (hrtt : v.rttSampler=w.rttSampler) :
    v.delayControl fp = w.delayControl fp := by
  simp only [delayControl,howd,hmax,hrtt]

variable {s : Controlled WestwoodOWD}

/-- `onPacketAcked` forgets the delay if the delay control fires, and else leaves it. -/
lemma Remembers.onPacketAcked (h : Remembers s.cc notes) (packet : AckPacket) :
    Remembers (onPacketAcked clock fp c s packet).state.cc
      (notes++if !s.cc.inRecovery packet.time && s.cc.delayControl fp then [.forgotten] else []) := by
  by_cases hrec : s.cc.inRecovery packet.time = true
  · simpa [WestwoodOWD.onPacketAcked,hrec] using h
  · have hsame : ∀ core : WestwoodCore,
        ({s.cc with toWestwoodCore := core} : WestwoodOWD).delayControl fp = s.cc.delayControl fp :=
      fun _ => delayControl_congr rfl rfl rfl
    rw [WestwoodOWD.onPacketAcked,if_neg hrec]
    simp only [Outcome.within_state,measured,delayReaction,hsame]
    by_cases hctl : s.cc.delayControl fp = true
    · simp only [hctl,hrec,if_true,Bool.not_false,Bool.and_self]
      exact h.forgotten rfl rfl h.minRtt rfl
    · simp only [hctl,Bool.and_false,Bool.false_eq_true,if_false,List.append_nil]
      exact h.congr rfl rfl rfl rfl

lemma Traced.perPacket {log : List (DelayNote × WestwoodOWD)} (h : Traced s.cc log) (packet : AckPacket) :
    Traced (perPacket clock fp c s packet).state.cc (log++notePacket clock fp c (s,packet)) := by
  have hupdate := h.1.updateOneWayDelay packet
  have hacked : Remembers
      (onPacketAcked clock fp c {s with cc := s.cc.updateOneWayDelay packet} packet).state.cc _ :=
    hupdate.onPacketAcked packet
  have htraced := h.snoc hupdate (h.1.startsWith packet)
  simp only [updateOneWayDelay_toWestwoodCore] at hacked
  unfold notePacket
  split_ifs at hacked ⊢
  · rw [List.append_cons]
    exact htraced.forgotten (by simpa [WestwoodOWD.perPacket] using hacked)
  · exact htraced.congr (by simpa [WestwoodOWD.perPacket] using hacked)

lemma Traced.onPacketLoss {log : List (DelayNote × WestwoodOWD)} (h : Traced s.cc log) (loss : LossEvent) :
    Traced (onPacketLoss clock fp c s loss).state.cc (log++noteLoss clock fp c s loss) := by
  have hpersist : ∀ t,(ifPersistent c loss t).cc.owd = t.cc.owd ∧
      (ifPersistent c loss t).cc.lossMaxRtt = t.cc.lossMaxRtt ∧
      (ifPersistent c loss t).cc.latestSendTimeStamp = t.cc.latestSendTimeStamp := fun t => by
    unfold ifPersistent; split_ifs <;> exact ⟨rfl,rfl,rfl⟩
  have hsettled : Remembers (settleLoss clock s loss).cc (log.map Prod.fst++[.forgotten]) := by
    unfold settleLoss expireMinRtt
    split_ifs
    · exact h.1.forgotten rfl rfl ⟨Int.le_of_lt (by decide : 0 < microsecondsMax),le_rfl⟩ rfl
    · exact h.1.forgotten rfl rfl h.1.minRtt rfl
  unfold noteLoss
  obtain ⟨hlt,h'⟩ | ⟨hle,⟨_,-,h'⟩ | ⟨-,h'⟩ | ⟨-,h'⟩⟩ := onPacketLoss_cases clock fp c s loss
  · rw [h',if_neg (by omega)]
    simpa using h
  · rw [h',if_pos hle]
    exact h.forgotten hsettled
  · rw [h',if_pos hle]
    obtain ⟨howd,hmax,hsend⟩ := hpersist (startRecovery clock fp c (settleLoss clock s loss))
    exact h.forgotten (hsettled.congr howd hmax (ifPersistent_rttSampler c loss _) hsend)
  · rw [h',if_pos hle]
    obtain ⟨howd,hmax,hsend⟩ := hpersist (settleLoss clock s loss)
    exact h.forgotten (hsettled.congr howd hmax (ifPersistent_rttSampler c loss _) hsend)

lemma Remembers.noteRtt (h : Remembers s.cc notes) {ack : AckEvent}
    (hack : ∀ rtt ∈ ack.rttSample,0 ≤ rtt ∧ rtt ≤ microsecondsMax) : Remembers (noteRtt s ack).cc notes := by
  unfold WestwoodOWD.noteRtt
  split
  · exact h
  · rename_i rtt hrtt
    refine ⟨h.owd,h.lossMaxRtt,?_,h.isFirst⟩
    have hr := hack rtt hrtt
    have hm := h.minRtt
    simp only [WestwoodOWDRttSampler.newRttSample,WestwoodRttSampler.newRttSample]
    split_ifs
    · exact hr
    · exact hm

lemma Traced.step {x : Controlled WestwoodOWD × List (DelayNote × WestwoodOWD)}
    (h : Traced x.1.cc x.2) {e : CcEvent} (he : e.SampleInRange) :
    Traced (remembered clock fp c x e).1.cc (remembered clock fp c x e).2 := by
  refine Controlled.handle_logged_invariant _ _
    (P := fun (s : Controlled WestwoodOWD) log => Traced s.cc log) (fun _ h => h) ?_ ?_ h
  · exact fun loss _ h => h.onPacketLoss loss
  · intro t ack log hack h
    refine Controlled.ackEventWith_logged_invariant WestwoodOWD.noteRtt (WestwoodOWD.perPacket clock fp c)
      (clampCwnd c) (l := [])
      (P := fun s l => Traced s.cc (log++l.flatMap (notePacket clock fp c)))
      (fun _ _ _ h => h) ?_ (fun _ _ h => h.congr (h.1.congr rfl rfl rfl rfl)) ?_
    · intro s packet l h
      have hnext : Traced (WestwoodOWD.perPacket clock fp c s packet).state.cc _ := h.perPacket packet
      simpa [← List.append_assoc] using hnext
    · simpa using h.congr (h.1.noteRtt (he.ackOf hack))

theorem traced_run (inflight : ℕ) {es : List CcEvent} (hes : ∀ e ∈ es,e.SampleInRange) :
    let x := Run.run (remembered clock fp c) (construct clock c inflight,[]) es
    Traced x.1.cc x.2 := by
  refine Run.run_invariant (P := fun x : Controlled WestwoodOWD × List (DelayNote × WestwoodOWD) =>
    Traced x.1.cc x.2) ?_ fun _ h e he => h.step (hes e he)
  refine ⟨⟨rfl,rfl,⟨Int.le_of_lt (by decide : 0 < microsecondsMax),le_rfl⟩,fun _ => rfl⟩,?_⟩
  intro pre n v hpre
  simp at hpre

end Steps

/-- What the running delay `w.owd` and the delay control owe to the variations `vs`. -/
def DelayLaw (fp : DelayFloatUnit) (w : WestwoodOWD) (vs : List ℤ) : Prop :=
  let S : ℕ → ℤ := fun j => (vs.take j).sum
  let k := vs.length
  w.owd = S k-runningMin S k ∧ 0≤w.owd ∧ (w.delayControl fp = true ↔ w.rttSampler.minRtt<w.lossMaxRtt ∧
      (8/10 : ℚ)*(w.lossMaxRtt-w.rttSampler.minRtt : ℤ) < (S k-runningMin S k : ℤ))

lemma Remembers.delayLaw {fp : DelayFloatUnit} {w : WestwoodOWD}
    (hfp : ∀ owd range,fp.delayExceeds owd range = true ↔ (8/10 : ℚ)*(range : ℕ) < (owd : ℤ))
    (h : Remembers w notes) : DelayLaw fp w (DelayNote.sinceForgotten notes) := by
  refine ⟨h.owd,h.owd ▸ reflected_nonneg _,?_⟩
  have howd : (w.owd : ℚ) = _ := congrArg _ h.owd
  rw [reflected,excess] at howd
  rw [← howd]
  obtain ⟨h0,hle⟩ := h.minRtt
  have hmin := u64_of_nonneg h0 (by unfold microsecondsMax at hle; omega)
  have hmax : u64 250000 = 250000 := rfl
  have hlt : u64 w.rttSampler.minRtt < 250000 ↔ w.rttSampler.minRtt<250000 := by omega
  rw [delayControl,h.lossMaxRtt,if_neg (by decide),hmax]
  simp only [Bool.and_eq_true,decide_eq_true_eq,hlt]
  refine and_congr_right fun hless => ?_
  have hrange : ((250000-u64 w.rttSampler.minRtt : ℕ) : ℤ) = 250000-w.rttSampler.minRtt := by omega
  rw [hfp,← hrange,Int.cast_natCast]

/-- At every acked packet, at every loss and at the end of every run the running delay is
the reflected sum of the variations since it was last forgotten; the first packet with a
timestamp only sets the two timestamps, and one without a timestamp changes nothing. -/
theorem running_delay_is_reflected_sum (clock : ℕ → ℤ) (fp : DelayFloatUnit) (c : CwndSettings)
    (hfp : ∀ owd range,fp.delayExceeds owd range = true ↔ (8/10 : ℚ)*(range : ℕ) < (owd : ℤ))
    (inflight : ℕ) (es : List CcEvent) (hes : ∀ e ∈ es,e.SampleInRange) :
    let x := Run.run (remembered clock fp c) (construct clock c inflight,[]) es
    DelayLaw fp x.1.cc (DelayNote.sinceForgotten (x.2.map Prod.fst)) ∧ (∀ pre n w,pre++[(n,w)] <+: x.2 →
      DelayLaw fp w (DelayNote.sinceForgotten (pre.map Prod.fst++[n])) ∧ StartsWith (pre.map Prod.fst) n) ∧
    ∀ (w : WestwoodOWD) (packet : AckPacket),
      (noteUpdate w packet = .untimed ↔ packet.receiveRelativeTimeStampUsec=none) ∧
      (noteUpdate w packet = .untimed → w.updateOneWayDelay packet = w) ∧
      (noteUpdate w packet = .initialised → ∃ receive,
        packet.receiveRelativeTimeStampUsec = some receive ∧ w.updateOneWayDelay packet =
          {w with latestReceiveTimeStamp := receive, latestSendTimeStamp := packet.time}) ∧
      ∀ v,noteUpdate w packet = .variation v → (w.updateOneWayDelay packet).owdv = v := by
  intro x
  obtain ⟨hend,hlog⟩ := @traced_run clock fp c inflight es hes
  refine ⟨hend.delayLaw hfp,fun pre n w hpre => ?_,fun w packet => ?_⟩
  · exact ⟨(hlog pre n w hpre).1.delayLaw hfp,(hlog pre n w hpre).2⟩
  · obtain ⟨hnone,hnote,hw⟩ | ⟨receive,hsome,-,hnote,hw⟩ | ⟨hsome,-,hnote,-⟩ :=
      updateOneWayDelay_cases w packet
    · simp [hnote,hnone,hw]
    · simp [hnote,hsome,hw]
    · have hne := Option.isSome_iff_ne_none.mp hsome
      simp [hnote,hne]

lemma exact_delayExceeds (undef : ℕ → ℕ) (owd : ℤ) (range : ℕ) :
    (DelayFloatUnit.exact undef).delayExceeds owd range = true ↔ (8/10 : ℚ)*(range : ℕ) < (owd : ℤ) := by
  have hscale : (8/10 : ℚ)*(range : ℕ) < (owd : ℤ) ↔ (8*range : ℚ) < 10*owd := by
    constructor <;> intro h <;> linarith
  rw [hscale,DelayFloatUnit.exact,decide_eq_true_eq]
  exact_mod_cast Iff.rfl

def ackReceivedAt (sent receive : ℤ) : CcEvent :=
  .packetAckOrLoss
    (some {
      ackTime := sent
      ackedBytes := 1000
      largestNewlyAckedPacket := some 0
      rttSample := some 100000
      ackedPackets := [{
        packetNum := 0
        outstandingPacketMetadata := {time := sent, encodedSize := 1000}
        receiveRelativeTimeStampUsec := some receive}]})
    none

theorem running_delay_of_two :
    let fp := DelayFloatUnit.exact fun _ => 0
    let x := Run.run (remembered (fun k => k) fp {}) (construct (fun k => k) {} 2000,[])
      [ackReceivedAt 1000000 0,ackReceivedAt 2000000 31000]
    x.2.map Prod.fst = [.initialised,.variation 30000] ∧
      DelayLaw fp x.1.cc (DelayNote.sinceForgotten (x.2.map Prod.fst)) :=
  ⟨by decide +kernel,(running_delay_is_reflected_sum (fun k => k) _ {} (exact_delayExceeds _) 2000 _
    (by simp [ackReceivedAt,CcEvent.SampleInRange,microsecondsMax])).1⟩

end QuicWestwood.WestwoodOWD
