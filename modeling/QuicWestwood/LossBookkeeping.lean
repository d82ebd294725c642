import QuicWestwood.LossDetection

/-! What loss detection, the rejection of 0-RTT packets and the alarm do to the packets, their counters and the
bytes in flight. The controller is seen through `Tracks`: a relation between the live bytes and its state that
its events keep. -/
namespace QuicWestwood

def bytesAcked (ackEvent : Option AckEvent) : ℕ :=
  ((ackEvent.filter fun ack => ack.largestNewlyAckedPacket.isSome).map AckEvent.ackedBytes).getD 0

def bytesLost (lossEvent : Option LossEvent) : ℕ := (lossEvent.map LossEvent.lostBytes).getD 0

namespace CcEvent

def sentBytes : CcEvent → ℕ
  | .packetSent encodedSize => encodedSize.toNat
  | _ => 0

def releasedBytes : CcEvent → ℕ
  | .packetSent _ => 0
  | .removeBytesFromInflight bytes => bytes
  | .packetAckOrLoss ackEvent lossEvent => bytesAcked ackEvent+bytesLost lossEvent

end CcEvent

variable {σ : Type}

/-- Told of the bytes that come and go, the controller keeps `A` between the number of live
bytes and its state, or throws an exception of `E`. -/
def Tracks (cc : Controller σ) (E : Failure → Prop) (A : ℕ → Controlled σ → Prop) : Prop :=
  ∀ n s e,A (n+e.releasedBytes) s → Ends (cc s e).toExcept E (A (n+e.sentBytes))

lemma tracks_of_thrown {cc : Controller σ} {E : Failure → Prop}
    (hE : ∀ s event e,(cc s event).thrown = some e → E e) : Tracks cc E fun _ _ => True := by
  intro n s event _
  exact ends_toExcept (hE s event) fun _ => trivial

/-- What declaring packets of a space lost makes of the outstanding packets. -/
structure LossStep (pnSpace : PacketNumberSpace) (o o' : OutstandingsInfo)
    (lossEvent : Option LossEvent) : Prop where
  counted : Counted 0 o'.toOutstandingCounts o'.packets
  judged : List.Forall₂ (Judged pnSpace) o.packets o'.packets
  ids : o'.clonedPacketIdentifiers ⊆ o.clonedPacketIdentifiers
  bytes : liveBytes o'.packets+bytesLost lossEvent = liveBytes o.packets
  times : ∀ e,lossEvent = some e → e.smallestLostSentTime.isSome ∧ e.largestLostSentTime.isSome

variable {pnSpace : PacketNumberSpace}

lemma Judged.becomes {p q : OutstandingPacket} (h : Judged pnSpace p q) : p.Becomes q := by
  rcases h with rfl | ⟨hlive,-,_,_,rfl⟩
  · exact .refl _
  · exact ⟨rfl,rfl,rfl,rfl,rfl,fun _ => hlive⟩

lemma Judged.scheduled_eq {p q : OutstandingPacket} (h : Judged pnSpace p q) :
    q.metadata.scheduledForDestruction = p.metadata.scheduledForDestruction := by
  rcases h with rfl | ⟨-,-,_,_,rfl⟩ <;> rfl

variable {lossEvent : Option LossEvent}

lemma LossStep.within {o o' : OutstandingsInfo} (h : LossStep pnSpace o o' lossEvent) : o'.Within o :=
  .of_forall₂ (h.judged.imp fun _ _ => Judged.becomes) h.ids

lemma LossTally.bytesLost_reported {t : LossTally} (h : t.lossEvent.Built) :
    bytesLost t.reported = t.lossEvent.lostBytes := by
  rw [reported]
  split_ifs with hlost
  · rfl
  · rw [h.empty (by simpa using hlost)]
    rfl

variable {ids : Finset ClonedPacketIdentifier}

lemma LossTally.Balanced.bytesLost_reported {total : ℕ} {t : LossTally} {packets : List OutstandingPacket}
    (h : t.Balanced total ids packets) : liveBytes packets+bytesLost t.reported = total := by
  rw [LossTally.bytesLost_reported h.built,h.bytes]

lemma LossTally.Balanced.times_reported {total : ℕ} {t : LossTally} {packets : List OutstandingPacket}
    (h : t.Balanced total ids packets) :
    ∀ e,t.reported = some e → e.smallestLostSentTime.isSome ∧ e.largestLostSentTime.isSome := by
  intro e he
  unfold reported at he
  split_ifs at he with hlost
  obtain rfl := Option.some.inj he
  exact h.built.times hlost

namespace Connection
variable {E : Failure → Prop} {A : ℕ → Controlled σ → Prop} {cc : Controller σ}
  {lossVisitor : LossVisitor} {conn : Connection σ}

def VisitorOk (E : Failure → Prop) (lossVisitor : LossVisitor) (pnSpace : PacketNumberSpace)
    (packets : List OutstandingPacket) : Prop :=
  ∀ p ∈ packets,p.live → p.inSpace pnSpace → ∀ b,Ends (lossVisitor p b) E fun _ => True

lemma visitorOk_markPacketLoss (pnSpace : PacketNumberSpace) (packets : List OutstandingPacket) :
    VisitorOk E markPacketLoss pnSpace packets := fun _ _ _ _ _ => trivial

lemma ends_scanForLoss (hE : E lostBytesOverflow) (h : conn.outstandings.Consistent) (lossTime : ℤ)
    (pnSpace : PacketNumberSpace) (ackEvent : Option AckEvent)
    (hvisitor : VisitorOk E lossVisitor pnSpace conn.outstandings.packets) :
    Ends (conn.scanForLoss lossVisitor lossTime pnSpace ackEvent) E fun r =>
      r.1.Balanced (liveBytes conn.outstandings.packets) conn.outstandings.clonedPacketIdentifiers r.2 ∧
        List.Forall₂ (Judged pnSpace) conn.outstandings.packets r.2 := by
  have hstart : LossTally.Balanced (liveBytes conn.outstandings.packets)
      conn.outstandings.clonedPacketIdentifiers
      {counts := conn.outstandings.toOutstandingCounts, lossEvent := {lossTime}}
      conn.outstandings.packets :=
    ⟨h.counted,subset_rfl,rfl,LossEvent.Built.start lossTime⟩
  unfold scanForLoss
  split
  · exact ⟨hstart,List.forall₂_same.mpr fun _ _ => .inl rfl⟩
  · exact ends_processOutstandingsForLoss _ hE hvisitor h.built rfl hstart

/-- The connection changes in its packets and in one loss time only. -/
theorem ends_detectLossPackets (hE : E lostBytesOverflow) (h : conn.outstandings.Consistent)
    (lossTime : ℤ) (pnSpace : PacketNumberSpace) (ackEvent : Option AckEvent)
    (hvisitor : VisitorOk E lossVisitor pnSpace conn.outstandings.packets) :
    Ends (conn.detectLossPackets lossVisitor lossTime pnSpace ackEvent) E fun r =>
      ∃ o timer,r.1 = {conn with outstandings := o}.setLossTime pnSpace timer ∧
        LossStep pnSpace conn.outstandings o r.2 := by
  refine (ends_scanForLoss hE h lossTime pnSpace ackEvent hvisitor).bind fun r hr => ?_
  obtain ⟨hbal,hjudged⟩ := hr
  exact ⟨_,_,rfl,hbal.counted,hjudged,hbal.ids,hbal.bytesLost_reported,hbal.times_reported⟩

lemma requestAlarm_eq (h : conn.outstandings.Consistent) :
    conn.requestAlarm = .ok {conn with
      setLossDetectionAlarm := 0 < conn.outstandings.packets.countP OutstandingPacket.live} := by
  rw [requestAlarm,OutstandingsInfo.numOutstanding,h.counted.numOutstanding_eq]
  rfl

/-- What an ack in `pnSpace` may change besides the packets. -/
structure LossFrame (pnSpace : PacketNumberSpace) (conn conn' : Connection σ) : Prop where
  control : conn'.control=conn.control
  nextPacketNum : ∀ s,(conn'.ackStates s).nextPacketNum = (conn.ackStates s).nextPacketNum
  settings : conn'.transportSettings=conn.transportSettings
  cipher : conn'.oneRttWriteCipher=conn.oneRttWriteCipher
  pto : conn'.lossState.calculatePTO conn'.transportSettings =
    conn.lossState.calculatePTO conn.transportSettings
  alarm : conn'.setLossDetectionAlarm = decide (0 < conn'.outstandings.packets.countP OutstandingPacket.live)

theorem ends_handleAckForLoss (hE : E lostBytesOverflow) (h : conn.outstandings.Consistent)
    (ack : AckEvent) (pnSpace : PacketNumberSpace)
    (hvisitor : VisitorOk E lossVisitor pnSpace conn.outstandings.packets) :
    Ends (conn.handleAckForLoss lossVisitor ack pnSpace) E fun r =>
      LossStep pnSpace conn.outstandings r.1.outstandings r.2 ∧ LossFrame pnSpace conn r.1 := by
  have hnote : (conn.noteAckEvent ack pnSpace).outstandings.Consistent := h
  refine (ends_detectLossPackets hE hnote ack.ackTime pnSpace (some ack) hvisitor).bind ?_
  rintro r ⟨o,timer,hr,hstep⟩
  have hcons : r.1.outstandings.Consistent := by
    rw [hr]
    exact hstep.within.consistent h hstep.counted
  rw [requestAlarm_eq hcons,hr]
  refine ⟨hstep,rfl,fun s => ?_,rfl,rfl,rfl,rfl⟩
  change (Function.update conn.ackStates pnSpace _ s).nextPacketNum = _
  by_cases hs : s=pnSpace
  · subst hs
    rw [Function.update_self,noteAcked]
    split <;> rfl
  · rw [Function.update_of_ne hs]

lemma detectLossPackets_eq_ok {lossTime : ℤ} {ackEvent : Option AckEvent}
    {r : Connection σ × Option LossEvent}
    (h : conn.detectLossPackets lossVisitor lossTime pnSpace ackEvent = .ok r) :
    ∃ o timer,r.1 = {conn with outstandings := o}.setLossTime pnSpace timer := by
  obtain ⟨q,-,hq⟩ := ByteCodec.bind_eq_ok.mp h
  obtain rfl := Except.ok.inj hq
  exact ⟨_,_,rfl⟩

lemma handleAckForLoss_eq_ok {ack : AckEvent} {r : Connection σ × Option LossEvent}
    (h : conn.handleAckForLoss lossVisitor ack pnSpace = .ok r) :
    ∃ q,(conn.noteAckEvent ack pnSpace).detectLossPackets lossVisitor ack.ackTime pnSpace (some ack) =
      .ok q ∧ q.2=r.2 ∧ ∃ alarm,r.1 = {q.1 with setLossDetectionAlarm := alarm} := by
  obtain ⟨q,hdetect,hq⟩ := ByteCodec.bind_eq_ok.mp h
  obtain ⟨conn',halarm,hr⟩ := ByteCodec.bind_eq_ok.mp hq
  obtain ⟨n,-,hn⟩ := ByteCodec.bind_eq_ok.mp halarm
  obtain rfl := Except.ok.inj hn
  obtain rfl := Except.ok.inj hr
  exact ⟨q,hdetect,rfl,_,rfl⟩

lemma ends_tell (htracks : Tracks cc E A) {n : ℕ} {e : CcEvent}
    (h : A (n+e.releasedBytes) conn.control) :
    Ends (conn.tell cc e) E fun conn' =>
      ∃ control,conn' = {conn with control} ∧ A (n+e.sentBytes) control :=
  Ends.map ((htracks n conn.control e h).imp fun control hA => ⟨control,rfl,hA⟩)

/-- What holds of the outstanding packets between two operations. -/
structure Settled (A : ℕ → Controlled σ → Prop) (conn : Connection σ) : Prop where
  consistent : conn.outstandings.Consistent
  unscheduled : ∀ p ∈ conn.outstandings.packets,p.metadata.scheduledForDestruction = false
  accounted : A (liveBytes conn.outstandings.packets) conn.control

structure Sound (A : ℕ → Controlled σ → Prop) (conn : Connection σ) : Prop extends Settled A conn where
  fresh : ∀ p ∈ conn.outstandings.packets,
    p.packetNum < (conn.ackStates p.packetNumberSpace).nextPacketNum
  freshIds : ∀ id ∈ conn.outstandings.clonedPacketIdentifiers,
    id.packetNumber < (conn.ackStates id.packetNumberSpace).nextPacketNum

lemma Sound.of_within {conn' : Connection σ} (h : conn.Sound A) (hsettled : conn'.Settled A)
    (hwithin : conn'.outstandings.Within conn.outstandings)
    (hnext : ∀ s,(conn'.ackStates s).nextPacketNum = (conn.ackStates s).nextPacketNum) :
    conn'.Sound A where
  toSettled := hsettled
  fresh q hq := by
    obtain ⟨p,hp,hbecomes⟩ := hwithin.origin q hq
    rw [hnext,hbecomes.packetNum,OutstandingPacket.packetNumberSpace,hbecomes.protectionType]
    exact h.fresh p hp
  freshIds id hid := by
    rw [hnext]
    exact h.freshIds id (hwithin.ids hid)

/-- Changes outside the packets, the packet numbers and the controller do not matter. -/
lemma Sound.congr {conn' : Connection σ} (h : conn.Sound A)
    (ho : conn'.outstandings=conn.outstandings)
    (hnext : ∀ s,(conn'.ackStates s).nextPacketNum = (conn.ackStates s).nextPacketNum)
    (hcontrol : conn'.control=conn.control) : conn'.Sound A := by
  refine h.of_within ⟨ho ▸ h.consistent,ho ▸ h.unscheduled,?_⟩ (ho ▸ .refl _) hnext
  rw [ho,hcontrol]
  exact h.accounted

lemma ends_tellLoss (htracks : Tracks cc E A) {n : ℕ} (h : A (n+bytesLost lossEvent) conn.control) :
    Ends (conn.tellLoss cc lossEvent) E fun conn' =>
      ∃ control,conn' = {conn with control} ∧ A n control := by
  unfold tellLoss
  split
  · exact ⟨_,rfl,h⟩
  · refine ends_tell htracks ?_
    simpa [CcEvent.releasedBytes,bytesAcked] using h

lemma ends_tellRemoved (htracks : Tracks cc E A) {n : ℕ} (h : A (n+bytesLost lossEvent) conn.control) :
    Ends (conn.tellRemoved cc lossEvent) E fun conn' =>
      ∃ control,conn' = {conn with control} ∧ A n control := by
  unfold tellRemoved
  split
  · exact ⟨_,rfl,h⟩
  · exact ends_tell htracks h

structure Quiet (conn conn' : Connection σ) : Prop where
  within : conn'.outstandings.Within conn.outstandings
  ackStates : conn'.ackStates=conn.ackStates
  threshold : conn'.lossState.reorderingThreshold=conn.lossState.reorderingThreshold
  settings : conn'.transportSettings=conn.transportSettings

lemma Quiet.of_eq {conn' : Connection σ} (ho : conn'.outstandings=conn.outstandings)
    (hstates : conn'.ackStates=conn.ackStates)
    (hthreshold : conn'.lossState.reorderingThreshold=conn.lossState.reorderingThreshold)
    (hsettings : conn'.transportSettings=conn.transportSettings) : conn.Quiet conn' :=
  ⟨ho ▸ .refl _,hstates,hthreshold,hsettings⟩

lemma Quiet.trans {conn' conn'' : Connection σ} (h : conn.Quiet conn') (h' : conn'.Quiet conn'') :
    conn.Quiet conn'' :=
  ⟨h'.within.trans h.within,h'.ackStates.trans h.ackStates,h'.threshold.trans h.threshold,
    h'.settings.trans h.settings⟩

theorem ends_detectLossPackets_tellLoss (htracks : Tracks cc E A) (hE : E lostBytesOverflow)
    (h : conn.Sound A) (lossTime : ℤ) (pnSpace : PacketNumberSpace)
    (hvisitor : VisitorOk E lossVisitor pnSpace conn.outstandings.packets) :
    Ends (conn.detectLossPackets lossVisitor lossTime pnSpace none >>= fun r => r.1.tellLoss cc r.2) E
      fun conn' => conn'.Sound A ∧ conn.Quiet conn' := by
  refine (ends_detectLossPackets hE h.consistent lossTime pnSpace none hvisitor).bind ?_
  rintro r ⟨o,timer,hr,hstep⟩
  have hbytes : A (liveBytes o.packets+bytesLost r.2) r.1.control := by
    rw [hstep.bytes,hr]
    exact h.accounted
  refine (ends_tellLoss htracks hbytes).imp ?_
  rintro conn' ⟨control,hconn',hA⟩
  subst hconn'
  rw [hr]
  refine ⟨h.of_within ⟨hstep.within.consistent h.consistent hstep.counted,fun q hq => ?_,hA⟩
    hstep.within fun _ => rfl,hstep.within,rfl,rfl,rfl⟩
  obtain ⟨p,hp,hpq⟩ := exists_of_mem_forall₂ hstep.judged q hq
  rw [hpq.scheduled_eq,h.unscheduled p hp]

def zeroRttLive (p : OutstandingPacket) : Bool :=
  p.live && p.inSpace .appData && p.protectionType = .zeroRtt

lemma ends_rejectZeroRtt (hE : E lostBytesOverflow) {total : ℕ} {t : LossTally}
    {pre post : List OutstandingPacket} {p : OutstandingPacket} (hp : p.FromScheduler)
    (hvisitor : p.live → p.inSpace .appData → ∀ b,Ends (lossVisitor p b) E fun _ => True)
    (h : t.Balanced total ids (pre++p::post)) : Ends (rejectZeroRtt lossVisitor t p) E fun r =>
      r.1.Balanced total ids (pre++(r.2++post)) ∧ r.2 = if zeroRttLive p then [] else [p] := by
  unfold rejectZeroRtt
  change Ends (if zeroRttLive p = true then _ else _) _ _
  split_ifs with hz
  · simp only [zeroRttLive,Bool.and_eq_true,decide_eq_true_eq] at hz
    obtain ⟨⟨hlive,hspace⟩,hkey⟩ := hz
    -- a DSR packet has a 1-RTT key, so the DSR count need not change
    have hdsr : p.isDSRPacket=false := by
      by_contra hd
      rw [hp.dsrKey (by simpa using hd)] at hkey
      cases hkey
    obtain ⟨c',hretire,⟨hcount,-⟩,hids,hcounted⟩ := Counted.retire [] t.counts.dsrCount 0 h.counted hlive
      (by simp) (by simp) (by simp [hdsr])
    refine (hvisitor hlive hspace _).bind fun _ _ => ?_
    rw [hretire]
    refine ((ends_addLostPacket t.lossEvent p).mono ?_ fun _ => id).bind fun e he => ?_
    · rintro _ rfl
      exact hE
    · refine ⟨⟨?_,hids.trans h.ids,?_,he.1⟩,rfl⟩
      · simpa [← hcount] using hcounted
      · have hbytes := h.bytes
        simp only [liveBytes_append,liveBytes_cons,hlive,if_true] at hbytes
        change liveBytes (pre++([]++post))+e.lostBytes = total
        rw [he.2,List.nil_append,liveBytes_append]
        omega
  · exact ⟨h,rfl⟩

lemma ends_sweep_rejectZeroRtt (hE : E lostBytesOverflow) (h : conn.outstandings.Consistent) (now : ℤ)
    (hvisitor : VisitorOk E lossVisitor .appData conn.outstandings.packets) :
    Ends (sweep (rejectZeroRtt lossVisitor)
      {counts := conn.outstandings.toOutstandingCounts, lossEvent := {lossTime := now}}
      conn.outstandings.packets) E fun r =>
        r.1.Balanced (liveBytes conn.outstandings.packets) conn.outstandings.clonedPacketIdentifiers r.2 ∧
          r.2 = conn.outstandings.packets.filter fun p => !zeroRttLive p := by
  rw [← flatMap_erase]
  refine ends_sweep_flatMap (I := fun (t : LossTally) l => t.Balanced _ _ l) ?_
    ⟨h.counted,subset_rfl,rfl,LossEvent.Built.start now⟩
  intro t pre p rest hsuffix hI
  have hmem := hsuffix.subset List.mem_cons_self
  exact ends_rejectZeroRtt hE (h.built p hmem) (hvisitor p hmem) hI

section
variable (htracks : Tracks cc E A) (hE : E lostBytesOverflow)
include htracks hE

theorem ends_markZeroRttPacketsLost
    (h : conn.Sound A) (now : ℤ)
    (hvisitor : VisitorOk E lossVisitor .appData conn.outstandings.packets) :
    Ends (conn.markZeroRttPacketsLost cc lossVisitor now) E fun conn' =>
      (conn'.Sound A ∧ conn.Quiet conn') ∧
        conn'.outstandings.packets = conn.outstandings.packets.filter fun p => !zeroRttLive p := by
  refine (ends_sweep_rejectZeroRtt hE h.consistent now hvisitor).bind ?_
  rintro r ⟨hbal,hfilter⟩
  have hbytes := hbal.bytesLost_reported
  have hsub := hfilter ▸ List.filter_sublist
  have hwithin : OutstandingsInfo.Within {r.1.counts with packets := r.2} conn.outstandings :=
    .of_sublist hsub hbal.ids
  have hA : A (liveBytes r.2+bytesLost r.1.reported) conn.control := by
    rw [hbytes]
    exact h.accounted
  refine (ends_tellRemoved (n := liveBytes r.2) htracks ?_).imp ?_
  · exact hA
  · rintro conn' ⟨control,rfl,hA'⟩
    refine ⟨⟨?_,hwithin,rfl,rfl,rfl⟩,hfilter⟩
    exact h.of_within ⟨hwithin.consistent h.consistent hbal.counted,
      fun p hp => h.unscheduled p (hsub.subset hp),hA'⟩ hwithin fun _ => rfl

lemma ends_onPTOAlarm (hpto : E exceededMaxPTO)
    (h : conn.Sound A) (now : ℤ) :
    Ends (conn.onPTOAlarm cc now) E fun conn' => conn'.Sound A ∧ conn.Quiet conn' := by
  unfold onPTOAlarm
  split_ifs
  · exact hpto
  · refine (ends_markZeroRttPacketsLost htracks hE ?_ now (visitorOk_markPacketLoss _ _)).imp ?_
    · exact h.congr rfl (fun _ => rfl) rfl
    · rintro conn' ⟨⟨hsound,hquiet⟩,-⟩
      refine ⟨hsound,Quiet.trans ?_ hquiet⟩
      exact .of_eq rfl rfl rfl rfl
  · exact ⟨h.congr rfl (fun _ => rfl) rfl,.of_eq rfl rfl rfl rfl⟩

lemma ends_onAlarm (hpto : E exceededMaxPTO)
    (h : conn.Sound A) (now : ℤ)
    (hcheck : conn.lossState.currentAlarmMethod = .earlyRetransmitOrReordering →
      conn.earliestLossTimer.1.isSome = false → E .checkFailed)
    (hvisitor : ∀ s,VisitorOk E lossVisitor s conn.outstandings.packets) :
    Ends (conn.onAlarm cc lossVisitor now) E fun conn' => conn'.Sound A ∧ conn.Quiet conn' := by
  unfold onAlarm
  split
  · rename_i hmethod
    cases htimer : conn.earliestLossTimer.1.isSome with
    | false => exact hcheck hmethod htimer
    | true =>
      exact ends_detectLossPackets_tellLoss htracks hE h now _ (hvisitor _)
  · exact ends_onPTOAlarm htracks hE hpto h now

theorem ends_onLossDetectionAlarm
    (hpto : E exceededMaxPTO) (h : conn.Sound A) (now : ℤ)
    (hcheck : conn.lossState.currentAlarmMethod = .earlyRetransmitOrReordering →
      conn.earliestLossTimer.1.isSome = false → E .checkFailed)
    (hvisitor : ∀ s,VisitorOk E lossVisitor s conn.outstandings.packets) :
    Ends (conn.onLossDetectionAlarm cc lossVisitor now) E fun conn' => conn'.Sound A ∧ conn.Quiet conn' ∧
      (conn.outstandings.packets=[] ∧ conn'=conn ∨ conn'.setLossDetectionAlarm =
        decide (0 < conn'.outstandings.packets.countP OutstandingPacket.live)) := by
  unfold onLossDetectionAlarm
  split_ifs with hempty
  · exact ⟨h,.of_eq rfl rfl rfl rfl,.inl ⟨List.isEmpty_iff.mp hempty,rfl⟩⟩
  · refine (ends_onAlarm htracks hE hpto h now hcheck hvisitor).bind ?_
    rintro conn' ⟨hsound,hquiet⟩
    rw [requestAlarm_eq hsound.consistent]
    exact ⟨hsound.congr rfl (fun _ => rfl) rfl,hquiet.trans (.of_eq rfl rfl rfl rfl),.inr rfl⟩

end

end Connection

end QuicWestwood
