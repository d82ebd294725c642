import QuicWestwood.ConnectionRun

/-! `setLossDetectionAlarm`, the loss timer of the transport and the loop of events around them. As long as the
timer fires only when the alarm has been set since the last ack, a connection with a live packet that is not a
processed clone never loses its timer, and the alarm always finds the loss time it looks for. -/
namespace QuicWestwood
open Connection

/-- `folly::chrono::ceil<milliseconds>` of nanoseconds. -/
def ceilMillis (ns : ℤ) : ℤ := -((-ns)/1000000)

/-- A connection and the timeout for which its loss timer is scheduled, in milliseconds. -/
structure Timed (σ : Type) where
  conn : Connection σ
  lossTimeout : Option ℤ := none

/-- The events between which the timer is observed. What there is to write is not part of
the state, nor is the clock. -/
inductive LoopEvent
  | send (packet : SentPacket)
  | clone (index : ℕ) (copy : Option SentPacket)
  | installOneRttWriteCipher
  | processAckFrame (pnSpace : PacketNumberSpace) (frame : ReadAckFrame) (streamAlive : ℕ → Bool)
      (ackReceiveTime nowTime : ℤ)
  | lossTimeoutExpired (now : ℤ)
  | setLossDetectionAlarm (hasDataToWrite : Bool) (now : ℤ)

variable {σ : Type}

namespace Connection

/-- In microseconds, from the last retransmittable packet on. -/
def alarmDuration (conn : Connection σ) : ℤ × AlarmMethod :=
  match conn.earliestLossTimer.1 with
  | some lossTime =>
    (if conn.lossState.lastRetransmittablePacketSentTime<lossTime then
      (lossTime-conn.lossState.lastRetransmittablePacketSentTime).tdiv 1000 else 0,
      .earlyRetransmitOrReordering)
  | none =>
    (conn.lossState.calculatePTO conn.transportSettings*2^min conn.lossState.ptoCount 31,.pto)

def calculateAlarmDuration (conn : Connection σ) (now : ℤ) : ℤ × AlarmMethod :=
  (if now < conn.lossState.lastRetransmittablePacketSentTime+1000*conn.alarmDuration.1 then
    ceilMillis (conn.lossState.lastRetransmittablePacketSentTime+1000*conn.alarmDuration.1-now)
    else 0,conn.alarmDuration.2)

/-- The timer for reordering is set but its loss time is gone. -/
def invalidated (conn : Connection σ) : Bool :=
  conn.lossState.currentAlarmMethod = .earlyRetransmitOrReordering && conn.earliestLossTimer.1.isNone

end Connection

namespace Timed

def setLossDetectionAlarm (t : Timed σ) (hasDataToWrite : Bool) (now : ℤ) : Except Failure (Timed σ) := do
  let totalPacketsOutstanding ← t.conn.outstandings.numOutstanding
  if !hasDataToWrite && t.conn.outstandings.clonedPacketIdentifiers = ∅ &&
      totalPacketsOutstanding = t.conn.outstandings.numClonedPackets then
    return {conn := {t.conn with setLossDetectionAlarm := false}, lossTimeout := none}
  else if !t.conn.setLossDetectionAlarm then
    return {t with lossTimeout := if t.conn.invalidated then none else t.lossTimeout}
  else
    return {
      conn := {t.conn with
        lossState := {t.conn.lossState with
          currentAlarmMethod := (t.conn.calculateAlarmDuration now).2}
        setLossDetectionAlarm := false}
      lossTimeout := some (t.conn.calculateAlarmDuration now).1}

def lossTimeoutExpired (cc : Controller σ) (t : Timed σ) (now : ℤ) : Except Failure (Timed σ) :=
  if t.lossTimeout.isSome then
    (fun conn => {conn}) <$> t.conn.onLossDetectionAlarm cc markPacketLoss now
  else .ok t

def perform (cc : Controller σ) (t : Timed σ) : LoopEvent → Except Failure (Timed σ)
  | .send packet => (fun conn => {t with conn}) <$> t.conn.updateConnection cc none packet
  | .clone index copy => (fun conn => {t with conn}) <$> t.conn.scheduleClone cc index copy
  | .installOneRttWriteCipher => .ok {t with conn := {t.conn with oneRttWriteCipher := true}}
  | .processAckFrame pnSpace frame streamAlive ackReceiveTime nowTime =>
    (fun r => {t with conn := r.1}) <$>
      t.conn.processAckFrame cc pnSpace frame markPacketLoss streamAlive ackReceiveTime nowTime
  | .lossTimeoutExpired now => t.lossTimeoutExpired cc now
  | .setLossDetectionAlarm hasDataToWrite now => t.setLossDetectionAlarm hasDataToWrite now

end Timed

/-- The timer never fires between an ack and the next call of `setLossDetectionAlarm`.
`heard` tells whether an ack was processed since the last one. -/
def FiresInTime : Bool → List LoopEvent → Prop
  | _, [] => True
  | _, .setLossDetectionAlarm _ _::events => FiresInTime false events
  | _, .processAckFrame ..::events => FiresInTime true events
  | heard, .lossTimeoutExpired _::events => heard = false ∧ FiresInTime heard events
  | heard, _::events => FiresInTime heard events

namespace Timed

def Unprocessed (t : Timed σ) : Prop :=
  ∃ p ∈ t.conn.outstandings.packets,p.live ∧ t.conn.outstandings.needsProcess p

instance (t : Timed σ) : Decidable t.Unprocessed :=
  inferInstanceAs (Decidable (∃ p ∈ t.conn.outstandings.packets,p.live ∧ t.conn.outstandings.needsProcess p))

structure Armed (heard : Bool) (t : Timed σ) : Prop where
  sound : t.conn.Sound fun _ _ => True
  armed : t.Unprocessed → t.conn.setLossDetectionAlarm=true ∨ t.lossTimeout.isSome ∧ t.conn.invalidated=false
  valid : heard=false → t.lossTimeout.isSome → t.conn.invalidated=false

end Timed

namespace Connection
variable {conn conn' : Connection σ}

lemma invalidated_congr (htimes : conn'.lossState.lossTimes=conn.lossState.lossTimes)
    (hmethod : conn'.lossState.currentAlarmMethod=conn.lossState.currentAlarmMethod)
    (hcipher : conn'.oneRttWriteCipher=conn.oneRttWriteCipher) : conn'.invalidated=conn.invalidated := by
  simp only [invalidated,earliestLossTimer,htimes,hmethod,hcipher]

lemma isSome_earlierOf (a b : Option ℤ × PacketNumberSpace) :
    (earlierOf a b).1.isSome = (a.1.isSome || b.1.isSome) := by
  obtain ⟨_ | s,x⟩ := a <;> obtain ⟨_ | u,y⟩ := b
  · rfl
  · rfl
  · rfl
  · simp only [earlierOf]
    split_ifs <;> rfl

lemma isSome_earliestLossTimer_installed (h : conn.earliestLossTimer.1.isSome) :
    ({conn with oneRttWriteCipher := true} : Connection σ).earliestLossTimer.1.isSome := by
  simp only [earliestLossTimer,isSome_earlierOf,Bool.or_eq_true] at h ⊢
  refine h.imp_right fun h => ?_
  split_ifs at h
  · exact h
  · cases h

lemma invalidated_calculateAlarmDuration (now : ℤ) (b : Bool) :
    invalidated {conn with
      lossState := {conn.lossState with currentAlarmMethod := (conn.calculateAlarmDuration now).2}
      setLossDetectionAlarm := b} = false := by
  change (decide ((conn.calculateAlarmDuration now).2 = .earlyRetransmitOrReordering) &&
    conn.earliestLossTimer.1.isNone) = false
  unfold calculateAlarmDuration alarmDuration
  cases conn.earliestLossTimer.1 <;> simp

end Connection

namespace Timed
variable {heard : Bool} {t : Timed σ} {conn' : Connection σ}

lemma Armed.of_send (h : t.Armed heard) {id : Option ClonedPacketIdentifier} {packet : SentPacket}
    (hsound : conn'.Sound fun _ _ => True) (hsend : Connection.SendResult id packet t.conn conn') :
    Armed heard {t with conn := conn'} := by
  obtain ⟨time,hloss⟩ := hsend.lossState
  have hinvalid : conn'.invalidated=t.conn.invalidated := by
    refine invalidated_congr ?_ ?_ ?_
    · rw [hloss]
    · rw [hloss]
    · rw [hsend.rest]
      rfl
  have hflag : conn'.setLossDetectionAlarm = (t.conn.setLossDetectionAlarm || packet.retransmittable) := by
    rw [hsend.rest]
    rfl
  refine ⟨hsound,?_,fun hheard hsome => hinvalid.trans (h.valid hheard hsome)⟩
  rintro ⟨p,hp,hlive,hneeds⟩
  rw [hflag,hinvalid]
  cases hretrans : packet.retransmittable with
  | true => exact .inl (Bool.or_true _)
  | false =>
    rw [Bool.or_false]
    refine h.armed ⟨p,?_,hlive,?_⟩
    · have hpackets := hsend.packets
      rw [hretrans,if_neg Bool.false_ne_true] at hpackets
      rwa [hpackets] at hp
    · unfold OutstandingCounts.needsProcess at hneeds ⊢
      simp only [hsend.ids] at hneeds
      exact hneeds

lemma Armed.of_packets (h : t.Armed heard) {o : OutstandingsInfo}
    (hsound : Connection.Sound (fun _ _ => True) {t.conn with outstandings := o})
    (hbefore : t.Unprocessed) : Armed heard {t with conn := {t.conn with outstandings := o}} :=
  ⟨hsound,fun _ => h.armed hbefore,h.valid⟩

lemma Armed.of_flag (hsound : conn'.Sound fun _ _ => True)
    (hflag : conn'.setLossDetectionAlarm =
      decide (0 < conn'.outstandings.packets.countP OutstandingPacket.live))
    (hvalid : heard=false → t.lossTimeout.isSome → conn'.invalidated=false) :
    Armed heard {t with conn := conn'} := by
  refine ⟨hsound,?_,hvalid⟩
  rintro ⟨p,hp,hlive,-⟩
  refine .inl ?_
  rw [hflag,decide_eq_true_eq]
  exact List.countP_pos_iff.mpr ⟨p,hp,hlive⟩

section Steps
variable {E : Failure → Prop} {cc : Controller σ}

lemma ends_send (htracks : Tracks cc E fun _ _ => True) (h : t.Armed heard)
    {id : Option ClonedPacketIdentifier} {packet : SentPacket}
    (hid : ∀ i,id = some i → i.packetNumberSpace=packet.packetNumberSpace) :
    Ends ((fun conn => {t with conn}) <$> t.conn.updateConnection cc id packet) E (Armed heard) :=
  Ends.map (((ends_updateConnection htracks h.sound hid).and
    (updateConnection_result cc t.conn id packet)).mono (fun _ he => he.1)
    fun _ hconn' => h.of_send hconn'.1 hconn'.2)

lemma ends_clone (htracks : Tracks cc E fun _ _ => True) (h : t.Armed heard) (index : ℕ)
    (copy : Option SentPacket) :
    Ends ((fun conn => {t with conn}) <$> t.conn.scheduleClone cc index copy) E (Armed heard) := by
  unfold scheduleClone
  split
  · exact h
  · rename_i p hp
    split_ifs with hok
    · simp only [OutstandingCounts.cloneable,Bool.and_eq_true,Bool.not_eq_true'] at hok
      obtain ⟨hsound,hspace⟩ := sound_cloneOutstandingPacket h.sound hp hok.1.1.1
      have hmem := List.mem_of_getElem? hp
      have hlive : p.live := by
        rw [OutstandingPacket.live,hok.1.1.1,h.sound.unscheduled p hmem]
        rfl
      have hrest := cloneOutstandingPacket_rest t.conn index p
      have hcloned : Armed heard {t with conn := (t.conn.cloneOutstandingPacket index p).1} := by
        rw [hrest] at hsound ⊢
        exact h.of_packets hsound ⟨p,hmem,hlive,hok.1.2⟩
      cases copy with
      | none => exact hcloned
      | some packet =>
        refine ends_send (t := {t with conn := (t.conn.cloneOutstandingPacket index p).1}) htracks hcloned
          fun id hid => ?_
        obtain rfl := Option.some.inj hid
        simp only [Option.all_some,Bool.and_eq_true,decide_eq_true_eq] at hok
        rw [hspace,hok.2.2]
    · exact h

lemma Armed.installed (h : t.Armed heard) :
    Armed heard {t with conn := {t.conn with oneRttWriteCipher := true}} := by
  have hinvalid : t.conn.invalidated=false →
      ({t.conn with oneRttWriteCipher := true} : Connection σ).invalidated = false := by
    simp only [invalidated,Bool.and_eq_false_imp,Option.isNone_eq_false_iff]
    exact fun hsome hmethod => isSome_earliestLossTimer_installed (hsome hmethod)
  exact ⟨h.sound.congr rfl (fun _ => rfl) rfl,fun hun => (h.armed hun).imp_right (And.imp_right hinvalid),
    fun hheard hsome => hinvalid (h.valid hheard hsome)⟩

lemma ends_ack (htracks : Tracks cc E fun _ _ => True) (hE : E lostBytesOverflow)
    (hopt : E .optionalEmptyException) (h : t.Armed heard) (pnSpace : PacketNumberSpace)
    (frame : ReadAckFrame) (streamAlive : ℕ → Bool) (ackReceiveTime nowTime : ℤ) :
    Ends ((fun r => {t with conn := r.1}) <$>
      t.conn.processAckFrame cc pnSpace frame markPacketLoss streamAlive ackReceiveTime nowTime) E
      (Armed true) := by
  refine Ends.map ((ends_processAckFrame htracks hE hopt h.sound.toSettled pnSpace frame
    streamAlive ackReceiveTime nowTime (visitorOk_markPacketLoss _ _)).imp ?_)
  rintro r ⟨hsettled,hwithin,hresult⟩
  exact .of_flag (h.sound.of_within hsettled hwithin hresult.nextPacketNum) hresult.alarm nofun

lemma ends_expired (htracks : Tracks cc E fun _ _ => True) (hE : E lostBytesOverflow)
    (hpto : E exceededMaxPTO) (h : t.Armed false) (now : ℤ) :
    Ends (t.lossTimeoutExpired cc now) E (Armed false) := by
  unfold lossTimeoutExpired
  split_ifs with hscheduled
  · have hvalid := h.valid rfl hscheduled
    refine Ends.map ((ends_onLossDetectionAlarm htracks hE hpto h.sound now ?_
      fun s => visitorOk_markPacketLoss s _).imp ?_)
    · intro hmethod hnone
      simp [invalidated,hmethod,hnone] at hvalid
    · rintro conn' ⟨hsound,-,⟨hempty,rfl⟩ | hflag⟩
      · refine ⟨hsound,?_,nofun⟩
        rintro ⟨p,hp,-⟩
        rw [hempty] at hp
        cases hp
      · exact .of_flag (t := {t with lossTimeout := none}) hsound hflag nofun
  · exact h

lemma not_unprocessed (hcounted : Counted 0 t.conn.outstandings.toOutstandingCounts t.conn.outstandings.packets)
    (hids : t.conn.outstandings.clonedPacketIdentifiers = ∅)
    (hclones : t.conn.outstandings.packets.countP OutstandingPacket.live =
      t.conn.outstandings.numClonedPackets) : ¬t.Unprocessed := by
  rintro ⟨p,hp,hlive,hneeds⟩
  have hclone : p.maybeClonedPacketIdentifier.isSome := by
    rw [hcounted.numClonedPackets_eq] at hclones
    refine List.countP_eq_length (p := fun q => q.maybeClonedPacketIdentifier.isSome).mp ?_ p
      (List.mem_filter.mpr ⟨hp,hlive⟩)
    rw [List.countP_filter,← List.countP_eq_length_filter,hclones]
    exact congrArg (List.countP · _) (funext fun q => Bool.and_comm _ _)
  obtain ⟨id,hid⟩ := Option.isSome_iff_exists.mp hclone
  unfold OutstandingCounts.needsProcess at hneeds
  rw [hid] at hneeds
  simp [hids] at hneeds

lemma ends_set (h : t.Armed heard) (hasDataToWrite : Bool) (now : ℤ) :
    Ends (t.setLossDetectionAlarm hasDataToWrite now) E
      fun t' => t'.Armed false ∧ (t'.Unprocessed → t'.lossTimeout.isSome) := by
  have hcounted := h.sound.consistent.counted
  unfold setLossDetectionAlarm
  rw [OutstandingsInfo.numOutstanding,hcounted.numOutstanding_eq,ByteCodec.ok_bind]
  split
  · rename_i hidle
    simp only [Bool.and_eq_true,decide_eq_true_eq] at hidle
    have hnone := not_unprocessed hcounted hidle.1.2 hidle.2
    exact ⟨⟨h.sound.congr rfl (fun _ => rfl) rfl,fun hun => absurd hun hnone,fun _ hsome => by cases hsome⟩,
      fun hun => absurd hun hnone⟩
  · split
    · rename_i hflag
      rw [Bool.not_eq_true'] at hflag
      have hkept : t.Unprocessed → t.lossTimeout.isSome ∧ t.conn.invalidated=false := fun hun =>
        (h.armed hun).resolve_left (by rw [hflag]; exact Bool.false_ne_true)
      cases hinvalid : t.conn.invalidated with
      | true =>
        have hnone : ¬t.Unprocessed := fun hun => by simpa [hinvalid] using (hkept hun).2
        exact ⟨⟨h.sound,fun hun => absurd hun hnone,fun _ hsome => by cases hsome⟩,fun hun => absurd hun hnone⟩
      | false =>
        exact ⟨⟨h.sound,fun hun => .inr (hkept hun),fun _ _ => hinvalid⟩,fun hun => (hkept hun).1⟩
    · exact ⟨⟨h.sound.congr rfl (fun _ => rfl) rfl,
        fun _ => .inr ⟨rfl,invalidated_calculateAlarmDuration now false⟩,
        fun _ _ => invalidated_calculateAlarmDuration now false⟩,fun _ => rfl⟩

lemma ends_run (htracks : Tracks cc E fun _ _ => True) (hE : E lostBytesOverflow)
    (hopt : E .optionalEmptyException) (hpto : E exceededMaxPTO) {events : List LoopEvent}
    (hevents : FiresInTime heard events) (h : t.Armed heard) :
    Ends (runFallible (perform cc) t events) E fun t' => ∃ heard',t'.Armed heard' := by
  -- `heard` follows the events, so the induction is over every state and every `heard`
  induction events generalizing t heard with
  | nil => exact ⟨heard,h⟩
  | cons event events ih =>
    cases event with
    | send packet =>
      refine (ends_send htracks h ?_).bind fun _ => ih hevents
      exact nofun
    | clone index copy => exact (ends_clone htracks h index copy).bind fun _ => ih hevents
    | installOneRttWriteCipher => exact ih hevents h.installed
    | processAckFrame pnSpace frame streamAlive ackReceiveTime nowTime =>
      exact (ends_ack htracks hE hopt h pnSpace frame streamAlive ackReceiveTime nowTime).bind
        fun _ => ih hevents
    | lossTimeoutExpired now =>
      obtain ⟨rfl,hevents⟩ := hevents
      exact (ends_expired htracks hE hpto h now).bind fun _ => ih hevents
    | setLossDetectionAlarm hasDataToWrite now =>
      exact (ends_set h hasDataToWrite now).bind fun _ h' => ih hevents h'.1

end Steps

/-- In a run in which the timer fires only when the alarm has been set since the last ack,
`setLossDetectionAlarm` leaves the timer scheduled whenever there is something to watch, and
no check of the code fails. -/
theorem loss_alarm_never_missing (cc : Controller σ) (conn : Connection σ) (hempty : conn.outstandings = {})
    (events : List LoopEvent) (hevents : FiresInTime false events) (hasDataToWrite : Bool) (now : ℤ) :
    let run := runFallible (perform cc) {conn} (events++[.setLossDetectionAlarm hasDataToWrite now])
    (∀ t,run = .ok t → t.Unprocessed → t.lossTimeout.isSome) ∧
      (run = .error .checkFailed → ∃ s event,(cc s event).thrown = some .checkFailed) := by
  intro run
  have hnone : ¬Unprocessed {conn} := by
    rintro ⟨p,hp,-⟩
    rw [hempty] at hp
    cases hp
  have hstart : Armed false {conn} :=
    ⟨.of_empty hempty trivial,fun hun => absurd hun hnone,nofun⟩
  have htracks : Tracks cc
      (fun e => e = .checkFailed → ∃ s event,(cc s event).thrown = some .checkFailed)
      fun _ _ => True := by
    refine tracks_of_thrown ?_
    rintro s event e hthrown rfl
    exact ⟨s,event,hthrown⟩
  have hrun : Ends run
      (fun e => e = .checkFailed → ∃ s event,(cc s event).thrown = some .checkFailed)
      fun t => t.Unprocessed → t.lossTimeout.isSome := by
    unfold run
    rw [runFallible_append]
    refine (ends_run htracks nofun nofun nofun hevents hstart).bind ?_
    rintro t ⟨heard,h⟩
    exact (ends_set h hasDataToWrite now).bind fun _ h' => h'.2
  exact ⟨fun t ht => hrun.of_eq_ok ht,fun he => hrun.of_eq_error he rfl⟩

section Reordered

def reordered : List LoopEvent :=
  let packet : SentPacket :=
    {protectionType := .initial, frames := [.writeCryptoFrame], sentTime := 0, encodedSize := 1200}
  [.send packet,.send packet,.setLossDetectionAlarm false 0,
    .processAckFrame .initial {largestAcked := 1, ackBlocks := [⟨1,1⟩]} (fun _ => true) 2000000 2000000,
    .setLossDetectionAlarm false 2000000]

def ackedLate : List LoopEvent :=
  let packet : SentPacket :=
    {protectionType := .initial, frames := [.writeCryptoFrame], sentTime := 2000000, encodedSize := 1200}
  [.send packet,
    .processAckFrame .initial {largestAcked := 1, ackBlocks := [⟨0,0⟩]} (fun _ => true) 3000000 3000000]

theorem loss_alarm_never_missing_reordered :
    let cc : Controller Unit := fun s _ => .done s
    let conn : Connection Unit := {control := {cc := ()}}
    let events := reordered++ackedLate
    FiresInTime false events ∧
      ∃ t,runFallible (perform cc) {conn} (events++[.setLossDetectionAlarm false 3000000]) = .ok t ∧
        t.Unprocessed ∧ t.lossTimeout.isSome := by
  intro cc conn events
  have hevents : FiresInTime false events := by simp [events,reordered,ackedLate,FiresInTime]
  have hun : (fun t : Timed Unit => decide t.Unprocessed) <$>
      runFallible (perform cc) {conn} (events++[.setLossDetectionAlarm false 3000000]) = .ok true := by
    decide +kernel
  refine ⟨hevents,?_⟩
  cases hrun : runFallible (perform cc) {conn} (events++[.setLossDetectionAlarm false 3000000]) with
  | error e =>
    rw [hrun] at hun
    cases hun
  | ok t =>
    rw [hrun] at hun
    have hunprocessed := of_decide_eq_true (Except.ok.inj hun)
    obtain ⟨hscheduled,-⟩ := loss_alarm_never_missing cc conn rfl events hevents false 3000000
    exact ⟨t,rfl,hunprocessed,hscheduled t hrun hunprocessed⟩

/-- Without `setLossDetectionAlarm` after the late ack the timer for reordering fires and its
loss time is gone. -/
theorem lossTimeoutExpired_checkFailed :
    let cc : Controller Unit := fun s _ => .done s
    let conn : Connection Unit := {control := {cc := ()}}
    (fun _ => ()) <$> runFallible (perform cc) {conn} (reordered++ackedLate) = .ok () ∧
      (fun _ => ()) <$> runFallible (perform cc) {conn}
        (reordered++ackedLate++[.lossTimeoutExpired 4000000]) = .error .checkFailed := by
  decide +kernel

end Reordered

end Timed

end QuicWestwood
