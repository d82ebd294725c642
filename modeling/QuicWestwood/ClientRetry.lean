import QuicWestwood.InflightAccount

/-! `undoAllClientStateForRetry` builds a new connection state for the answer to a Retry. It keeps the 0-RTT
packets, only to declare them lost at once, and the whole loss state, and with it the bytes in flight of the
packets that it drops. -/
namespace QuicWestwood
open OutstandingPacket OutstandingCounts List
variable {σ : Type}

/-- `AppData` and `ZeroRtt` -/
def OutstandingPacket.isZeroRtt (p : OutstandingPacket) : Bool :=
  p.inSpace .appData && p.protectionType = .zeroRtt

namespace Connection

/-- Only 0-RTT packets are moved, and each is counted, lost or not. -/
def zeroRttOutstandings (o : OutstandingsInfo) : OutstandingsInfo :=
  {packets := o.packets.filter isZeroRtt
   packetCount := Function.update (fun _ => 0) .appData (o.packets.filter isZeroRtt).length}

/-- `fresh` is the congestion controller that the factory makes for the new state. -/
def undoAllClientStateForRetry (cc : Controller σ) (fresh : Controlled σ) (conn : Connection σ) (now : ℤ) :
    Except Failure (Connection σ) :=
  {outstandings := zeroRttOutstandings conn.outstandings
   lossState := conn.lossState
   ackStates := fun s => {nextPacketNum := (conn.ackStates s).nextPacketNum}
   transportSettings := conn.transportSettings
   control := {fresh with inflightBytes := conn.control.inflightBytes}
   : Connection σ}.markZeroRttPacketsLost cc markPacketLoss now

end Connection

/-- Removed bytes are subtracted, with a check for underflow. -/
def SubtractsRemoved (cc : Controller σ) : Prop :=
  ∀ s bytes,cc s (.removeBytesFromInflight bytes) = s.onRemoveBytesFromInflight bytes

lemma Westwood.subtractsRemoved (clock : ℕ → ℤ) (fp : FloatUnit) (c : CwndSettings) :
    SubtractsRemoved (Westwood.handle clock fp c) := fun _ _ => rfl

/-- The counters of the new state with `n` packets to go: it knows no clones. -/
structure LossTally.Moved (n : ℕ) (t : LossTally) : Prop where
  ids : t.counts.clonedPacketIdentifiers = ∅
  clones : t.counts.clonedPacketCount .appData = 0
  count : n ≤ t.counts.packetCount .appData
  built : t.lossEvent.Built

namespace Connection
variable {t : LossTally} {n : ℕ} {p : OutstandingPacket}

lemma rejectZeroRtt_plain (h : t.Moved (n+1)) (hzero : p.isZeroRtt) (hlive : p.live)
    (hnone : p.maybeClonedPacketIdentifier=none) (hbytes : t.lossEvent.lostBytes+p.size < 2^64) :
    ∃ t' : LossTally,rejectZeroRtt markPacketLoss t p = .ok (t',[]) ∧ t'.Moved n ∧
      t'.lossEvent.lostBytes = t.lossEvent.lostBytes+p.size := by
  have hzero' := hzero
  simp only [isZeroRtt,inSpace,Bool.and_eq_true,decide_eq_true_eq] at hzero'
  have hpos := lt_of_lt_of_le n.succ_pos h.count
  have hneeds : t.counts.needsProcess p = true := by rw [needsProcess,hnone]
  obtain ⟨c,hretire,hids,hclones,hcount⟩ : ∃ c : OutstandingCounts,t.counts.retire p = .ok c ∧
      c.clonedPacketIdentifiers = ∅ ∧ c.clonedPacketCount .appData = 0 ∧
      c.packetCount .appData = t.counts.packetCount .appData-1 := by
    rw [retire,hneeds,hzero'.1,Counted.decrementIf_of_pos fun _ => hpos,hnone]
    refine ⟨_,rfl,?_,h.clones,by simp⟩
    rw [eraseIdentifier,hnone]
    exact h.ids
  obtain ⟨e,he⟩ : ∃ e,t.lossEvent.addLostPacket p = .ok e := by
    rw [LossEvent.addLostPacket,if_neg (by omega)]
    exact ⟨_,rfl⟩
  have hbuilt := Ends.of_eq_ok (ends_addLostPacket t.lossEvent p) he
  refine ⟨{t with counts := c, lossEvent := e},?_,⟨hids,hclones,?_,hbuilt.1⟩,hbuilt.2⟩
  · rw [rejectZeroRtt,if_pos (by rw [hlive,Bool.true_and]; exact hzero),hretire,he]
    rfl
  · have hle := h.count
    rw [hcount]
    omega

lemma rejectZeroRtt_clone (h : t.Moved n) (hzero : p.isZeroRtt) (hlive : p.live)
    (hclone : p.maybeClonedPacketIdentifier.isSome) :
    rejectZeroRtt markPacketLoss t p = .error .checkFailed := by
  have hzero' := hzero
  simp only [isZeroRtt,inSpace,Bool.and_eq_true,decide_eq_true_eq] at hzero'
  obtain ⟨id,hid⟩ := Option.isSome_iff_exists.mp hclone
  have hneeds : t.counts.needsProcess p = false := by
    simp [needsProcess,hid,h.ids]
  rw [rejectZeroRtt,if_pos (by rw [hlive,Bool.true_and]; exact hzero),retire,hneeds,
    hclone,hzero'.1,decrementIf,decrementIf,h.clones]
  rfl

lemma ends_rejectZeroRtt_moved (h : t.Moved (n+1)) (hzero : p.isZeroRtt)
    (hbytes : t.lossEvent.lostBytes+liveBytes [p] < 2^64) :
    Ends (rejectZeroRtt markPacketLoss t p) (fun _ => p.live ∧ p.maybeClonedPacketIdentifier.isSome)
      fun r => (p.live → p.maybeClonedPacketIdentifier=none) ∧ r.2 = [p].filter (fun p => !p.live) ∧
        r.1.Moved n ∧ r.1.lossEvent.lostBytes = t.lossEvent.lostBytes+liveBytes [p] := by
  rw [liveBytes_cons,liveBytes_nil,Nat.add_zero] at *
  cases hlive : p.live with
  | false =>
    rw [rejectZeroRtt,hlive]
    refine ⟨nofun,?_,⟨h.ids,h.clones,(Nat.le_succ n).trans h.count,h.built⟩,rfl⟩
    rw [filter_cons,hlive]
    rfl
  | true =>
    rw [hlive,if_pos rfl] at hbytes
    cases hclone : p.maybeClonedPacketIdentifier with
    | some id =>
      rw [rejectZeroRtt_clone h hzero hlive (by rw [hclone]; rfl)]
      exact ⟨rfl,rfl⟩
    | none =>
      obtain ⟨t',heq,hmoved,hlost⟩ := rejectZeroRtt_plain h hzero hlive hclone hbytes
      rw [heq]
      refine ⟨fun _ => rfl,?_,hmoved,hlost⟩
      rw [filter_cons,hlive]
      rfl

lemma ends_sweep_moved (packets : List OutstandingPacket) (hzero : ∀ p ∈ packets,p.isZeroRtt)
    (h : t.Moved packets.length) (hbytes : t.lossEvent.lostBytes+liveBytes packets < 2^64) :
    Ends (sweep (rejectZeroRtt markPacketLoss) t packets)
      (fun _ => ∃ p ∈ packets,p.live ∧ p.maybeClonedPacketIdentifier.isSome) fun r =>
        (∀ p ∈ packets,p.live → p.maybeClonedPacketIdentifier=none) ∧
          r.2 = packets.filter (fun p => !p.live) ∧ r.1.lossEvent.Built ∧
          r.1.lossEvent.lostBytes = t.lossEvent.lostBytes+liveBytes packets := by
  induction packets generalizing t with
  | nil => exact ⟨nofun,rfl,h.built,rfl⟩
  | cons p packets ih =>
    rw [forall_mem_cons] at hzero
    rw [← singleton_append,liveBytes_append] at hbytes ⊢
    refine ((ends_rejectZeroRtt_moved h hzero.1 (by omega)).mono ?_ fun _ => id).bind ?_
    · exact fun _ hp => ⟨p,by simp,hp⟩
    rintro r ⟨hnone,hr,hmoved,hlost⟩
    refine ((ih hzero.2 hmoved (by omega)).mono ?_ fun _ => id).bind ?_
    · rintro _ ⟨q,hq,hclone⟩
      exact ⟨q,by simp [hq],hclone⟩
    rintro r' ⟨hnone',hr',hbuilt,hlost'⟩
    refine ⟨?_,?_,hbuilt,?_⟩
    · rw [singleton_append,forall_mem_cons]
      exact ⟨hnone,hnone'⟩
    · rw [filter_append,← hr,← hr']
    · rw [hlost',hlost,Nat.add_assoc]

lemma liveBytes_filter_add (f : OutstandingPacket → Bool) (packets : List OutstandingPacket) :
    liveBytes (packets.filter f)+liveBytes (packets.filter fun p => !f p) = liveBytes packets := by
  induction packets with
  | nil => rfl
  | cons p packets ih =>
    cases hf : f p <;> simp only [filter_cons,hf,liveBytes_cons,Bool.not_true,Bool.not_false,
      Bool.false_eq_true,if_true,if_false] <;> omega

lemma liveBytes_eq_zero_iff {packets : List OutstandingPacket} :
    liveBytes packets = 0 ↔ ∀ p ∈ packets,p.live → p.size=0 := by
  rw [liveBytes,List.sum_eq_zero_iff_forall_eq_nat,List.forall_mem_map]
  simp only [List.mem_filter,and_imp]

lemma ends_tellRemoved_of_subtracts {cc : Controller σ} (hcc : SubtractsRemoved cc) {E : Failure → Prop}
    {conn : Connection σ} {lossEvent : Option LossEvent}
    (hle : bytesLost lossEvent ≤ conn.control.inflightBytes) :
    Ends (conn.tellRemoved cc lossEvent) E fun conn' => conn'.outstandings = conn.outstandings ∧
      conn'.control.inflightBytes+bytesLost lossEvent = conn.control.inflightBytes := by
  cases lossEvent with
  | none => exact ⟨rfl,rfl⟩
  | some loss =>
    have hle' : loss.lostBytes ≤ conn.control.inflightBytes := hle
    rw [tellRemoved,tell,hcc,Controlled.onRemoveBytesFromInflight,subtractAndCheckUnderflow_eq_ok hle']
    exact ⟨rfl,Nat.sub_add_cancel hle'⟩

lemma ends_undoAllClientStateForRetry {cc : Controller σ} (hcc : SubtractsRemoved cc)
    (fresh : Controlled σ) {conn : Connection σ}
    (hinflight : conn.control.inflightBytes = liveBytes conn.outstandings.packets)
    (hlt : conn.control.inflightBytes < 2^64) (now : ℤ) :
    Ends (conn.undoAllClientStateForRetry cc fresh now)
      (fun _ => ∃ p ∈ conn.outstandings.packets,p.isZeroRtt ∧ p.live ∧
        p.maybeClonedPacketIdentifier.isSome) fun newConn =>
        (∀ p ∈ conn.outstandings.packets,p.isZeroRtt → p.live → p.maybeClonedPacketIdentifier=none) ∧
          liveBytes newConn.outstandings.packets = 0 ∧ newConn.control.inflightBytes +
            liveBytes (conn.outstandings.packets.filter isZeroRtt) = conn.control.inflightBytes := by
  have hsplit := liveBytes_filter_add isZeroRtt conn.outstandings.packets
  refine ((ends_sweep_moved (conn.outstandings.packets.filter isZeroRtt)
    (fun p hp => (mem_filter.mp hp).2) ⟨rfl,rfl,le_rfl,.start now⟩ ?_).mono ?_ fun _ => id).bind ?_
  · change 0+_ < _
    omega
  · rintro _ ⟨p,hp,hlost⟩
    exact ⟨p,(mem_filter.mp hp).1,(mem_filter.mp hp).2,hlost⟩
  · rintro r ⟨hnone,hr,hbuilt,hlost⟩
    have hlost' : bytesLost r.1.reported = liveBytes (conn.outstandings.packets.filter isZeroRtt) := by
      rw [LossTally.bytesLost_reported hbuilt,hlost]
      exact Nat.zero_add _
    have hdead : liveBytes r.2 = 0 := by
      refine liveBytes_eq_zero fun p hp => ?_
      rw [hr,mem_filter,Bool.not_eq_true'] at hp
      exact hp.2
    refine (ends_tellRemoved_of_subtracts hcc ?_).imp ?_
    · rw [hlost']
      change _ ≤ conn.control.inflightBytes
      omega
    · rintro newConn ⟨ho,hinflight'⟩
      refine ⟨fun p hp hzero => hnone p (mem_filter.mpr ⟨hp,hzero⟩),?_,?_⟩
      · rw [ho]
        exact hdead
      · rw [← hlost']
        exact hinflight'

/-- For every state whose account is right, the account is right after a Retry exactly if all
bytes in flight are in 0-RTT packets that have not been cloned. -/
theorem retry_keeps_account_iff (cc : Controller σ) (hcc : SubtractsRemoved cc) (fresh : Controlled σ)
    (conn : Connection σ) (hinflight : conn.control.inflightBytes = liveBytes conn.outstandings.packets)
    (hlt : conn.control.inflightBytes < 2^64) (now : ℤ) :
    (∃ newConn,conn.undoAllClientStateForRetry cc fresh now = .ok newConn ∧
      newConn.control.inflightBytes = liveBytes newConn.outstandings.packets) ↔
      ∀ p ∈ conn.outstandings.packets,p.live →
        if p.isZeroRtt then p.maybeClonedPacketIdentifier = none else p.size = 0 := by
  have hends := ends_undoAllClientStateForRetry hcc fresh hinflight hlt now
  have hsplit := liveBytes_filter_add isZeroRtt conn.outstandings.packets
  constructor
  · rintro ⟨newConn,hok,haccount⟩
    obtain ⟨hnone,hdead,hinflight'⟩ := hends.of_eq_ok hok
    have hrest : liveBytes (conn.outstandings.packets.filter fun p => !p.isZeroRtt) = 0 := by omega
    intro p hp hlive
    split_ifs with hzero
    · exact hnone p hp hzero hlive
    · exact liveBytes_eq_zero_iff.mp hrest p (List.mem_filter.mpr ⟨hp,by simpa using hzero⟩) hlive
  · intro hcond
    have hrest : liveBytes (conn.outstandings.packets.filter fun p => !p.isZeroRtt) = 0 := by
      refine liveBytes_eq_zero_iff.mpr fun p hp hlive => ?_
      rw [List.mem_filter,Bool.not_eq_true'] at hp
      have hsize := hcond p hp.1 hlive
      rwa [hp.2,if_neg Bool.false_ne_true] at hsize
    cases hrun : conn.undoAllClientStateForRetry cc fresh now with
    | error e =>
      obtain ⟨p,hp,hzero,hlive,hclone⟩ := hends.of_eq_error hrun
      have hnone := hcond p hp hlive
      rw [if_pos hzero] at hnone
      rw [hnone] at hclone
      cases hclone
    | ok newConn =>
      obtain ⟨-,hdead,hinflight'⟩ := hends.of_eq_ok hrun
      exact ⟨newConn,rfl,by omega⟩

theorem retry_keeps_account_zero_rtt :
    let cc := Westwood.handle (fun k => k) ⟨0,0,0,0⟩ {}
    let fresh := Westwood.construct (fun k => k) {} 0
    let early : SentPacket :=
      {protectionType := .zeroRtt, frames := [.pingFrame], sentTime := 0, encodedSize := 1200}
    let conn : Connection Westwood :=
      {outstandings :=
         {packets := [early.toOutstanding none {}]
          packetCount := Function.update (fun _ => 0) .appData 1}
       control := {fresh with inflightBytes := 1200}}
    conn.control.inflightBytes = liveBytes conn.outstandings.packets ∧
      ∃ newConn,conn.undoAllClientStateForRetry cc fresh 1000 = .ok newConn ∧
        newConn.control.inflightBytes = liveBytes newConn.outstandings.packets := by
  intro cc fresh early conn
  have haccount : conn.control.inflightBytes = liveBytes conn.outstandings.packets := by decide +kernel
  have hlt : conn.control.inflightBytes < 2^64 := by decide +kernel
  refine ⟨haccount,(retry_keeps_account_iff cc (Westwood.subtractsRemoved _ _ _) fresh conn haccount hlt
    1000).mpr ?_⟩
  decide +kernel

/-- The client's first Initial packet is dropped and its bytes stay in flight. -/
theorem retry_leaks_initial :
    let cc := Westwood.handle (fun k => k) ⟨0,0,0,0⟩ {}
    let fresh := Westwood.construct (fun k => k) {} 0
    let hello : SentPacket :=
      {protectionType := .initial, frames := [.writeCryptoFrame], sentTime := 0, encodedSize := 1200}
    let account (conn : Connection Westwood) := (conn.control.inflightBytes,liveBytes conn.outstandings.packets)
    let sent := runFallible (perform cc) {control := fresh} [.send hello]
    account <$> sent = .ok (1200,1200) ∧
      account <$> (sent >>= fun conn => conn.undoAllClientStateForRetry cc fresh 50000000) = .ok (1200,0) := by
  decide +kernel

end Connection

end QuicWestwood
