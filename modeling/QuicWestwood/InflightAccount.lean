import QuicWestwood.ConnectionRun
import QuicWestwood.WestwoodWindow

/-! A controller that accounts for the bytes it is told of keeps `inflightBytes` equal to the bytes of the live
packets in every run of the connection. Both Westwood variants are such controllers. -/
namespace QuicWestwood

/-- The controller keeps the account of the bytes in flight in the loss state: it adds what
is sent, subtracts what is released, and does not throw for want of bytes that are there. -/
def KeepsAccount {σ : Type} (cc : Controller σ) : Prop :=
  Tracks cc (·≠underflowBytesInFlight) fun n s => s.inflightBytes = n

lemma addAndCheckOverflow_error {value toAdd : ℕ} {e : Failure} (h : addAndCheckOverflow value toAdd = .error e) :
    e≠underflowBytesInFlight := by
  unfold addAndCheckOverflow at h
  split_ifs at h
  obtain rfl := Except.error.inj h
  decide

lemma WestwoodCore.grow_thrown_ne_underflow (c : CwndSettings) (w : WestwoodCore) (ackedBytes : ℕ) {e : Failure}
    (h : (w.grow c ackedBytes).thrown = some e) : e≠underflowBytesInFlight := by
  have hadd : ∀ toAdd,(w.addToCwnd c toAdd).thrown = some e → e≠underflowBytesInFlight := by
    intro toAdd h
    unfold addToCwnd at h
    split at h
    · rename_i he
      obtain rfl := Option.some.inj h
      exact addAndCheckOverflow_error he
    · cases h
  unfold grow at h
  split_ifs at h
  · exact hadd _ h
  · obtain rfl := Option.some.inj h
    decide
  · exact hadd _ h

namespace Controlled
variable {σ : Type} {noteRtt : Controlled σ → AckEvent → Controlled σ}
  {perPacket : Controlled σ → AckPacket → Outcome Failure (Controlled σ)}
  {clamp : Controlled σ → Controlled σ}
  {onPacketLoss : Controlled σ → LossEvent → Outcome Failure (Controlled σ)}
  {onAckEvent : Controlled σ → AckEvent → Outcome Failure (Controlled σ)}

def Releases (o : Outcome Failure (Controlled σ)) (s : Controlled σ) (bytes : ℕ) : Prop :=
  o.state.inflightBytes+bytes = s.inflightBytes ∧ ∀ e,o.thrown = some e → e≠underflowBytesInFlight

lemma releases_ackEventWith (hnote : ∀ s ack,(noteRtt s ack).inflightBytes = s.inflightBytes)
    (hpkt : ∀ s p,Releases (perPacket s p) s 0) (hclamp : ∀ s,(clamp s).inflightBytes = s.inflightBytes)
    {s : Controlled σ} {ack : AckEvent} (hle : ack.ackedBytes ≤ s.inflightBytes) :
    Releases (ackEventWith noteRtt perPacket clamp s ack) s ack.ackedBytes := by
  rw [ackEventWith,hnote,subtractAndCheckUnderflow_eq_ok hle]
  set t : Controlled σ := {noteRtt s ack with inflightBytes := s.inflightBytes-ack.ackedBytes}
  have hloop : (Outcome.each perPacket t ack.ackedPackets).state.inflightBytes =
      s.inflightBytes-ack.ackedBytes := by
    refine Outcome.each_invariant (P := fun t : Controlled σ => t.inflightBytes = s.inflightBytes-ack.ackedBytes)
      (fun u p hu => ?_) (s := t) rfl _
    rw [← hu]
    exact (hpkt u p).1
  constructor
  · have hstate : ((Outcome.each perPacket t ack.ackedPackets).andThen
        fun s => .done (clamp s)).state.inflightBytes = s.inflightBytes-ack.ackedBytes :=
      Outcome.andThen_invariant (P := fun t : Controlled σ => t.inflightBytes = s.inflightBytes-ack.ackedBytes) hloop
        fun h => (hclamp _).trans h
    change ((Outcome.each perPacket t ack.ackedPackets).andThen
      fun s => .done (clamp s)).state.inflightBytes+_ = _
    omega
  · exact Outcome.andThen_thrown (Outcome.each_thrown (P := fun _ => True) (fun _ _ _ => trivial)
      (fun u p _ => (hpkt u p).2) trivial _) (by simp)

lemma releases_ifSome {α : Type} {f : Controlled σ → α → Outcome Failure (Controlled σ)} {bytes : α → ℕ}
    (hf : ∀ s a,bytes a ≤ s.inflightBytes → Releases (f s a) s (bytes a)) (s : Controlled σ)
    (o : Option α) (hle : (o.map bytes).getD 0 ≤ s.inflightBytes) :
    Releases (ifSome f s o) s ((o.map bytes).getD 0) := by
  cases o with
  | none => exact ⟨rfl,nofun⟩
  | some a => exact hf s a hle

/-- A controller whose loss and ack handlers release what they are told keeps the account. -/
theorem keepsAccount_handle
    (hloss : ∀ s loss,loss.lostBytes ≤ s.inflightBytes → Releases (onPacketLoss s loss) s loss.lostBytes)
    (hack : ∀ s ack,ack.ackedBytes ≤ s.inflightBytes → Releases (onAckEvent s ack) s ack.ackedBytes) :
    KeepsAccount (handle onPacketLoss onAckEvent) := by
  intro n s e hs
  cases e with
  | packetSent size =>
    simp only [handle,onPacketSent,CcEvent.releasedBytes,CcEvent.sentBytes] at hs ⊢
    unfold addAndCheckOverflow
    split_ifs
    · exact show overflowBytesInFlight≠underflowBytesInFlight by decide
    · change s.inflightBytes+size.toNat = n+size.toNat
      omega
  | removeBytesFromInflight bytes =>
    simp only [handle,onRemoveBytesFromInflight,CcEvent.releasedBytes,CcEvent.sentBytes] at hs ⊢
    rw [subtractAndCheckUnderflow_eq_ok (by omega)]
    change s.inflightBytes-bytes = n+0
    omega
  | packetAckOrLoss ackEvent lossEvent =>
    simp only [CcEvent.releasedBytes,CcEvent.sentBytes,bytesAcked,bytesLost] at hs ⊢
    simp only [handle,onPacketAckOrLoss]
    have hfirst := releases_ifSome hloss s lossEvent (by omega)
    refine ends_toExcept (Outcome.andThen_thrown hfirst.2 ?_) fun hnone => ?_
    · have hsecond := releases_ifSome hack (ifSome onPacketLoss s lossEvent).state
        (ackEvent.filter fun ack => ack.largestNewlyAckedPacket.isSome) (by have := hfirst.1; omega)
      exact hsecond.2
    · have hsecond := releases_ifSome hack (ifSome onPacketLoss s lossEvent).state
        (ackEvent.filter fun ack => ack.largestNewlyAckedPacket.isSome) (by have := hfirst.1; omega)
      cases hthrown : (ifSome onPacketLoss s lossEvent).thrown with
      | some e =>
        rw [Outcome.andThen_of_some hthrown,hthrown] at hnone
        cases hnone
      | none =>
        rw [Outcome.andThen_of_none hthrown]
        have := hfirst.1
        have := hsecond.1
        omega

/-- Both controllers settle the lost bytes first; what follows leaves the account alone. -/
lemma Answered.releases {o : Outcome Failure (Controlled σ)} {isNew : Except Failure Bool} {bytes : ℕ}
    {s settled started kept : Controlled σ} (h : Answered o isNew bytes s settled started kept)
    (hle : bytes ≤ s.inflightBytes) (hnew : ∀ e,isNew = .error e → e≠underflowBytesInFlight)
    (hsettled : settled.inflightBytes+bytes = s.inflightBytes)
    (hstarted : started.inflightBytes=settled.inflightBytes)
    (hkept : kept.inflightBytes=settled.inflightBytes) : Releases o s bytes := by
  obtain ⟨hlt,-⟩ | ⟨-,⟨e,he,rfl⟩ | ⟨-,rfl⟩ | ⟨-,rfl⟩⟩ := h
  · omega
  · exact ⟨hsettled,fun e' he' => Option.some.inj he' ▸ hnew e he⟩
  · exact ⟨hstarted ▸ hsettled,nofun⟩
  · exact ⟨hkept ▸ hsettled,nofun⟩

end Controlled

section Westwood
variable (clock : ℕ → ℤ) (c : CwndSettings)

namespace Westwood
variable (fp : FloatUnit)

lemma settleLoss_inflightBytes (s : Controlled Westwood) (loss : LossEvent) :
    (settleLoss clock s loss).inflightBytes = s.inflightBytes-loss.lostBytes := by
  unfold settleLoss expireMinRtt
  split_ifs <;> rfl

lemma ifPersistent_inflightBytes (loss : LossEvent) (s : Controlled Westwood) :
    (ifPersistent c loss s).inflightBytes = s.inflightBytes := by
  unfold ifPersistent
  split_ifs <;> rfl

lemma releases_onPacketLoss (s : Controlled Westwood) (loss : LossEvent)
    (hle : loss.lostBytes ≤ s.inflightBytes) :
    Controlled.Releases (onPacketLoss clock fp c s loss) s loss.lostBytes := by
  refine (onPacketLoss_cases clock fp c s loss).releases hle (fun e he => ?_) ?_
    (ifPersistent_inflightBytes c loss _) (ifPersistent_inflightBytes c loss _)
  · obtain rfl := WestwoodCore.isNewLoss_error he
    decide
  · rw [settleLoss_inflightBytes,Nat.sub_add_cancel hle]

lemma releases_onPacketAcked (s : Controlled Westwood) (packet : AckPacket) :
    Controlled.Releases (onPacketAcked clock fp c s packet) s 0 := by
  unfold onPacketAcked
  split_ifs
  · exact ⟨rfl,nofun⟩
  · exact ⟨rfl,fun e he => WestwoodCore.grow_thrown_ne_underflow c _ _ he⟩

lemma noteRtt_inflightBytes (s : Controlled Westwood) (ack : AckEvent) :
    (noteRtt s ack).inflightBytes = s.inflightBytes := by
  unfold noteRtt
  split <;> rfl

lemma keepsAccount : KeepsAccount (handle clock fp c) := by
  refine Controlled.keepsAccount_handle (releases_onPacketLoss clock c fp) fun s ack hle => ?_
  exact Controlled.releases_ackEventWith noteRtt_inflightBytes (releases_onPacketAcked clock c fp)
    (fun s => show (clampCwnd c s).inflightBytes = s.inflightBytes from rfl) hle

end Westwood

namespace WestwoodOWD
variable (fp : DelayFloatUnit)
variable (s : Controlled WestwoodOWD)

lemma settleLoss_inflightBytes (loss : LossEvent) :
    (settleLoss clock s loss).inflightBytes = s.inflightBytes-loss.lostBytes := by
  unfold settleLoss expireMinRtt
  split_ifs <;> rfl

lemma ifPersistent_inflightBytes (loss : LossEvent) (s : Controlled WestwoodOWD) :
    (ifPersistent c loss s).inflightBytes = s.inflightBytes := by
  unfold ifPersistent
  split_ifs <;> rfl

lemma releases_onPacketLoss (loss : LossEvent) (hle : loss.lostBytes ≤ s.inflightBytes) :
    Controlled.Releases (onPacketLoss clock fp c s loss) s loss.lostBytes := by
  refine (onPacketLoss_cases clock fp c s loss).releases hle (fun e he => ?_) ?_
    (ifPersistent_inflightBytes c loss _) (ifPersistent_inflightBytes c loss _)
  · obtain rfl := WestwoodCore.isNewLoss_error he
    decide
  · rw [settleLoss_inflightBytes,Nat.sub_add_cancel hle]

lemma releases_perPacket (packet : AckPacket) : Controlled.Releases (perPacket clock fp c s packet) s 0 := by
  unfold perPacket onPacketAcked
  split_ifs
  · exact ⟨rfl,nofun⟩
  · exact ⟨rfl,fun e he => WestwoodCore.grow_thrown_ne_underflow c _ _ he⟩

lemma noteRtt_inflightBytes (ack : AckEvent) : (noteRtt s ack).inflightBytes = s.inflightBytes := by
  unfold noteRtt
  split <;> rfl

lemma keepsAccount : KeepsAccount (handle clock fp c) := by
  refine Controlled.keepsAccount_handle (releases_onPacketLoss clock c fp) fun s ack hle => ?_
  exact Controlled.releases_ackEventWith noteRtt_inflightBytes (releases_perPacket clock c fp)
    (fun s => show (clampCwnd c s).inflightBytes = s.inflightBytes from rfl) hle

end WestwoodOWD

end Westwood

namespace Connection

lemma liveBytes_eq_zero {packets : List OutstandingPacket} (h : ∀ p ∈ packets,p.live = false) :
    liveBytes packets = 0 := by
  rw [liveBytes,List.filter_eq_nil_iff.mpr fun p hp => by simp [h p hp]]
  rfl

/-- Both Westwood controllers keep the account, and with every controller that does, the
bytes in flight are those of the live packets in every run from an empty connection: no
operation throws for an underflow, and nothing is in flight when no packet is live. -/
theorem inflight_conserved :
    (∀ clock fp c,KeepsAccount (Westwood.handle clock fp c)) ∧
    (∀ clock fp c,KeepsAccount (WestwoodOWD.handle clock fp c)) ∧
    ∀ (σ : Type) (cc : Controller σ),KeepsAccount cc → ∀ (conn : Connection σ) (ops : List Operation),
      Ends (runFallible (perform cc)
        {conn with outstandings := {}, control := {conn.control with inflightBytes := 0}} ops)
        (·≠underflowBytesInFlight) fun conn' =>
          conn'.control.inflightBytes = liveBytes conn'.outstandings.packets ∧
            ((∀ p ∈ conn'.outstandings.packets,p.live = false) → conn'.control.inflightBytes=0) := by
  refine ⟨fun clock fp c => Westwood.keepsAccount clock c fp,
    fun clock fp c => WestwoodOWD.keepsAccount clock c fp,fun σ cc hcc conn ops => ?_⟩
  refine (ends_runFallible_perform hcc (by decide) (by decide) (by decide) rfl rfl ops
    fun _ _ => by decide).imp fun conn' h => ?_
  exact ⟨h.accounted,fun hnone => h.accounted.trans (liveBytes_eq_zero hnone)⟩

theorem inflight_conserved_send_ack :
    let cc := Westwood.handle (fun k => k) ⟨0,0,0,0⟩ {}
    let conn : Connection Westwood := {control := Westwood.construct (fun k => k) {} 0}
    Ends (runFallible (perform cc)
      {conn with outstandings := {}, control := {conn.control with inflightBytes := 0}}
      [.send {protectionType := .keyPhaseZero, frames := [.pingFrame], sentTime := 0, encodedSize := 1200},
       .processAckFrame .appData {largestAcked := 0, ackBlocks := [⟨0,0⟩]} (fun _ => true) 1000 1000])
      (·≠underflowBytesInFlight) fun conn' =>
        conn'.control.inflightBytes = liveBytes conn'.outstandings.packets ∧
          ((∀ p ∈ conn'.outstandings.packets,p.live = false) → conn'.control.inflightBytes=0) :=
  inflight_conserved.2.2 Westwood _ (inflight_conserved.1 (fun k => k) ⟨0,0,0,0⟩ {}) _ _

end Connection

end QuicWestwood
