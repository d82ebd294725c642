import QuicWestwood.ConnectionRun

/-! Five counters are kept by hand next to the list of outstanding packets. In every run, and between any two
operations, they say what they are named for, so that none of the checks made on them fails. -/
namespace QuicWestwood

/-- What the counters stand for between two operations. -/
structure OutstandingsInfo.CountersAgree (o : OutstandingsInfo) : Prop where
  declaredLost : o.declaredLostCount = o.packets.countP OutstandingPacket.declaredLost
  scheduledForDestruction : o.scheduledForDestructionCount=0
  dsr : o.dsrCount = o.packets.countP fun p => p.live && p.isDSRPacket
  cloned : ∀ s,o.clonedPacketCount s =
    o.packets.countP fun p => p.live && p.inSpace s && p.maybeClonedPacketIdentifier.isSome
  plain : ∀ s,o.packetCount s =
    o.packets.countP (fun p => p.live && p.inSpace s && p.maybeClonedPacketIdentifier.isNone) +
      (o.clonedPacketIdentifiers.filter fun id => id.packetNumberSpace = s).card

namespace Connection
variable {σ : Type}

lemma Sound.countersAgree {A : ℕ → Controlled σ → Prop} {conn : Connection σ} (h : conn.Sound A) :
    conn.outstandings.CountersAgree where
  declaredLost := by
    rw [h.consistent.counted.declaredLost]
    refine List.countP_congr fun p hp => ?_
    simp [h.unscheduled p hp]
  scheduledForDestruction := by
    rw [h.consistent.counted.scheduled,List.countP_eq_zero]
    intro p hp
    simp [h.unscheduled p hp]
  dsr := h.consistent.counted.dsr
  cloned := h.consistent.counted.cloned
  plain := h.consistent.counted.plain

/-- In every run from an empty connection the counters agree with the packets. A `CHECK`
that fails is one of the congestion controller or the one of the loss alarm, on a missing
loss time; none on the counters does. -/
theorem outstanding_counters_agree (cc : Controller σ) (conn : Connection σ) (ops : List Operation) :
    Ends (runFallible (perform cc) {conn with outstandings := {}} ops)
      (fun e => e = .checkFailed → (∃ s event,(cc s event).thrown = some .checkFailed) ∨
        ∃ now,Operation.onLossDetectionAlarm now ∈ ops)
      fun conn' => conn'.outstandings.CountersAgree := by
  refine (ends_runFallible_perform (tracks_of_thrown ?_) nofun nofun nofun rfl trivial ops ?_).imp
    fun _ h => h.countersAgree
  · rintro s event e hthrown rfl
    exact .inl ⟨s,event,hthrown⟩
  · exact fun now hnow _ => .inr ⟨now,hnow⟩

/-- In every run the packets stay in the order of their numbers, no two of a space have one number, and no number
is one that is still to be given out. -/
theorem outstandings_stay_ordered (cc : Controller σ) (conn : Connection σ) (ops : List Operation) :
    Ends (runFallible (perform cc) {conn with outstandings := {}} ops) (fun _ => True) fun conn' =>
      conn'.outstandings.packets.Pairwise (fun p q => p.packetNum ≤ q.packetNum ∧
        (p.packetNumberSpace=q.packetNumberSpace → p.packetNum < q.packetNum)) ∧
      ∀ p ∈ conn'.outstandings.packets,p.packetNum < (conn'.ackStates p.packetNumberSpace).nextPacketNum := by
  refine (ends_runFallible_perform (A := fun _ _ => True) (tracks_of_thrown fun _ _ _ _ => trivial) trivial trivial
    trivial rfl trivial ops fun _ _ => trivial).imp fun conn' h => ⟨?_,h.fresh⟩
  refine (List.pairwise_map.mp h.consistent.ordered).imp fun {p q} hpq => ⟨hpq.1,fun hspace => ?_⟩
  refine lt_of_le_of_ne hpq.1 fun hnum => hpq.2 ?_
  simp [OutstandingPacket.identifier,hspace,show p.packetNum = q.packetNum from hnum]

end Connection

end QuicWestwood
