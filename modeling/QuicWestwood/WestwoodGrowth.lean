import QuicWestwood.WestwoodWindow

/-! Without losses the window never shrinks. In slow start it gains at most the bytes acked; in congestion
avoidance a window of acks gains at most one packet. It gains nothing at all from packets that are small against
the window, as the increment of each packet is rounded down on its own. -/
namespace QuicWestwood
open Controlled WestwoodOWD Outcome WestwoodCore List
variable {c : CwndSettings}

lemma CwndSettings.Sane.bounded_add (hc : c.Sane) {n : ℕ} (h : c.Within n) (x : ℕ) :
    c.bounded (n+x) = min (n+x) (c.maxCwndInMss*c.udpSendPacketLen) := by
  have hlt := hc.max_lt
  obtain ⟨hlow,hhigh⟩ := h
  rw [CwndSettings.bounded,boundedCwnd,Nat.mod_eq_of_lt (by omega),Nat.mod_eq_of_lt (by omega)]
  omega

lemma sum_div_le (k w : ℕ) (sizes : List ℕ) :
    (sizes.map fun size => k*size/w).sum ≤ k*sizes.sum/w := by
  induction sizes with
  | nil => simp
  | cons size sizes ih =>
    calc k*size/w+(sizes.map fun size => k*size/w).sum
        ≤ k*size/w+k*sizes.sum/w := Nat.add_le_add_left ih _
      _ ≤ (k*size+k*sizes.sum)/w := Nat.div_add_div_le_add_div
      _ = k*(size::sizes).sum/w := by rw [← Nat.mul_add,sum_cons]

namespace WestwoodCore

def increment (cwndBytes ssthresh ackedBytes : ℕ) : ℕ :=
  if cwndBytes < ssthresh then ackedBytes else kDefaultUDPSendPacketLen*ackedBytes/cwndBytes

@[simp] lemma measure_ssthresh (fp : FloatUnit) (minRtt : ℤ) (w : WestwoodCore) (ackedBytes : ℕ) (now : ℤ) :
    (measure fp minRtt w ackedBytes now).ssthresh = w.ssthresh := by
  obtain ⟨_,_,_,_,_,h⟩ := measure_frame fp minRtt w ackedBytes now
  rw [h]

lemma grow_eq (hc : c.Sane) {w : WestwoodCore} (h : c.Within w.cwndBytes) {n : ℕ} (hn : n < 2^16) :
    w.grow c n = .done {w with
      cwndBytes := min (w.cwndBytes+increment w.cwndBytes w.ssthresh n)
        (c.maxCwndInMss*c.udpSendPacketLen)} := by
  have hpos := hc.pos h
  have hmax := hc.max_lt
  have hhigh := h.2
  have hadd : ∀ x,x < 2^63 → w.addToCwnd c x = .done {w with
      cwndBytes := min (w.cwndBytes+x) (c.maxCwndInMss*c.udpSendPacketLen)} := by
    intro x hx
    rw [addToCwnd,addAndCheckOverflow_eq_ok (by omega)]
    dsimp only
    rw [hc.bounded_add h]
  unfold grow increment
  split_ifs
  · exact hadd n (by omega)
  · omega
  · have hsmall : kDefaultUDPSendPacketLen*n < 2^63 := by
      rw [kDefaultUDPSendPacketLen]
      omega
    rw [Nat.mod_eq_of_lt (by omega)]
    exact hadd _ ((Nat.div_le_self _ _).trans_lt hsmall)

end WestwoodCore

section Growth
variable {σ : Type*} (c : CwndSettings) (window threshold : σ → ℕ)

structure Grows (s : Controlled σ) (ackedBytes : ℕ) (t : Controlled σ) : Prop where
  within : c.Within (window t.cc)
  threshold_eq : threshold t.cc = threshold s.cc
  le : window s.cc ≤ window t.cc
  le_add : window t.cc ≤ window s.cc + increment (window s.cc) (threshold s.cc) ackedBytes

def loggedBytes (calls : List (Controlled σ × AckPacket)) : ℕ := (calls.map fun x => x.2.size).sum

structure GrownSince (s t : Controlled σ) (calls : List (Controlled σ × AckPacket)) : Prop where
  within : c.Within (window t.cc)
  threshold_eq : threshold t.cc = threshold s.cc
  le : window s.cc ≤ window t.cc
  slowStart : (∀ x ∈ calls,window x.1.cc < threshold x.1.cc) → window t.cc ≤ window s.cc+loggedBytes calls
  avoidance : threshold s.cc ≤ window s.cc → window t.cc ≤ window s.cc +
    (calls.map fun x => kDefaultUDPSendPacketLen*x.2.size/window s.cc).sum

variable {c window threshold} {s t t' : Controlled σ} {calls : List (Controlled σ × AckPacket)}

lemma GrownSince.nil (h : c.Within (window s.cc)) : GrownSince c window threshold s s [] :=
  ⟨h,rfl,le_rfl,fun _ => Nat.le_add_right _ _,fun _ => Nat.le_add_right _ _⟩

variable {packet : AckPacket}

lemma GrownSince.snoc (hpos : 0 < window s.cc) (h : GrownSince c window threshold s t calls)
    (hpacket : Grows c window threshold t packet.size t') :
    GrownSince c window threshold s t' (calls++[(t,packet)]) := by
  refine ⟨hpacket.within,hpacket.threshold_eq.trans h.threshold_eq,h.le.trans hpacket.le,?_,?_⟩
  · intro hslow
    have hbefore := h.slowStart fun x hx => hslow x (by simp [hx])
    have hlast := hpacket.le_add
    rw [increment,if_pos (hslow (t,packet) (by simp))] at hlast
    simp only [loggedBytes,map_append,sum_append,map_cons,map_nil,sum_cons,
      sum_nil] at hbefore ⊢
    omega
  · intro havoid
    have hbefore := h.avoidance havoid
    have hlast := hpacket.le_add
    have hle := h.le
    have hthreshold := h.threshold_eq
    rw [increment,if_neg (by omega)] at hlast
    -- the divisor has only grown since `s`
    have hdiv : kDefaultUDPSendPacketLen*packet.size/window t.cc ≤
        kDefaultUDPSendPacketLen*packet.size/window s.cc := Nat.div_le_div_left hle hpos
    simp only [map_append,sum_append,map_cons,map_nil,sum_cons,sum_nil]
    omega

lemma GrownSince.le_add_packet (h : GrownSince c window threshold s t calls)
    (havoid : threshold s.cc ≤ window s.cc) (hbytes : loggedBytes calls ≤ window s.cc) :
    window t.cc ≤ window s.cc+kDefaultUDPSendPacketLen := by
  have hsum := sum_div_le kDefaultUDPSendPacketLen (window s.cc) (calls.map fun x => x.2.size)
  rw [map_map] at hsum
  have hone : kDefaultUDPSendPacketLen*loggedBytes calls/window s.cc ≤ kDefaultUDPSendPacketLen := by
    apply Nat.div_le_of_le_mul
    rw [Nat.mul_comm]
    exact Nat.mul_le_mul_right _ hbytes
  exact (h.avoidance havoid).trans (Nat.add_le_add_left (hsum.trans hone) _)

lemma GrownSince.congr (h : GrownSince c window threshold s t calls) (hwindow : window t'.cc = window t.cc)
    (hthreshold : threshold t'.cc = threshold t.cc) : GrownSince c window threshold s t' calls :=
  ⟨hwindow ▸ h.within,hthreshold.trans h.threshold_eq,hwindow ▸ h.le,fun hslow => hwindow ▸ h.slowStart hslow,
    fun havoid => hwindow ▸ h.avoidance havoid⟩

/-- The rest of an ack event from some packet on. -/
def Controlled.restOfAck (perPacket : Controlled σ → AckPacket → Outcome Failure (Controlled σ))
    (clamp : Controlled σ → Controlled σ) (s : Controlled σ) (packets : List AckPacket) :
    Outcome Failure (Controlled σ) :=
  (each perPacket s packets).andThen fun s => .done (clamp s)

def Controlled.processed (onPacketLoss : Controlled σ → LossEvent → Outcome Failure (Controlled σ))
    (noteRtt : Controlled σ → AckEvent → Controlled σ)
    (perPacket : Controlled σ → AckPacket → Outcome Failure (Controlled σ)) (clamp : Controlled σ → Controlled σ) :
    Controlled σ × List (Controlled σ × AckPacket) → CcEvent → Controlled σ × List (Controlled σ × AckPacket) :=
  Run.logged (fun s e => (handle onPacketLoss (ackEventWith noteRtt perPacket clamp) s e).state)
    (noteEvent onPacketLoss (fun _ _ => []) (ackEntriesWith noteRtt perPacket))

/-- What a controller does with acks, as far as its window is concerned; `ok` says that a packet meets no
other reaction. -/
structure GrowsByAcks (c : CwndSettings) (window threshold : σ → ℕ) (ok : Controlled σ × AckPacket → Prop)
    (noteRtt : Controlled σ → AckEvent → Controlled σ)
    (perPacket : Controlled σ → AckPacket → Outcome Failure (Controlled σ))
    (clamp : Controlled σ → Controlled σ) : Prop where
  note_window : ∀ s ack,window (noteRtt s ack).cc = window s.cc
  note_threshold : ∀ s ack,threshold (noteRtt s ack).cc = threshold s.cc
  packet : ∀ s p,c.Within (window s.cc) → ok (s,p) → Grows c window threshold s p.size (perPacket s p).state
  clamp_window : ∀ s,window (clamp s).cc = c.bounded (window s.cc)
  clamp_threshold : ∀ s,threshold (clamp s).cc = threshold s.cc

theorem GrowsByAcks.run {ok : Controlled σ × AckPacket → Prop} {noteRtt : Controlled σ → AckEvent → Controlled σ}
    {perPacket : Controlled σ → AckPacket → Outcome Failure (Controlled σ)} {clamp : Controlled σ → Controlled σ}
    (hspec : GrowsByAcks c window threshold ok noteRtt perPacket clamp)
    (onPacketLoss : Controlled σ → LossEvent → Outcome Failure (Controlled σ)) (hc : c.Sane)
    (hs : c.Within (window s.cc)) (packets : List AckPacket) {es : List CcEvent}
    (hes : ∀ e ∈ es,lossOf e = none) :
    let x := Run.run (processed onPacketLoss noteRtt perPacket clamp)
      ((restOfAck perPacket clamp s packets).state,entries perPacket s packets) es
    (∀ y ∈ x.2,ok y) → GrownSince c window threshold s x.1 x.2 := by
  have hpacket : ∀ t p l,((∀ y ∈ l,ok y) → GrownSince c window threshold s t l) →
      (∀ y ∈ l++[(t,p)], ok y) → GrownSince c window threshold s (perPacket t p).state (l++[(t,p)]) := by
    intro t p l h hok
    have hbefore := h fun y hy => hok y (by simp [hy])
    exact hbefore.snoc (hc.pos hs) (hspec.packet t p hbefore.within (hok (t,p) (by simp)))
  have hclamp : ∀ t l,((∀ y ∈ l,ok y) → GrownSince c window threshold s t l) →
      (∀ y ∈ l,ok y) → GrownSince c window threshold s (clamp t) l := by
    intro t l h hok
    have hsame : c.bounded (window t.cc) = window t.cc := by
      simpa [(h hok).within.2] using hc.bounded_add (h hok).within 0
    exact (h hok).congr (by rw [hspec.clamp_window,hsame]) (hspec.clamp_threshold t)
  refine Run.run_invariant (P := fun x : Controlled σ × List (Controlled σ × AckPacket) =>
    (∀ y ∈ x.2,ok y) → GrownSince c window threshold s x.1 x.2) ?_ ?_
  · have hloop := each_logged_invariant (f := perPacket) hpacket (fun _ => GrownSince.nil hs) packets
    exact andThen_invariant (P := fun t => (∀ y ∈ entries perPacket s packets,ok y) →
      GrownSince c window threshold s t _) hloop fun ht => hclamp _ _ ht
  · intro x hx e he
    refine handle_logged_invariant _ _
      (P := fun t l => (∀ y ∈ l,ok y) → GrownSince c window threshold s t l) ?_ ?_ ?_ hx
    · exact fun n h hok => (h hok).congr rfl rfl
    · exact fun loss hloss => by simp [hes e he] at hloss
    · intro t ack l _ h
      refine ackEventWith_logged_invariant noteRtt perPacket clamp
        (P := fun t l => (∀ y ∈ l,ok y) → GrownSince c window threshold s t l) ?_ hpacket hclamp ?_
      · exact fun t n l h hok => (h hok).congr rfl rfl
      · exact fun hok => (h hok).congr (hspec.note_window t ack) (hspec.note_threshold t ack)

end Growth

lemma grows_of_eq {σ : Type*} {window threshold : σ → ℕ} {s t : Controlled σ} {ackedBytes : ℕ}
    (h : c.Within (window s.cc)) (hthreshold : threshold t.cc = threshold s.cc)
    (hwindow : window t.cc = min (window s.cc +
      increment (window s.cc) (threshold s.cc) ackedBytes) (c.maxCwndInMss*c.udpSendPacketLen)) :
    Grows c window threshold s ackedBytes t := by
  obtain ⟨hlow,hhigh⟩ := h
  refine ⟨⟨?_,?_⟩,hthreshold,?_,?_⟩ <;> rw [hwindow] <;> omega

lemma grows_of_skipped {σ : Type*} {window threshold : σ → ℕ} {s t : Controlled σ} (h : c.Within (window s.cc))
    (hthreshold : threshold t.cc = threshold s.cc) (hwindow : window t.cc = window s.cc) (ackedBytes : ℕ) :
    Grows c window threshold s ackedBytes t :=
  ⟨hwindow ▸ h,hthreshold,hwindow.ge,by omega⟩

namespace Westwood
variable {clock : ℕ → ℤ} {fp : FloatUnit} {s : Controlled Westwood}

lemma onPacketAcked_window (clock : ℕ → ℤ) (fp : FloatUnit) (hc : c.Sane) (h : c.Within s.cc.cwndBytes)
    (hout : s.cc.inRecovery packet.time = false) :
    (onPacketAcked clock fp c s packet).state.cc.ssthresh = s.cc.ssthresh ∧
    (onPacketAcked clock fp c s packet).state.cc.cwndBytes =
      min (s.cc.cwndBytes+increment s.cc.cwndBytes s.cc.ssthresh packet.size)
        (c.maxCwndInMss*c.udpSendPacketLen) := by
  rw [onPacketAcked,if_neg (by simp [hout])]
  dsimp only
  rw [grow_eq hc (by simpa using h) packet.size_lt]
  simp

lemma onPacketAcked_grows (clock : ℕ → ℤ) (fp : FloatUnit) (hc : c.Sane) (h : c.Within s.cc.cwndBytes) (packet : AckPacket) :
    Grows c (·.cwndBytes) (·.ssthresh) s packet.size (onPacketAcked clock fp c s packet).state := by
  cases hrec : s.cc.inRecovery packet.time with
  | true =>
    rw [onPacketAcked_of_inRecovery clock fp c hrec]
    exact grows_of_skipped h rfl rfl _
  | false =>
    obtain ⟨hthreshold,hwindow⟩ := onPacketAcked_window clock fp hc h hrec
    exact grows_of_eq h hthreshold hwindow

lemma growsByAcks (clock : ℕ → ℤ) (fp : FloatUnit) (hc : c.Sane) :
    GrowsByAcks c (·.cwndBytes) (·.ssthresh) (fun _ => True) noteRtt (onPacketAcked clock fp c) (clampCwnd c) where
  note_window := noteRtt_cwndBytes
  note_threshold s ack := by
    unfold noteRtt
    split <;> rfl
  packet s p h _ := onPacketAcked_grows clock fp hc h p
  clamp_window _ := rfl
  clamp_threshold _ := rfl

end Westwood

namespace WestwoodOWD
variable {clock : ℕ → ℤ} {fp : DelayFloatUnit} {s : Controlled WestwoodOWD}

/-- The packet is skipped, or the delay does not make the controller react. -/
def NoDelayReaction (fp : DelayFloatUnit) (x : Controlled WestwoodOWD × AckPacket) : Prop :=
  x.1.cc.inRecovery x.2.time = true ∨ (x.1.cc.updateOneWayDelay x.2).delayControl fp = false

lemma measured_of_noReaction (h : s.cc.delayControl fp = false) :
    let core := s.cc.measure fp.toFloatUnit s.cc.rttSampler.minRtt packet.size (clock s.ticks)
    measured clock fp c s packet = {s.cc with toWestwoodCore := core} := by
  rw [measured,delayReaction,if_neg]
  exact fun hreacts => Bool.false_ne_true (h.symm.trans hreacts)

lemma perPacket_grows (hc : c.Sane) (h : c.Within s.cc.cwndBytes) (hno : NoDelayReaction fp (s,packet)) :
    Grows c (·.cwndBytes) (·.ssthresh) s packet.size (perPacket clock fp c s packet).state := by
  unfold perPacket onPacketAcked
  cases hrec : s.cc.inRecovery packet.time with
  | true =>
    rw [if_pos (by simp [hrec])]
    exact grows_of_skipped h (by simp) (by simp) _
  | false =>
    rw [if_neg (by simp [hrec]),measured_of_noReaction (hno.resolve_left (by simp [hrec])),
      grow_eq hc (by simpa using h) packet.size_lt]
    exact grows_of_eq h (by simp) (by simp)

lemma growsByAcks (clock : ℕ → ℤ) (fp : DelayFloatUnit) (hc : c.Sane) :
    GrowsByAcks c (·.cwndBytes) (·.ssthresh) (NoDelayReaction fp) noteRtt (perPacket clock fp c) (clampCwnd c) where
  note_window := noteRtt_cwndBytes
  note_threshold s ack := by
    unfold noteRtt
    split <;> rfl
  packet s p h hno := perPacket_grows hc h hno
  clamp_window _ := rfl
  clamp_threshold _ := rfl

end WestwoodOWD

/-- From any moment on, also in the middle of an ack event: while in slow start the window gains at most the
bytes acked, and in congestion avoidance it never shrinks and gains at most one packet from acks worth at most
the window. -/
theorem window_growth_bounds (hc : c.Sane) (clock : ℕ → ℤ) (fp : FloatUnit) (fp' : DelayFloatUnit)
    (es : List CcEvent) (hes : ∀ e ∈ es,lossOf e = none) (packets : List AckPacket) :
    (∀ s : Controlled Westwood,c.Within s.cc.cwndBytes → let step := Westwood.onPacketAcked clock fp c
      let x := Run.run (processed (Westwood.onPacketLoss clock fp c) Westwood.noteRtt step
          (Westwood.clampCwnd c))
        ((restOfAck step (Westwood.clampCwnd c) s packets).state,entries step s packets) es
      ((∀ y ∈ x.2,y.1.cc.cwndBytes < y.1.cc.ssthresh) → x.1.cc.cwndBytes ≤ s.cc.cwndBytes+loggedBytes x.2) ∧
      (s.cc.ssthresh ≤ s.cc.cwndBytes → s.cc.cwndBytes≤x.1.cc.cwndBytes ∧
        (loggedBytes x.2 ≤ s.cc.cwndBytes → x.1.cc.cwndBytes ≤ s.cc.cwndBytes+kDefaultUDPSendPacketLen))) ∧
    (∀ s : Controlled WestwoodOWD,c.Within s.cc.cwndBytes → let step := perPacket clock fp' c
      let x := Run.run (processed (onPacketLoss clock fp' c) noteRtt step
          (clampCwnd c))
        ((restOfAck step (clampCwnd c) s packets).state,entries step s packets) es
      (∀ y ∈ x.2,WestwoodOWD.NoDelayReaction fp' y) →
      ((∀ y ∈ x.2,y.1.cc.cwndBytes < y.1.cc.ssthresh) → x.1.cc.cwndBytes ≤ s.cc.cwndBytes+loggedBytes x.2) ∧
      (s.cc.ssthresh ≤ s.cc.cwndBytes → s.cc.cwndBytes≤x.1.cc.cwndBytes ∧
        (loggedBytes x.2 ≤ s.cc.cwndBytes → x.1.cc.cwndBytes ≤ s.cc.cwndBytes+kDefaultUDPSendPacketLen))) := by
  constructor
  · intro s hs step x
    have h := (Westwood.growsByAcks clock fp hc).run (Westwood.onPacketLoss clock fp c) hc hs packets hes fun _ _ => trivial
    exact ⟨h.slowStart,fun havoid => ⟨h.le,h.le_add_packet havoid⟩⟩
  · intro s hs step x hno
    have h := (growsByAcks clock fp' hc).run (onPacketLoss clock fp' c) hc hs packets hes hno
    exact ⟨h.slowStart,fun havoid => ⟨h.le,h.le_add_packet havoid⟩⟩

theorem window_growth_bounds_two_packets :
    let ack : CcEvent := .ackOfOne 7 100
    let packets : List AckPacket :=
      [{packetNum := 1, outstandingPacketMetadata := {time := 0, encodedSize := 1000}}]
    let new := Westwood.construct (fun k => k) {} 2000
    let s : Controlled Westwood := {new with cc := {new.cc with ssthresh := 2464}}
    let s' := construct (fun k => k) {} 2000
    let x := Run.run (processed (Westwood.onPacketLoss (fun k => k) ⟨0,0,0,0⟩ {}) Westwood.noteRtt
        (Westwood.onPacketAcked (fun k => k) ⟨0,0,0,0⟩ {}) (Westwood.clampCwnd {}))
      ((restOfAck (Westwood.onPacketAcked (fun k => k) ⟨0,0,0,0⟩ {}) (Westwood.clampCwnd {}) s packets).state,
        entries (Westwood.onPacketAcked (fun k => k) ⟨0,0,0,0⟩ {}) s packets) [ack]
    let fp : DelayFloatUnit := ⟨⟨0,0,0,0⟩,fun _ => 0,fun _ _ => false⟩
    let x' := Run.run (processed (onPacketLoss (fun k => k) fp {}) noteRtt
        (perPacket (fun k => k) fp {}) (clampCwnd {}))
      ((restOfAck (perPacket (fun k => k) fp {}) (clampCwnd {}) s' packets).state,
        entries (perPacket (fun k => k) fp {}) s' packets) [ack]
    (12320≤x.1.cc.cwndBytes ∧ x.1.cc.cwndBytes ≤ 12320+1232) ∧ x'.1.cc.cwndBytes ≤ 12320+loggedBytes x'.2 := by
  intro ack packets new s s' x fp x'
  have h := window_growth_bounds (c := {}) ⟨by decide,by decide,by decide,by decide⟩ (fun k => k) ⟨0,0,0,0⟩ fp
    [ack] (by decide) packets
  have hbytes : loggedBytes x.2 ≤ s.cc.cwndBytes := by decide
  refine ⟨⟨((h.1 s ⟨by decide,by decide⟩).2 (by decide)).1,
    ((h.1 s ⟨by decide,by decide⟩).2 (by decide)).2 hbytes⟩,?_⟩
  refine (h.2 s' ⟨by decide,by decide⟩ ?_).1 ?_
  · unfold WestwoodOWD.NoDelayReaction
    decide
  · decide

namespace Westwood
variable {clock : ℕ → ℤ} {fp : FloatUnit} {s : Controlled Westwood}

lemma onPacketAcked_inRecovery (s : Controlled Westwood) (packet : AckPacket) (time : ℤ) :
    (onPacketAcked clock fp c s packet).state.cc.inRecovery time = s.cc.inRecovery time := by
  simp [inRecovery]

lemma each_onPacketAcked_le (hc : c.Sane) (h : c.Within s.cc.cwndBytes) (packets : List AckPacket) :
    s.cc.cwndBytes ≤ (each (onPacketAcked clock fp c) s packets).state.cc.cwndBytes := by
  have hboth := each_invariant (f := onPacketAcked clock fp c) (s := s)
    (P := fun t => c.Within t.cc.cwndBytes ∧ s.cc.cwndBytes≤t.cc.cwndBytes) ?_ ⟨h,le_rfl⟩ packets
  · exact hboth.2
  · intro t p ht
    have hgrows := onPacketAcked_grows clock fp hc ht.1 p
    exact ⟨hgrows.within,ht.2.trans hgrows.le⟩

lemma each_onPacketAcked_of_small (hc : c.Sane) (h : c.Within s.cc.cwndBytes) (hss : s.cc.ssthresh ≤ s.cc.cwndBytes)
    {packets : List AckPacket}
    (hsmall : ∀ p ∈ packets,kDefaultUDPSendPacketLen*p.size < s.cc.cwndBytes) :
    (each (onPacketAcked clock fp c) s packets).state.cc.cwndBytes = s.cc.cwndBytes := by
  induction packets generalizing s with
  | nil => rfl
  | cons p packets ih =>
    have hgrows := onPacketAcked_grows clock fp hc h p
    have hle := hgrows.le
    have hadd := hgrows.le_add
    rw [increment,if_neg (by omega),Nat.div_eq_of_lt (hsmall p (by simp))] at hadd
    have hsame : (onPacketAcked clock fp c s p).state.cc.cwndBytes = s.cc.cwndBytes := by omega
    rw [each,andThen_of_none (onPacketAcked_thrown hc h p),ih,hsame]
    · exact hgrows.within
    · exact (hgrows.threshold_eq.trans_le hss).trans hle
    · exact fun q hq => hsame ▸ hsmall q (by simp [hq])

/-- In congestion avoidance below the upper limit acks make the window grow exactly if one of them alone is worth
a byte of it. -/
theorem acks_grow_window_iff (hc : c.Sane) (clock : ℕ → ℤ) (fp : FloatUnit) (s : Controlled Westwood)
    (hlow : c.minCwndInMss*c.udpSendPacketLen ≤ s.cc.cwndBytes) (hss : s.cc.ssthresh ≤ s.cc.cwndBytes)
    (hmax : s.cc.cwndBytes < c.maxCwndInMss*c.udpSendPacketLen) (packets : List AckPacket)
    (hout : ∀ p ∈ packets,s.cc.inRecovery p.time = false) :
    s.cc.cwndBytes < (each (onPacketAcked clock fp c) s packets).state.cc.cwndBytes ↔
      ∃ p ∈ packets,s.cc.cwndBytes ≤ kDefaultUDPSendPacketLen*p.size := by
  have hwithin : ∀ {t : Controlled Westwood}, c.minCwndInMss*c.udpSendPacketLen ≤ t.cc.cwndBytes →
      t.cc.cwndBytes < c.maxCwndInMss*c.udpSendPacketLen → c.Within t.cc.cwndBytes := fun hl hm => ⟨hl,hm.le⟩
  constructor
  · intro hgrown
    by_contra hnone
    push Not at hnone
    exact absurd (each_onPacketAcked_of_small hc (hwithin hlow hmax) hss hnone) hgrown.ne'
  · intro hlarge
    induction packets generalizing s with
    | nil => simp at hlarge
    | cons p packets ih =>
      have hw := hwithin hlow hmax
      obtain ⟨hthreshold,hwindow⟩ := onPacketAcked_window clock fp hc hw (hout p (by simp))
      rw [each,andThen_of_none (onPacketAcked_thrown hc hw p)]
      rw [increment,if_neg (by omega)] at hwindow
      by_cases hp : s.cc.cwndBytes ≤ kDefaultUDPSendPacketLen*p.size
      · have hone := (Nat.one_le_div_iff (hc.pos hw)).mpr hp
        have hgrows := onPacketAcked_grows clock fp hc hw p
        exact lt_of_lt_of_le (by omega) (each_onPacketAcked_le hc hgrows.within packets)
      · rw [Nat.div_eq_of_lt (by omega)] at hwindow
        have hsame : (onPacketAcked clock fp c s p).state.cc.cwndBytes = s.cc.cwndBytes := by omega
        have hlater : ∃ q ∈ packets,s.cc.cwndBytes ≤ kDefaultUDPSendPacketLen*q.size := by
          obtain ⟨q,hq,hqlarge⟩ := hlarge
          obtain rfl | hq := List.mem_cons.mp hq
          · exact absurd hqlarge hp
          · exact ⟨q,hq,hqlarge⟩
        have hrest := ih (onPacketAcked clock fp c s p).state (by omega) (by omega) (by omega)
          (fun q hq => by rw [onPacketAcked_inRecovery]; exact hout q (by simp [hq])) (by rwa [hsame])
        rwa [hsame] at hrest

theorem acks_grow_window_full_packet :
    let new := construct (fun k => k) {} 2000
    let s : Controlled Westwood := {new with cc := {new.cc with ssthresh := 2464, cwndBytes := 2464}}
    let packets : List AckPacket :=
      [{packetNum := 1, outstandingPacketMetadata := {time := 0, encodedSize := 1232}}]
    2464 < (each (onPacketAcked (fun k => k) ⟨0,0,0,0⟩ {}) s packets).state.cc.cwndBytes := by
  intro new s packets
  exact (acks_grow_window_iff (c := {}) ⟨by decide,by decide,by decide,by decide⟩ (fun k => k) ⟨0,0,0,0⟩ s
    (by decide) (by decide) (by decide) packets (by decide)).mpr (by decide)

/-- With the default limits a window of 1600000 bytes gains nothing from a whole window of full-size packets. -/
theorem full_window_gains_nothing :
    let new := construct (fun k => k) {} 2000000
    let s : Controlled Westwood := {new with cc := {new.cc with ssthresh := 2464, cwndBytes := 1600000}}
    let packets : List AckPacket := List.replicate 1300
      {packetNum := 1, outstandingPacketMetadata := {time := 0, encodedSize := 1232}}
    s.cc.ssthresh ≤ s.cc.cwndBytes ∧ s.cc.cwndBytes < 2000*1232 ∧ s.cc.endOfRecovery=none ∧
      (∀ p ∈ packets,1 ≤ p.size ∧ p.size≤1232) ∧ s.cc.cwndBytes ≤ (packets.map AckPacket.size).sum ∧
      (each (onPacketAcked (fun k => k) ⟨0,0,0,0⟩ {}) s packets).state.cc.cwndBytes = s.cc.cwndBytes := by
  intro new s packets
  refine ⟨by decide,by decide,rfl,fun p hp => ?_,?_,?_⟩
  · rw [List.eq_of_mem_replicate hp]
    decide
  · rw [List.map_replicate,List.sum_replicate]
    decide
  · refine each_onPacketAcked_of_small ⟨by decide,by decide,by decide,by decide⟩ ⟨by decide,by decide⟩
      (by decide) fun p hp => ?_
    rw [List.eq_of_mem_replicate hp]
    decide

end Westwood

end QuicWestwood
