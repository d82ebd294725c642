import QuicWestwood.WindowArithmetic

/-! The filter reserves the length of a body and its padding before the codec splits the body into frames, each
of which carries the padding and a byte for its length. -/
namespace QuicWestwood.HTTP2

/-- The payload length of the DATA frame that `writeData` writes. -/
def writeData (dataLen : ℕ) (padding : Option UInt8) : ℕ := dataLen+padding.elim 0 (·.toNat+1)

/-- The loop of `HTTP2Codec::generateBody`: the payload lengths of the frames. -/
def bodyFrames (maxFrameSize : ℕ) (padding : Option UInt8) (length : ℕ) : List ℕ :=
  if maxFrameSize<length ∧ 0 < maxFrameSize then
    writeData maxFrameSize padding::bodyFrames maxFrameSize padding (length-maxFrameSize)
  else [writeData length padding]
termination_by length

/-- A body handed to the filter; `allowed` is the answer of `isStreamIngressEgressAllowed`. -/
structure SentBody where
  length : ℕ
  padding : Option UInt8 := none
  allowed : Bool := true
  maxFrameSize : ℕ := 2^14

namespace SentBody

/-- What the filter reserves. -/
def amount (b : SentBody) : ℕ := b.length+b.padding.elim 0 UInt8.toNat

/-- What the codec writes. -/
def payload (b : SentBody) : ℕ := if b.allowed then (bodyFrames b.maxFrameSize b.padding b.length).sum else 0

/-- The body of a stream that may send is not padded, and that of another is empty. -/
def Unpadded (b : SentBody) : Prop :=
  (b.allowed=true → b.padding=none) ∧ (b.allowed=false → b.amount=0)

instance (b : SentBody) : Decidable b.Unpadded := inferInstanceAs (Decidable (_ ∧ _))

end SentBody

inductive SendEvent
  | generateBody (b : SentBody)
  | onWindowUpdate (amount : UInt32)

/-- The sending half of the filter, and what has passed through it. -/
structure SendRun where
  sendWindow : Window := ⟨kInitialWindow,0⟩
  sendsBlocked : Bool := false
  error : Bool := false
  /-- The payload of all DATA frames written. -/
  written : ℕ := 0
  /-- The increments of all stream-0 updates received. -/
  increments : ℕ := 0
  /-- Those of the updates that could be applied. -/
  applied : ℕ := 0

namespace SendRun

def getAvailableSend (s : SendRun) : ℤ := max 0 s.sendWindow.getSize

/-- The run after a body, with the window that holds its reservation. -/
def sent (s : SendRun) (b : SentBody) (sendWindow : Window) : SendRun :=
  {s with
    sendWindow
    sendsBlocked := s.sendsBlocked || decide (sendWindow.getSize≤0)
    written := s.written+b.payload}

/-- The argument of `reserve` is a `uint32_t`, and its result is checked. -/
def perform (s : SendRun) : SendEvent → Except Failure SendRun
  | .generateBody b =>
    match s.sendWindow.reserve (b.amount % 2^32) with
    | none => .error .checkFailed
    | some sendWindow => .ok (s.sent b sendWindow)
  | .onWindowUpdate amount =>
    let s := {s with increments := s.increments+amount.toNat}
    match s.sendWindow.free amount.toNat with
    | none => .ok {s with error := true, sendsBlocked := s.sendsBlocked && decide (s.sendWindow.getSize≤0)}
    | some sendWindow => .ok
      {s with
        sendWindow
        sendsBlocked := s.sendsBlocked && decide (sendWindow.getSize≤0)
        applied := s.applied+amount.toNat}

def step (s : SendRun) (e : SendEvent) : SendRun :=
  match s.perform e with
  | .ok t => t
  | .error _ => s

/-- A body is offered only if it fits what is available. -/
def Offered (s : SendRun) : SendEvent → Prop
  | .generateBody b => b.length ≤ s.getAvailableSend
  | .onWindowUpdate _ => True

/-- The call returns, what is written is within the credit, and it is what has been reserved. -/
def Kept (s : SendRun) (e : SendEvent) : Prop :=
  ∃ t,s.perform e = .ok t ∧ t.written ≤ kInitialWindow+t.increments ∧
    (t.written : ℤ) = t.sendWindow.outstanding+t.applied

def Unpadded : SendEvent → Prop
  | .generateBody b => b.Unpadded
  | .onWindowUpdate _ => True

instance (s : SendRun) : (e : SendEvent) → Decidable (s.Offered e)
  | .generateBody _ => inferInstanceAs (Decidable (_≤_))
  | .onWindowUpdate _ => .isTrue trivial

instance : (e : SendEvent) → Decidable (Unpadded e)
  | .generateBody b => inferInstanceAs (Decidable b.Unpadded)
  | .onWindowUpdate _ => .isTrue trivial

end SendRun

lemma sum_bodyFrames (maxFrameSize : ℕ) (padding : Option UInt8) (length : ℕ) :
    ∃ frames > 0,(bodyFrames maxFrameSize padding length).sum = length+frames*padding.elim 0 (·.toNat+1) := by
  induction length using Nat.strong_induction_on with
  | _ length ih =>
    unfold bodyFrames
    split_ifs with hmore
    · obtain ⟨frames,hpos,hsum⟩ := ih (length-maxFrameSize) (by omega)
      refine ⟨frames+1,Nat.succ_pos _,?_⟩
      rw [List.sum_cons,hsum,writeData,Nat.add_mul]
      omega
    · exact ⟨1,one_pos,by simp [writeData]⟩

namespace SentBody
variable {b : SentBody}

lemma amount_lt (b : SentBody) : b.amount < b.length+2^8 := by
  unfold amount
  cases b.padding with
  | none => exact Nat.lt_add_of_pos_right (by decide)
  | some pad => exact Nat.add_lt_add_left pad.toNat_lt _

lemma Unpadded.amount_le (h : b.Unpadded) : b.amount≤b.length := by
  cases hallowed : b.allowed with
  | false => exact (h.2 hallowed).le.trans (Nat.zero_le _)
  | true => simp [amount,h.1 hallowed]

/-- The reservation is for what the frames carry exactly if no frame is padded. -/
lemma payload_eq_amount_iff (b : SentBody) : b.payload=b.amount ↔ b.Unpadded := by
  obtain ⟨frames,hpos,hsum⟩ := sum_bodyFrames b.maxFrameSize b.padding b.length
  unfold payload Unpadded amount
  rw [hsum]
  cases b.allowed with
  | false => simp [@eq_comm ℕ 0]
  | true =>
    cases b.padding with
    | none => simp
    | some pad =>
      have hmul : pad.toNat+1 ≤ frames*(pad.toNat+1) := Nat.le_mul_of_pos_left _ hpos
      simp only [if_true,Option.elim_some,reduceCtorEq,forall_const,false_and,iff_false]
      omega

end SentBody

namespace SendRun

/-- The window is within its bounds, and every byte written is outstanding or has been given back. -/
structure Sound (s : SendRun) : Prop where
  bounded : s.sendWindow.Bounded
  capacity : s.sendWindow.capacity=kInitialWindow
  regular : s.sendWindow.outstanding ≤ s.sendWindow.capacity
  balance : (s.written : ℤ) = s.sendWindow.outstanding+s.applied
  applied : s.applied ≤ s.increments

variable {s : SendRun} {b : SentBody}

lemma Sound.kept {t : SendRun} {e : SendEvent} (h : t.Sound) (ht : s.perform e = .ok t) :
    s.Kept e ∧ (s.step e).Sound := by
  have hbalance := h.balance
  have happlied := h.applied
  have hregular := h.regular
  rw [h.capacity] at hregular
  refine ⟨⟨t,ht,by omega,hbalance⟩,?_⟩
  rw [step,ht]
  exact h

section Body
variable (h : s.Sound) (hoffered : s.Offered (.generateBody b))
include h hoffered

lemma Sound.length_le : b.length ≤ s.sendWindow.capacity-s.sendWindow.outstanding := by
  have hregular := h.regular
  rw [Offered,getAvailableSend,h.bounded.getSize_eq] at hoffered
  omega

lemma Sound.perform_generateBody :
    s.perform (.generateBody b) =
      if s.sendWindow.capacity < s.sendWindow.outstanding+b.amount then .error .checkFailed
      else .ok (s.sent b {s.sendWindow with outstanding := s.sendWindow.outstanding+b.amount}) := by
  have hlength := h.length_le hoffered
  have hamount := b.amount_lt
  obtain ⟨hnonneg,hle,hlow,hhigh,hsize⟩ := h.bounded
  have hmax := Window.int32Max_eq
  have hwidth : b.amount % 2^32 = b.amount := by omega
  have hreserve := h.bounded.perform_eq_spec (.reserve (.ofNat b.amount) true)
  simp only [Window.perform,Window.spec,if_true,UInt32.toNat_ofNat',hwidth,true_and] at hreserve
  simp only [perform,hwidth,hreserve]
  by_cases hfits : s.sendWindow.capacity < s.sendWindow.outstanding+b.amount
  · rw [if_pos hfits,if_pos (.inr (.inr hfits))]
  · rw [if_neg hfits,if_neg (by omega)]

lemma Sound.generateBody :
    (s.Kept (.generateBody b) ↔ b.Unpadded) ∧ (b.Unpadded → (s.step (.generateBody b)).Sound) := by
  have hlength := h.length_le hoffered
  have hperform := h.perform_generateBody hoffered
  obtain ⟨⟨hnonneg,hle,hlow,hhigh,hsize⟩,hcapacity,hregular,hbalance,happlied⟩ := h
  split_ifs at hperform with hrefused
  -- only a padded body can be refused
  · have hpadded : ¬b.Unpadded := by
      intro hunpadded
      have hle := hunpadded.amount_le
      omega
    refine ⟨iff_of_false ?_ hpadded,fun hunpadded => absurd hunpadded hpadded⟩
    rintro ⟨t,ht,-⟩
    rw [hperform] at ht
    cases ht
  · have hkept : b.Unpadded → s.Kept (.generateBody b) ∧ (s.step (.generateBody b)).Sound := by
      rw [← b.payload_eq_amount_iff]
      intro heq
      apply Sound.kept _ hperform
      refine ⟨⟨hnonneg,hle,?_,?_,?_⟩,hcapacity,?_,?_,happlied⟩ <;> simp only [sent] <;> omega
    refine ⟨⟨?_,fun hunpadded => (hkept hunpadded).1⟩,fun hunpadded => (hkept hunpadded).2⟩
    rintro ⟨t,ht,-,hequal⟩
    rw [hperform] at ht
    obtain rfl := Except.ok.inj ht
    rw [← b.payload_eq_amount_iff]
    simp only [sent] at hequal
    omega

end Body

lemma Sound.onWindowUpdate (h : s.Sound) (amount : UInt32) :
    s.Kept (.onWindowUpdate amount) ∧ (s.step (.onWindowUpdate amount)).Sound := by
  have hnext := h.bounded.step (.free amount)
  have hfree : s.sendWindow.free amount.toNat = s.sendWindow.spec (.free amount) :=
    h.bounded.perform_eq_spec (.free amount)
  rw [Window.step,h.bounded.perform_eq_spec] at hnext
  have hsound : ∃ t,s.perform (.onWindowUpdate amount) = .ok t ∧ t.Sound := by
    obtain ⟨hbounded,hcapacity,hregular,hbalance,happlied⟩ := h
    simp only [perform,hfree]
    simp only [Window.spec] at hnext ⊢
    split_ifs at hnext ⊢
    · exact ⟨_,rfl,hnext,hcapacity,hregular,hbalance,by dsimp only; omega⟩
    · refine ⟨_,rfl,hnext,hcapacity,?_,?_,?_⟩ <;> dsimp only <;> omega
  obtain ⟨t,ht,hsound⟩ := hsound
  exact hsound.kept ht

/-- Whatever bodies that fit are sent and whatever updates arrive, the payload written is what has been reserved, within
the credit of the peer, after every call exactly if no body that is sent is padded and none is dropped. -/
theorem send_credit_iff (events : List SendEvent) (hoffered : Run.EveryStep step Offered {} events) :
    Run.EveryStep step Kept {} events ↔ Run.EveryStep step (fun _ e => Unpadded e) {} events := by
  have hstart : Sound {} := ⟨⟨by decide,by decide,by decide,by decide,by decide⟩,rfl,by decide,rfl,le_rfl⟩
  apply Run.everyStep_congr_given hstart hoffered
  intro t ht e _ hoffered
  cases e with
  | generateBody b => exact ht.generateBody hoffered
  | onWindowUpdate amount =>
    exact ⟨iff_of_true (ht.onWindowUpdate amount).1 trivial,fun _ => (ht.onWindowUpdate amount).2⟩

theorem send_credit_split :
    Run.EveryStep step Kept {} [.generateBody {length := 40000},.onWindowUpdate 7,
      .generateBody {length := 0, padding := some 0, allowed := false}] :=
  (send_credit_iff _ (by decide)).mpr (by decide)

/-- The byte for the length of the padding is not reserved. -/
theorem padded_body_exceeds_reservation :
    let e : SendEvent := .generateBody {length := 10, padding := some 5}
    let s := step {} e
    Offered {} e ∧ s.sendWindow.outstanding=15 ∧ s.applied=0 ∧ s.written=16 := by
  have hframes : bodyFrames (2^14) (some 5) 10 = [16] := by
    rw [bodyFrames]
    rfl
  simp only [step,perform,sent,SentBody.payload,hframes]
  decide

end SendRun

end QuicWestwood.HTTP2
