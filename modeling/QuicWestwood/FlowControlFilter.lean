import QuicWestwood.ByteCodec
import QuicWestwood.PacketTypes
import QuicWestwood.Run

/-! The filter counts received bytes against a window and gives them back to the peer, as stream-0 WINDOW_UPDATE
frames, when they have been processed. Its account is compared with what the peer has been granted. The window
for sending is not part of this model. -/
namespace QuicWestwood.HTTP2

def kInitialWindow : ℕ := 2^16-1

def int32Max : ℤ := 2^31-1

def int32Min : ℤ := -2^31

def int32 (x : ℤ) : ℤ := x.bmod (2^32)

lemma int32_eq {x : ℤ} (hlow : -2^31 ≤ x) (hhigh : x < 2^31) : int32 x = x := by
  exact Int.bmod_eq_of_le_mul_two (by omega) (by omega)

lemma int32_eq_sub {x : ℤ} (hlow : 2^31 ≤ x) (hhigh : x < 2^32) : int32 x = x-2^32 := by
  have hsub := int32_eq (x := x-2^32) (by omega) (by omega)
  rw [← hsub]
  unfold int32
  rw [Int.bmod_eq_bmod_iff_bmod_sub_eq_zero,sub_sub_cancel]
  decide

structure Window where
  capacity : ℤ := 0
  outstanding : ℤ := 0
  deriving DecidableEq

namespace Window

def getSize (w : Window) : ℤ := int32 (w.capacity-w.outstanding)

/-- The strict mode; `none` if the window does not change. -/
def reserve (w : Window) (amount : ℕ) : Option Window :=
  if int32Max<amount then none
  else if 0<w.outstanding ∧ int32Max-amount < w.outstanding then none
  else
    let newOutstanding := int32 (w.outstanding+amount)
    if w.capacity<newOutstanding then none else some {w with outstanding := newOutstanding}

def free (w : Window) (amount : ℕ) : Option Window :=
  if int32Max<amount then none
  else if w.outstanding<0 ∧ w.outstanding < int32Min+amount then none
  else
    let newOutstanding := int32 (w.outstanding-amount)
    if newOutstanding < w.capacity-int32Max then none else some {w with outstanding := newOutstanding}

def setCapacity (w : Window) (capacity : ℕ) : Option Window :=
  if int32Max < capacity then none
  else
    let diff := int32 (capacity-w.capacity)
    if 0<diff ∧ 0<w.getSize ∧ int32Max-w.getSize < diff then none
    else some {w with capacity}

structure Regular (w : Window) : Prop where
  nonneg : 0≤w.outstanding
  le : w.outstanding≤w.capacity
  max : w.capacity ≤ int32Max

lemma Regular.getSize_eq {w : Window} (h : w.Regular) : w.getSize = w.capacity-w.outstanding := by
  have := h.nonneg
  have := h.le
  have := h.max
  unfold int32Max at this
  exact int32_eq (by omega) (by omega)

lemma Regular.reserve_eq {w : Window} (h : w.Regular) (amount : ℕ) :
    w.reserve amount =
      if amount ≤ w.capacity-w.outstanding then some {w with outstanding := w.outstanding+amount} else none := by
  obtain ⟨hnonneg,hle,hmax⟩ := h
  unfold reserve int32Max at *
  by_cases hfits : (amount : ℤ) ≤ w.capacity-w.outstanding
  · rw [if_pos hfits,if_neg (by omega),if_neg (by omega),int32_eq (by omega) (by omega)]
    exact if_neg (by omega)
  · rw [if_neg hfits]
    split_ifs with hlarge hover
    · rfl
    · rfl
    · rw [int32_eq (by omega) (by omega)]
      exact if_pos (by omega)

lemma free_eq {w : Window} (hlow : 0≤w.outstanding) (hhigh : w.outstanding ≤ int32Max) {amount : ℕ}
    (hamount : amount ≤ int32Max) :
    w.free amount = if w.outstanding-amount < w.capacity-int32Max then none
      else some {w with outstanding := w.outstanding-amount} := by
  unfold free
  unfold int32Max at *
  rw [if_neg (by omega),if_neg (by omega),int32_eq (by omega) (by omega)]

lemma Regular.setCapacity_eq {w : Window} (h : w.Regular) {capacity : ℕ} (hgrow : w.capacity ≤ capacity) :
    w.setCapacity capacity = if (capacity : ℤ) ≤ int32Max then some {w with capacity} else none := by
  have hsize := h.getSize_eq
  obtain ⟨hnonneg,hle,hmax⟩ := h
  unfold setCapacity
  rw [hsize]
  unfold int32Max at *
  by_cases hlarge : (capacity : ℤ) ≤ 2^31-1
  · rw [if_neg (by omega),if_pos hlarge,int32_eq (by omega) (by omega)]
    exact if_neg (by omega)
  · rw [if_pos (by omega),if_neg hlarge]

end Window

/-- Where a body goes: on to the session, or nowhere, with an exception for the connection. -/
inductive BodyResult
  | onBody (length padding : ℕ)
  | flowControlError (message : String)
  deriving DecidableEq

structure FlowControlFilter where
  recvWindow : Window
  toAck : ℤ := 0
  error : Bool := false
  /-- The increments of the stream-0 WINDOW_UPDATE frames, in their order. -/
  windowUpdates : List ℕ := []
  deriving DecidableEq

namespace FlowControlFilter

def checked : Option Window → Except Failure Window
  | some w => .ok w
  | none => .error .checkFailed

def generateWindowUpdate (f : FlowControlFilter) (delta : ℕ) : FlowControlFilter :=
  {f with windowUpdates := f.windowUpdates++[delta]}

/-- The constructor; a `recvCapacity` of 0 means the default. -/
def init (recvCapacity : ℕ) : Except Failure FlowControlFilter := do
  let window ← checked (Window.setCapacity {} kInitialWindow)
  if kInitialWindow < recvCapacity then
    let window ← checked (window.setCapacity recvCapacity)
    return generateWindowUpdate {recvWindow := window} (recvCapacity-kInitialWindow)
  else return {recvWindow := window}

def setReceiveWindowSize (f : FlowControlFilter) (capacity : ℕ) : FlowControlFilter :=
  if (capacity : ℤ) < f.recvWindow.capacity then f
  else
    let delta := int32 (capacity-f.recvWindow.capacity)
    if delta<0 then f
    else
      match f.recvWindow.setCapacity capacity with
      | none => f
      | some recvWindow =>
        let toAck := int32 (f.toAck+delta)
        if 0<toAck then {f with recvWindow, toAck := 0}.generateWindowUpdate delta.toNat
        else {f with recvWindow, toAck}

/-- The filter, and whether an update was written. -/
def ingressBytesProcessed (f : FlowControlFilter) (delta : ℕ) : Except Failure (FlowControlFilter × Bool) :=
  let toAck := int32 (f.toAck+delta)
  if 0<toAck ∧ f.recvWindow.capacity/2 < toAck then do
    let recvWindow ← checked (f.recvWindow.free toAck.toNat)
    return ({f with recvWindow, toAck := 0}.generateWindowUpdate toAck.toNat,true)
  else .ok ({f with toAck},false)

/-- The argument of `reserve` is a `uint32_t`. -/
def onBody (f : FlowControlFilter) (length padding : ℕ) : Except Failure (FlowControlFilter × BodyResult) :=
  match f.recvWindow.reserve ((length+padding) % 2^32) with
  | none =>
    .ok ({f with error := true},
      .flowControlError s!"Failed to reserve receive window, window size={f.recvWindow.getSize}, amount={length}")
  | some reserved => do
    let recvWindow ← checked (reserved.free padding)
    return ({f with recvWindow, toAck := int32 (f.toAck+padding)},.onBody length padding)

end FlowControlFilter

inductive CreditEvent
  | body (length : ℕ) (padding : UInt16)
  | processed (delta : UInt32)
  | setReceiveWindowSize (capacity : UInt32)

structure CreditRun where
  filter : FlowControlFilter
  /-- The bytes of the bodies let through, with their padding. -/
  accepted : ℕ := 0
  received : ℕ := 0
  processed : ℕ := 0
  /-- The padding let through since the last time nothing was to be acknowledged. -/
  padding : ℕ := 0
  deriving DecidableEq

namespace CreditRun

def credit (s : CreditRun) : ℤ := kInitialWindow+(s.filter.windowUpdates.sum : ℕ)-s.accepted

def unprocessed (s : CreditRun) : ℤ := s.received-s.processed

def countBody (s : CreditRun) (filter : FlowControlFilter) : BodyResult → CreditRun
  | .onBody length padding =>
    {s with
      filter
      accepted := s.accepted+length+padding
      received := s.received+length
      padding := s.padding+padding}
  | .flowControlError _ => {s with filter}

def perform (s : CreditRun) : CreditEvent → Except Failure CreditRun
  | .body length padding => (fun r => s.countBody r.1 r.2) <$> s.filter.onBody length padding.toNat
  | .processed delta =>
    (fun r =>
      {s with
        filter := r.1
        processed := s.processed+delta.toNat
        padding := if r.2 then 0 else s.padding}) <$> s.filter.ingressBytesProcessed delta.toNat
  | .setReceiveWindowSize capacity => .ok {s with filter := s.filter.setReceiveWindowSize capacity.toNat}

def step (s : CreditRun) (e : CreditEvent) : CreditRun :=
  match s.perform e with
  | .ok t => t
  | .error _ => s

/-- The session does not report more bytes than it has been given. -/
def Reported (s : CreditRun) : CreditEvent → Prop
  | .processed delta => (delta.toNat : ℤ) ≤ s.unprocessed
  | _ => True

instance (s : CreditRun) : (e : CreditEvent) → Decidable (s.Reported e)
  | .body _ _ => .isTrue trivial
  | .processed _ => inferInstanceAs (Decidable (_≤_))
  | .setReceiveWindowSize _ => .isTrue trivial

/-- The account is right after the call, and a body that exceeds what the peer was granted is refused. -/
structure Accounted (s : CreditRun) (e : CreditEvent) (t : CreditRun) : Prop where
  performed : s.perform e = .ok t
  balance : t.credit+t.filter.toAck+t.unprocessed = t.filter.recvWindow.capacity
  size : t.filter.recvWindow.getSize ≤ t.credit+t.filter.toAck
  increments : ∀ increment ∈ t.filter.windowUpdates,1 ≤ increment
  refused : ∀ length padding,e = .body length padding → s.credit+s.filter.toAck < length+padding.toNat →
    ∃ filter message,s.filter.onBody length padding.toNat = .ok (filter,.flowControlError message)

def Kept (s : CreditRun) (e : CreditEvent) : Prop := ∃ t,Accounted s e t

/-- Nothing is counted beyond 32 bits, no update is sent while padding waits to be acknowledged, and the window
grows only when nothing waits. -/
def Creditable (s : CreditRun) : CreditEvent → Prop
  | .body length padding => ((length+padding.toNat) % 2^32 : ℕ) ≤ s.filter.recvWindow.getSize →
      length+padding.toNat < 2^32 ∧ s.filter.toAck+padding.toNat < 2^31
  | .processed delta => s.filter.toAck+delta.toNat < 2^31 ∧
      (s.filter.recvWindow.capacity/2 < s.filter.toAck+delta.toNat → s.padding=0)
  | .setReceiveWindowSize capacity =>
      s.filter.recvWindow.capacity ≤ capacity.toNat → capacity.toNat < 2^31 → s.filter.toAck=0

instance (s : CreditRun) : (e : CreditEvent) → Decidable (s.Creditable e)
  | .body _ _ => inferInstanceAs (Decidable (_ → _))
  | .processed _ => inferInstanceAs (Decidable (_ ∧ _))
  | .setReceiveWindowSize _ => inferInstanceAs (Decidable (_ → _ → _))

/-- Of the bytes to be acknowledged, those of bodies are still outstanding and those of padding are not. -/
structure Sound (s : CreditRun) : Prop where
  regular : s.filter.recvWindow.Regular
  balance : s.credit+s.filter.toAck+s.unprocessed = s.filter.recvWindow.capacity
  outstanding : s.filter.recvWindow.outstanding = s.unprocessed+(s.filter.toAck-s.padding)
  padding : s.padding ≤ s.filter.toAck
  toAck : s.filter.toAck < 2^31
  unprocessed : 0 ≤ s.unprocessed
  increments : ∀ increment ∈ s.filter.windowUpdates,1 ≤ increment

lemma Sound.size_eq {s : CreditRun} (h : s.Sound) :
    s.filter.recvWindow.getSize = s.credit+s.padding := by
  rw [h.regular.getSize_eq,h.outstanding,← h.balance]
  omega

lemma Sound.kept {s t : CreditRun} {e : CreditEvent} (h : t.Sound) (ht : s.perform e = .ok t)
    (hrefused : ∀ length padding,e = .body length padding → s.credit+s.filter.toAck < length+padding.toNat →
      ∃ filter message,s.filter.onBody length padding.toNat = .ok (filter,.flowControlError message)) :
    s.Kept e ∧ (s.step e).Sound := by
  have hsize := h.size_eq
  have hpadding := h.padding
  refine ⟨⟨t,ht,h.balance,by omega,h.increments,hrefused⟩,?_⟩
  unfold step
  rwa [ht]

def afterBody (s : CreditRun) (length padding : ℕ) : CreditRun :=
  {s with
    filter := {s.filter with
      recvWindow := ⟨s.filter.recvWindow.capacity,s.filter.recvWindow.outstanding+length⟩
      toAck := int32 (s.filter.toAck+padding)}
    accepted := s.accepted+length+padding
    received := s.received+length
    padding := s.padding+padding}

def afterWaiting (s : CreditRun) (delta : ℕ) (toAck : ℤ) : CreditRun :=
  {s with filter := {s.filter with toAck}, processed := s.processed+delta}

def afterAck (s : CreditRun) (delta : ℕ) (toAck : ℤ) : CreditRun :=
  {s with
    filter := {s.filter with
      recvWindow := ⟨s.filter.recvWindow.capacity,s.filter.recvWindow.outstanding-toAck⟩
      toAck := 0
      windowUpdates := s.filter.windowUpdates++[toAck.toNat]}
    processed := s.processed+delta
    padding := 0}

def afterResize (s : CreditRun) (capacity : ℕ) (toAck : ℤ) (windowUpdates : List ℕ) : CreditRun :=
  {s with filter := ⟨⟨capacity,s.filter.recvWindow.outstanding⟩,toAck,s.filter.error,windowUpdates⟩}

section Steps
variable {s : CreditRun} (h : s.Sound)
include h

variable {padding : UInt16}

lemma Sound.perform_refused {length : ℕ}
    (hlarge : s.filter.recvWindow.getSize < ((length+padding.toNat) % 2^32 : ℕ)) :
    (∃ filter message,s.filter.onBody length padding.toNat = .ok (filter,.flowControlError message)) ∧
      s.perform (.body length padding) = .ok {s with filter := {s.filter with error := true}} := by
  rw [h.regular.getSize_eq] at hlarge
  have hrefused : ∃ message,s.filter.onBody length padding.toNat =
      .ok ({s.filter with error := true},.flowControlError message) := by
    unfold FlowControlFilter.onBody
    rw [h.regular.reserve_eq,if_neg (by omega)]
    exact ⟨_,rfl⟩
  obtain ⟨message,heq⟩ := hrefused
  refine ⟨⟨_,message,heq⟩,?_⟩
  show (fun r => s.countBody r.1 r.2) <$> s.filter.onBody length padding.toNat = _
  rw [heq]
  rfl

lemma Sound.perform_accepted {length : ℕ} (hfits : (length+padding.toNat : ℕ) ≤ s.filter.recvWindow.getSize) :
    s.perform (.body length padding) = .ok (s.afterBody length padding.toNat) := by
  have hsize := h.regular.getSize_eq
  obtain ⟨hnonneg,hle,hmax⟩ := h.regular
  have hamount : (length+padding.toNat) % 2^32 = length+padding.toNat := by
    unfold int32Max at hmax
    omega
  have hfree := Window.free_eq
    (w := ⟨s.filter.recvWindow.capacity,s.filter.recvWindow.outstanding+(length+padding.toNat : ℕ)⟩)
    (by dsimp only; omega) (by dsimp only; omega) (show (padding.toNat : ℤ) ≤ int32Max by omega)
  rw [if_neg (by dsimp only; omega)] at hfree
  have houtstanding : s.filter.recvWindow.outstanding+(length+padding.toNat : ℕ)-padding.toNat =
      s.filter.recvWindow.outstanding+length := by omega
  show (fun r => s.countBody r.1 r.2) <$> s.filter.onBody length padding.toNat = _
  unfold FlowControlFilter.onBody
  rw [hamount,h.regular.reserve_eq,if_pos (by omega)]
  dsimp only at hfree ⊢
  rw [hfree,houtstanding]
  rfl

lemma Sound.body_kept {length : ℕ} (hcond : s.Creditable (.body length padding)) :
    s.Kept (.body length padding) ∧ (s.step (.body length padding)).Sound := by
  have hsize := h.size_eq
  have hregular := h.regular
  have hsound := h
  obtain ⟨⟨hnonneg,hle,hmax⟩,hbalance,houtstanding,hpadding,htoAck,hunprocessed,hincrements⟩ := h
  by_cases hfits : (((length+padding.toNat) % 2^32 : ℕ) : ℤ) ≤ s.filter.recvWindow.getSize
  · obtain ⟨hwidth,hack⟩ := hcond hfits
    rw [Nat.mod_eq_of_lt hwidth] at hfits
    have hperform := hsound.perform_accepted hfits
    rw [hregular.getSize_eq] at hfits
    have htoAck' : int32 (s.filter.toAck+padding.toNat) = _ := int32_eq (by omega) hack
    have hnext : (s.afterBody length padding.toNat).Sound := by
      refine ⟨⟨?_,?_,hmax⟩,?_,?_,?_,?_,?_,hincrements⟩ <;>
        simp only [credit,CreditRun.unprocessed,afterBody,htoAck'] at hbalance houtstanding hunprocessed ⊢ <;>
        omega
    refine hnext.kept hperform ?_
    rintro length' padding' heq hlarge
    obtain ⟨rfl,rfl⟩ := CreditEvent.body.inj heq
    omega
  · have hlarge := not_le.mp hfits
    obtain ⟨hrefused,hperform⟩ := hsound.perform_refused hlarge
    refine Sound.kept ?_ hperform ?_
    · exact {hsound with}
    · rintro length' padding' heq -
      obtain ⟨rfl,rfl⟩ := CreditEvent.body.inj heq
      exact hrefused

lemma Sound.creditable_body {length : ℕ} (hkept : s.Kept (.body length padding)) :
    s.Creditable (.body length padding) := by
  intro hfits
  have hmax := h.regular.max
  have hsize := h.regular.getSize_eq
  have hnonneg := h.unprocessed
  have hbalance := h.balance
  have htoAck := h.toAck
  unfold int32Max at hmax
  obtain ⟨t,ht⟩ := hkept
  -- a length of more than 32 bits is let through although it exceeds every window
  have hwidth : length+padding.toNat < 2^32 := by
    by_contra hlarge
    obtain ⟨filter,message,hrefused⟩ := ht.refused length padding rfl (by omega)
    unfold FlowControlFilter.onBody at hrefused
    rw [h.regular.reserve_eq,if_pos (by omega)] at hrefused
    obtain ⟨window,-,heq⟩ := ByteCodec.bind_eq_ok.mp hrefused
    cases heq
  rw [Nat.mod_eq_of_lt hwidth] at hfits
  have heq := Except.ok.inj ((h.perform_accepted hfits).symm.trans ht.performed)
  refine ⟨hwidth,?_⟩
  by_contra hlarge
  have hpadding := padding.toNat_lt
  have hwrapped : int32 (s.filter.toAck+padding.toNat) = s.filter.toAck+padding.toNat-2^32 :=
    int32_eq_sub (by omega) (by omega)
  have hafter := ht.balance
  rw [← heq] at hafter
  simp only [credit,CreditRun.unprocessed,afterBody,hwrapped] at hafter hbalance
  omega

omit h in
lemma perform_waiting (delta : UInt32)
    (hwait : ¬(0 < int32 (s.filter.toAck+delta.toNat) ∧
      s.filter.recvWindow.capacity/2 < int32 (s.filter.toAck+delta.toNat))) :
    s.perform (.processed delta) = .ok (s.afterWaiting delta.toNat (int32 (s.filter.toAck+delta.toNat))) := by
  have hfilter : s.filter.ingressBytesProcessed delta.toNat =
      .ok ({s.filter with toAck := int32 (s.filter.toAck+delta.toNat)},false) := if_neg hwait
  unfold perform
  dsimp only
  rw [hfilter]
  rfl

lemma Sound.perform_ack {delta : UInt32} (hwidth : s.filter.toAck+delta.toNat < 2^31)
    (hack : s.filter.recvWindow.capacity/2 < s.filter.toAck+delta.toNat) :
    s.perform (.processed delta) =
      if s.filter.recvWindow.outstanding-(s.filter.toAck+delta.toNat) < s.filter.recvWindow.capacity-int32Max
      then .error .checkFailed
      else .ok (s.afterAck delta.toNat (s.filter.toAck+delta.toNat)) := by
  obtain ⟨⟨hnonneg,hle,hmax⟩,-,-,hpadding,-,-,-⟩ := h
  have htoAck := int32_eq (by omega) hwidth
  have hamount : ((s.filter.toAck+delta.toNat).toNat : ℤ) = s.filter.toAck+delta.toNat :=
    Int.toNat_of_nonneg (by omega)
  have hfree := Window.free_eq (w := s.filter.recvWindow) hnonneg (hle.trans hmax)
    (show (((s.filter.toAck+delta.toNat).toNat : ℕ) : ℤ) ≤ int32Max by unfold int32Max; omega)
  rw [hamount] at hfree
  unfold perform FlowControlFilter.ingressBytesProcessed
  dsimp only
  rw [htoAck,if_pos ⟨by omega,hack⟩,hfree]
  split
  · rfl
  · rfl

lemma Sound.processed_kept {delta : UInt32} (hreported : s.Reported (.processed delta))
    (hcond : s.Creditable (.processed delta)) :
    s.Kept (.processed delta) ∧ (s.step (.processed delta)).Sound := by
  obtain ⟨hwidth,hpadded⟩ := hcond
  have hsound := h
  have hregular := h.regular
  obtain ⟨⟨hnonneg,hle,hmax⟩,hbalance,houtstanding,hpadding,htoAck,hunprocessed,hincrements⟩ := h
  change (delta.toNat : ℤ) ≤ s.unprocessed at hreported
  by_cases hack : s.filter.recvWindow.capacity/2 < s.filter.toAck+delta.toNat
  · have hnone := hpadded hack
    have hperform := hsound.perform_ack hwidth hack
    rw [if_neg (by omega)] at hperform
    refine Sound.kept ?_ hperform fun _ _ => nofun
    refine ⟨⟨?_,?_,hmax⟩,?_,?_,le_rfl,pow_pos two_pos 31,?_,fun increment hincrement => ?_⟩
    iterate 5
      simp only [credit,CreditRun.unprocessed,afterAck,List.sum_append,List.sum_singleton]
        at hbalance houtstanding hunprocessed hreported ⊢
      omega
    · rcases List.mem_append.mp hincrement with hold | hnew
      · exact hincrements increment hold
      · rw [List.mem_singleton.mp hnew]
        omega
  · have htoAck' := int32_eq (by omega) hwidth
    have hperform := perform_waiting (s := s) delta (by rw [htoAck']; exact fun hboth => hack hboth.2)
    rw [htoAck'] at hperform
    refine Sound.kept ?_ hperform fun _ _ => nofun
    refine ⟨hregular,?_,?_,?_,hwidth,?_,hincrements⟩ <;>
      simp only [credit,CreditRun.unprocessed,afterWaiting] at hbalance houtstanding hunprocessed hreported ⊢ <;>
      omega

lemma Sound.creditable_processed {delta : UInt32} (hreported : s.Reported (.processed delta))
    (hkept : s.Kept (.processed delta)) : s.Creditable (.processed delta) := by
  obtain ⟨t,ht⟩ := hkept
  have hsound := h
  have hsize := h.size_eq
  obtain ⟨⟨hnonneg,hle,hmax⟩,hbalance,houtstanding,hpadding,htoAck,hunprocessed,hincrements⟩ := h
  change (delta.toNat : ℤ) ≤ s.unprocessed at hreported
  unfold int32Max at hmax
  have hwidth : s.filter.toAck+delta.toNat < 2^31 := by
    by_contra hlarge
    -- the sum becomes negative
    have hwrapped : int32 (s.filter.toAck+delta.toNat) = s.filter.toAck+delta.toNat-2^32 :=
      int32_eq_sub (by omega) (by omega)
    have hperform := perform_waiting (s := s) delta (by rw [hwrapped]; omega)
    have heq := Except.ok.inj (hperform.symm.trans ht.performed)
    have hafter := ht.balance
    rw [← heq,hwrapped] at hafter
    simp only [credit,CreditRun.unprocessed,afterWaiting] at hafter hbalance
    omega
  refine ⟨hwidth,fun hack => ?_⟩
  have hperform := hsound.perform_ack hwidth hack
  rw [ht.performed] at hperform
  split at hperform
  · cases hperform
  · rename_i hfits
    -- the padding has been freed twice, and the window is larger than the credit
    have hafter := ht.size
    rw [Except.ok.inj hperform] at hafter
    have hwindow : (s.afterAck delta.toNat (s.filter.toAck+delta.toNat)).filter.recvWindow.getSize =
        s.filter.recvWindow.capacity-(s.filter.recvWindow.outstanding-(s.filter.toAck+delta.toNat)) := by
      unfold int32Max at hfits
      show int32 (s.filter.recvWindow.capacity-(s.filter.recvWindow.outstanding-_)) = _
      exact int32_eq (by omega) (by omega)
    rw [hwindow] at hafter
    simp only [credit,afterAck,List.sum_append,List.sum_singleton] at hafter
    rw [hsound.regular.getSize_eq] at hsize
    unfold credit at hsize
    omega

variable {capacity : UInt32}

lemma Sound.perform_ignored
    (hignored : capacity.toNat < s.filter.recvWindow.capacity ∨ 2^31 ≤ capacity.toNat) :
    s.perform (.setReceiveWindowSize capacity) = .ok s := by
  have hsame : s.filter.setReceiveWindowSize capacity.toNat = s.filter := by
    unfold FlowControlFilter.setReceiveWindowSize
    by_cases hsmall : (capacity.toNat : ℤ) < s.filter.recvWindow.capacity
    · rw [if_pos hsmall]
    · have hnone : s.filter.recvWindow.setCapacity capacity.toNat = none := by
        rw [h.regular.setCapacity_eq (not_lt.mp hsmall)]
        exact if_neg (by unfold int32Max; omega)
      rw [if_neg hsmall,hnone]
      exact ite_self _
  unfold perform
  dsimp only
  rw [hsame]

lemma Sound.perform_resize (hgrow : s.filter.recvWindow.capacity ≤ capacity.toNat)
    (hwidth : capacity.toNat < 2^31) : s.perform (.setReceiveWindowSize capacity) = .ok
      (if 0 < int32 (s.filter.toAck+(capacity.toNat-s.filter.recvWindow.capacity)) then
        s.afterResize capacity.toNat 0
          (s.filter.windowUpdates++[(capacity.toNat-s.filter.recvWindow.capacity).toNat])
      else
        s.afterResize capacity.toNat (int32 (s.filter.toAck+(capacity.toNat-s.filter.recvWindow.capacity)))
          s.filter.windowUpdates) := by
  have hnonneg := h.regular.nonneg
  have hle := h.regular.le
  have hdelta : int32 (capacity.toNat-s.filter.recvWindow.capacity) =
      capacity.toNat-s.filter.recvWindow.capacity := int32_eq (by omega) (by omega)
  unfold perform FlowControlFilter.setReceiveWindowSize
  dsimp only
  rw [if_neg (by omega),hdelta,if_neg (by omega),h.regular.setCapacity_eq hgrow,
    if_pos (by unfold int32Max; omega)]
  dsimp only
  split
  · rfl
  · rfl

lemma Sound.afterResize {capacity : ℕ} (hgrow : s.filter.recvWindow.capacity ≤ capacity) (hwidth : capacity < 2^31)
    (hzero : s.filter.toAck=0) {windowUpdates : List ℕ}
    (hsum : (windowUpdates.sum : ℤ) = (s.filter.windowUpdates.sum : ℕ)+(capacity-s.filter.recvWindow.capacity))
    (hincrements : ∀ increment ∈ windowUpdates,1 ≤ increment) :
    (s.afterResize capacity 0 windowUpdates).Sound := by
  obtain ⟨⟨hnonneg,hle,hmax⟩,hbalance,houtstanding,hpadding,-,hunprocessed,-⟩ := h
  refine ⟨⟨hnonneg,hle.trans hgrow,?_⟩,?_,?_,?_,pow_pos two_pos 31,hunprocessed,hincrements⟩ <;>
    simp only [credit,CreditRun.unprocessed,CreditRun.afterResize,int32Max] at hbalance houtstanding ⊢ <;> omega

lemma Sound.resize_kept (hcond : s.Creditable (.setReceiveWindowSize capacity)) :
    s.Kept (.setReceiveWindowSize capacity) ∧ (s.step (.setReceiveWindowSize capacity)).Sound := by
  by_cases hchange : s.filter.recvWindow.capacity ≤ capacity.toNat ∧ capacity.toNat < 2^31
  · have hzero := hcond hchange.1 hchange.2
    have hnonneg := h.regular.nonneg
    have hle := h.regular.le
    refine Sound.kept ?_ (h.perform_resize hchange.1 hchange.2) fun _ _ => nofun
    rw [hzero,zero_add,int32_eq (by omega) (by omega)]
    split_ifs with hgrow
    · refine h.afterResize hchange.1 hchange.2 hzero ?_ fun increment hincrement => ?_
      · rw [List.sum_append,List.sum_singleton]
        omega
      · rcases List.mem_append.mp hincrement with hold | hnew
        · exact h.increments increment hold
        · rw [List.mem_singleton.mp hnew]
          omega
    · rw [show (capacity.toNat : ℤ)-s.filter.recvWindow.capacity = 0 by omega]
      exact h.afterResize hchange.1 hchange.2 hzero (by omega) h.increments
  · exact h.kept (h.perform_ignored (by omega)) fun _ _ => nofun

lemma Sound.creditable_resize (hkept : s.Kept (.setReceiveWindowSize capacity)) :
    s.Creditable (.setReceiveWindowSize capacity) := by
  intro hgrow hwidth
  obtain ⟨t,ht⟩ := hkept
  have heq := Except.ok.inj ((h.perform_resize hgrow hwidth).symm.trans ht.performed)
  have hafter := ht.balance
  rw [← heq] at hafter
  have hbalance := h.balance
  have hpadding := h.padding
  have htoAck := h.toAck
  have hnonneg := h.regular.nonneg
  have hle := h.regular.le
  unfold credit CreditRun.unprocessed at hbalance hafter
  split_ifs at hafter with hack
  · -- what waited is forgotten
    simp only [CreditRun.afterResize,List.sum_append,List.sum_singleton] at hafter
    omega
  · simp only [CreditRun.afterResize] at hafter
    rcases lt_or_ge (s.filter.toAck+(capacity.toNat-s.filter.recvWindow.capacity)) (2^31) with hsmall | hlarge
    · rw [int32_eq (by omega) hsmall] at hack
      omega
    · rw [int32_eq_sub hlarge (by omega)] at hafter
      omega

end Steps

lemma Sound.step {s : CreditRun} (h : s.Sound) {e : CreditEvent} (hreported : s.Reported e) :
    (s.Kept e ↔ s.Creditable e) ∧ (s.Creditable e → (s.step e).Sound) := by
  cases e with
  | body length padding => exact ⟨⟨h.creditable_body,fun hc => (h.body_kept hc).1⟩,fun hc => (h.body_kept hc).2⟩
  | processed delta =>
    exact ⟨⟨h.creditable_processed hreported,fun hc => (h.processed_kept hreported hc).1⟩,
      fun hc => (h.processed_kept hreported hc).2⟩
  | setReceiveWindowSize capacity =>
    exact ⟨⟨h.creditable_resize,fun hc => (h.resize_kept hc).1⟩,fun hc => (h.resize_kept hc).2⟩

lemma sound_init {recvCapacity : ℕ} {filter : FlowControlFilter}
    (hinit : FlowControlFilter.init recvCapacity = .ok filter) : Sound {filter} := by
  have hdefault : Window.setCapacity {} kInitialWindow = some ⟨kInitialWindow,0⟩ := by decide
  have hregular : Window.Regular ⟨kInitialWindow,0⟩ := ⟨le_rfl,by decide,by decide⟩
  unfold FlowControlFilter.init at hinit
  rw [hdefault] at hinit
  change (if kInitialWindow < recvCapacity then _ else _) = _ at hinit
  split at hinit
  · rename_i hlarge
    rw [hregular.setCapacity_eq (by dsimp only; omega)] at hinit
    split at hinit
    · rename_i hwidth
      obtain rfl := Except.ok.inj hinit
      have hzero : Sound {filter := {recvWindow := ⟨kInitialWindow,0⟩}} :=
        ⟨hregular,by decide,by decide,by decide,by decide,by decide,by decide⟩
      unfold int32Max at hwidth
      have hgrow : (kInitialWindow : ℤ) ≤ (recvCapacity : ℕ) := by omega
      refine hzero.afterResize hgrow (by omega) rfl ?_ ?_
      · show (([recvCapacity-kInitialWindow] : List ℕ).sum : ℤ) = (([] : List ℕ).sum : ℕ)+(recvCapacity-kInitialWindow)
        simp only [List.sum_singleton,List.sum_nil]
        omega
      · intro increment hincrement
        rw [List.mem_singleton.mp hincrement]
        omega
    · cases hinit
  · obtain rfl := Except.ok.inj hinit
    exact ⟨hregular,by decide,by decide,by decide,by decide,by decide,by decide⟩

/-- Whatever the run, the account is kept by every call exactly if every call is one the filter can account for. -/
theorem receive_credit_iff (recvCapacity : ℕ) (filter : FlowControlFilter)
    (hinit : FlowControlFilter.init recvCapacity = .ok filter) (events : List CreditEvent)
    (hreported : Run.EveryStep step Reported {filter} events) :
    Run.EveryStep step Kept {filter} events ↔ Run.EveryStep step Creditable {filter} events :=
  Run.everyStep_congr_given (sound_init hinit) hreported fun _ ht _ _ hrep => ht.step hrep

theorem receive_credit_kept_padded :
    ∃ filter,FlowControlFilter.init 100000 = .ok filter ∧
      Run.EveryStep step Kept {filter} [.body 60000 0,.processed 60000,.body 7 9,.processed 7] := by
  refine ⟨_,rfl,(receive_credit_iff 100000 _ rfl _ ?_).mpr ?_⟩
  · decide +kernel
  · decide +kernel

/-- A change of the window forgets what waited to be acknowledged, and announces an increment of 0; an update
after padding makes the window larger than what the peer has been granted. -/
theorem receive_credit_lost :
    let start : CreditRun := {filter := {recvWindow := ⟨65535,0⟩}}
    let resized := Run.run step start [.body 10 0,.processed 10,.setReceiveWindowSize 65535]
    let padded := Run.run step start [.body 100 100,.body 32768 0,.processed 32868]
    FlowControlFilter.init 0 = .ok start.filter ∧
      resized.filter.windowUpdates = [0] ∧ resized.filter.recvWindow.capacity=65535 ∧
      resized.credit+resized.filter.toAck+resized.unprocessed = 65525 ∧
      padded.filter.recvWindow.getSize = 65635 ∧ padded.credit+padded.filter.toAck = 65535 := by
  decide +kernel

end CreditRun

end QuicWestwood.HTTP2
