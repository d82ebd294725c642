import QuicWestwood.ReflectedSum
import QuicWestwood.WestwoodOWD

/-! `updateOneWayDelay` converts each send gap to whole microseconds and drops the rest. The running delay is
therefore the reflected sum of the true delays plus the drift of the dropped remainders, and it stays near the
true excess delay exactly as long as that drift does. Delays are compared in nanoseconds. -/
namespace QuicWestwood.WestwoodOWD
open ReflectedSum

/-- The controller after the packets `p 0, …, p k`, received at `r 0, …, r k`. -/
def fed (w : WestwoodOWD) (p : ℕ → AckPacket) (r : ℕ → ℤ) : ℕ → WestwoodOWD
  | 0 => w.updateOneWayDelay {p 0 with receiveRelativeTimeStampUsec := some (r 0)}
  | k+1 =>
    (fed w p r k).updateOneWayDelay {p (k+1) with receiveRelativeTimeStampUsec := some (r (k+1))}

/-- The one-way delay `r - s / 1000` of a packet, in nanoseconds. -/
def delayNs (p : ℕ → AckPacket) (r : ℕ → ℤ) (k : ℕ) : ℤ := 1000*r k-(p k).time

/-- The nanoseconds of the send gaps up to packet `k` that the conversion has dropped. -/
def drift (p : ℕ → AckPacket) (k : ℕ) : ℤ :=
  ∑ i ∈ Finset.range k, ((p (i+1)).time-(p i).time).tmod 1000

section
variable {w : WestwoodOWD} {p : ℕ → AckPacket} (r : ℕ → ℤ)

lemma drift_succ (k : ℕ) :
    drift p (k+1) = drift p k+((p (k+1)).time-(p k).time).tmod 1000 :=
  Finset.sum_range_succ _ _

lemma fed_latest (hw : w.isFirstPacket=true) (hp : ∀ j,(p j).time≠timePointMin) (k : ℕ) :
    (fed w p r k).latestSendTimeStamp = (p k).time ∧ (fed w p r k).latestReceiveTimeStamp = r k := by
  induction k with
  | zero => simp [fed,updateOneWayDelay,hw,AckPacket.time]
  | succ k ih =>
    have hne : (fed w p r k).isFirstPacket = false := by simp [isFirstPacket,ih.1,hp k]
    simp [fed,updateOneWayDelay,hne,AckPacket.time]

/-- The running delay is the reflected sum of the true delays and the drift. -/
theorem fed_owd (hw : w.isFirstPacket=true) (howd : w.owd=0)
    (hp : ∀ j,(p j).time≠timePointMin) (k : ℕ) :
    1000*(fed w p r k).owd = excess (fun i => delayNs p r i+drift p i) k := by
  induction k with
  | zero => simp [fed,updateOneWayDelay,hw,howd]
  | succ k ih =>
    obtain ⟨hsend,hrecv⟩ := fed_latest r hw hp k
    have hne : (fed w p r k).isFirstPacket = false := by simp [isFirstPacket,hsend,hp k]
    have hgap := Int.mul_tdiv_add_tmod ((p (k+1)).time-(p k).time) 1000
    have hstep : (fed w p r (k+1)).owd = max 0 ((fed w p r k).owd +
        (r (k+1)-r k-((p (k+1)).time-(p k).time).tdiv 1000)) := by
      simp [fed,updateOneWayDelay,hne,hsend,hrecv,AckPacket.time]
    rw [hstep,excess_succ,← ih,drift_succ]
    simp only [delayNs]
    omega

lemma fed_rttSampler (k : ℕ) : (fed w p r k).rttSampler = w.rttSampler := by
  induction k with
  | zero => simp [fed]
  | succ k ih => simp [fed,ih]

lemma fed_lossMaxRtt (k : ℕ) : (fed w p r k).lossMaxRtt = w.lossMaxRtt := by
  induction k with
  | zero => simp [fed]
  | succ k ih => simp [fed,ih]

/-- Receive times under which packet `j` has by far the least delay of all up to `k`:
both sums then have their minimum at `j`. -/
lemma exists_least_delay (p : ℕ → AckPacket) {j k : ℕ} (hj : j≤k) :
    ∃ r : ℕ → ℤ,∀ i ≤ k,delayNs p r j ≤ delayNs p r i ∧
      delayNs p r j+drift p j ≤ delayNs p r i+drift p i := by
  let spread (i : ℕ) : ℤ := |(p i).time-(p j).time|+|drift p i-drift p j|
  have hpos : ∀ i,0 ≤ spread i := fun i => add_nonneg (abs_nonneg _) (abs_nonneg _)
  refine ⟨fun i => if i=j then 0 else ∑ m ∈ Finset.range (k+1),spread m,fun i hi => ?_⟩
  rcases eq_or_ne i j with rfl | hne
  · simp
  · have hle : spread i ≤ ∑ m ∈ Finset.range (k+1), spread m :=
      Finset.single_le_sum (fun m _ => hpos m) (Finset.mem_range.mpr (by omega))
    have hi₀ := hpos i
    have ht := le_abs_self ((p i).time-(p j).time)
    have hd := neg_abs_le (drift p i-drift p j)
    have hd₀ := abs_nonneg (drift p i-drift p j)
    simp only [delayNs,if_neg hne,if_true]
    simp only [spread] at hle hi₀
    constructor <;> linarith

end

/-- Whatever the receive times, the running delay stays within 2 µs of the true excess
delay exactly if the dropped nanoseconds between any two packets sum to at most 2 µs.
In that case equal delays leave it at 3 µs at most, too little for the delay control of
a path with a range of 4 µs or more. -/
theorem owd_error_bounded_iff (w : WestwoodOWD) (hw : w.isFirstPacket=true) (howd : w.owd=0)
    (p : ℕ → AckPacket) (hp : ∀ j,(p j).time≠timePointMin) :
    ((∀ r k,|1000*(fed w p r k).owd-excess (delayNs p r) k| ≤ 2000) ↔
      ∀ k,∀ j ≤ k,|drift p k-drift p j| ≤ 2000) ∧ ((∀ k,∀ j ≤ k,|drift p k-drift p j| ≤ 2000) →
      ∀ r,(∀ i j,|delayNs p r i-delayNs p r j| ≤ 1000) → ∀ k,(fed w p r k).owd ≤ 3 ∧
        ∀ undef,4 ≤ u64 w.lossMaxRtt-u64 w.rttSampler.minRtt →
          (fed w p r k).delayControl (.exact undef) = false) := by
  have hcancel : ∀ r j k,delayNs p r k+drift p k-(delayNs p r j+drift p j) -
      (delayNs p r k-delayNs p r j) = drift p k-drift p j := fun r j k => by ring
  have hclose : (∀ k,∀ j ≤ k,|drift p k-drift p j| ≤ 2000) →
      ∀ r k,|1000*(fed w p r k).owd-excess (delayNs p r) k| ≤ 2000 := by
    intro hdrift r k
    rw [fed_owd r hw howd hp]
    exact abs_excess_sub_le fun j hj => by simpa only [hcancel] using hdrift k j hj
  refine ⟨⟨fun hall k j hj => ?_,hclose⟩,fun hdrift r hconst k => ?_⟩
  · obtain ⟨r,hleast⟩ := exists_least_delay p hj
    have herr := hall r k
    rw [fed_owd r hw howd hp,excess_of_isLeast hj fun i hi => (hleast i hi).2,
      excess_of_isLeast hj fun i hi => (hleast i hi).1] at herr
    rwa [hcancel] at herr
  · have herr := abs_le.mp (hclose hdrift r k)
    have hexc := excess_le fun j _ => (le_abs_self _).trans (hconst k j)
    have howd3 : (fed w p r k).owd ≤ 3 := by omega
    refine ⟨howd3,fun undef hrange => ?_⟩
    simp only [delayControl,fed_rttSampler,fed_lossMaxRtt,DelayFloatUnit.exact]
    split_ifs
    · rfl
    · simp only [Bool.and_eq_false_iff,decide_eq_false_iff_not]
      right
      omega

def freshController : WestwoodOWD := (construct (fun _ => 0) {} 0).cc

def sentEvery (gap : ℤ) (j : ℕ) : AckPacket where
  packetNum := j
  outstandingPacketMetadata := {time := gap*j, encodedSize := 1232}

lemma drift_sentEvery (gap : ℤ) (k : ℕ) : drift (sentEvery gap) k = gap.tmod 1000*k := by
  induction k with
  | zero => simp [drift]
  | succ k ih =>
    have hgap : (sentEvery gap (k+1)).time-(sentEvery gap k).time = gap := by
      simp only [sentEvery,AckPacket.time]
      push_cast
      ring
    rw [drift_succ,ih,hgap]
    push_cast
    ring

lemma sentEvery_ne {gap : ℤ} (h : 0≤gap) (j : ℕ) : (sentEvery gap j).time≠timePointMin := by
  have : 0 ≤ gap*j := mul_nonneg h (Int.natCast_nonneg j)
  simp only [sentEvery,AckPacket.time,timePointMin]
  omega

theorem owd_error_bounded_every_milli :
    freshController.isFirstPacket = true ∧ freshController.owd=0 ∧
      ∀ r k,|1000*(fed freshController (sentEvery 1000000) r k).owd -
        excess (delayNs (sentEvery 1000000) r) k| ≤ 2000 := by
  refine ⟨rfl,rfl,?_⟩
  refine (owd_error_bounded_iff freshController rfl rfl _ (sentEvery_ne (by norm_num))).1.mpr ?_
  intro k j _
  simp [drift_sentEvery]

/-- Packets sent every 1999 ns that all take the same time, up to 1 µs, and a running
delay that grows without bound: 999 ns are lost with every packet. -/
theorem equal_delays_drift :
    let p := sentEvery 1999
    let r : ℕ → ℤ := fun j => 1999*j/1000
    (∀ i j,|delayNs p r i-delayNs p r j| ≤ 1000) ∧
      ¬ |1000*(fed freshController p r 4).owd-excess (delayNs p r) 4| ≤ 2000 ∧
      ∀ N,∃ k,N < (fed freshController p r k).owd := by
  intro p r
  have hdelay : ∀ j,delayNs p r j = -(1999*j % 1000) := by
    intro j
    simp only [delayNs,p,sentEvery,AckPacket.time,r]
    omega
  refine ⟨fun i j => ?_,by decide,fun N => ⟨2*N.toNat+10,?_⟩⟩
  · rw [hdelay,hdelay,abs_le]
    omega
  · have hle := le_excess (fun i => delayNs p r i+drift p i) (Nat.zero_le (2*N.toNat+10))
    rw [← fed_owd (w := freshController) (p := p) r rfl rfl (sentEvery_ne (by norm_num))] at hle
    have hdrift : ∀ k,drift p k = 999*k := drift_sentEvery 1999
    simp only [hdelay,hdrift] at hle
    push_cast at hle
    omega

end QuicWestwood.WestwoodOWD
