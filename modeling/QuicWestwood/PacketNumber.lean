import QuicWestwood.PacketTypes

/-! A packet carries the low one to four bytes of its number. The receiver takes the number with these low bytes
that is closest to the number it expects next. -/
namespace QuicWestwood
open UInt64

/-- `folly::findLastSet`: the place of the highest set bit, counted from one. -/
def findLastSet (x : UInt64) : ℕ := if x=0 then 0 else x.toNat.log2+1

structure PacketNumEncodingResult where
  result : UInt64
  /-- in bytes -/
  length : ℕ
  deriving DecidableEq

def encodePacketNumber (packetNum largestAckedPacketNum : UInt64) : Except Failure PacketNumEncodingResult :=
  let twiceDistance := (packetNum-largestAckedPacketNum)*2
  let lengthInBits := findLastSet twiceDistance
  let lengthInBytes := if lengthInBits=0 then 1 else (lengthInBits+7) >>> 3
  if 4<lengthInBytes then
    .error (.quicInternalException
      s!"Impossible to encode PacketNum={packetNum}, largestAcked={largestAckedPacketNum}" .packetNumberEncoding)
  else
    let mask := (1 : UInt64) <<< UInt64.ofNat (lengthInBytes*8)-1
    .ok ⟨packetNum &&& mask,lengthInBytes⟩

def decodePacketNumber (encodedPacketNum : UInt64) (packetNumBytes : ℕ) (expectedNextPacketNum : UInt64) :
    Except Failure UInt64 := do
  check (packetNumBytes≤4)
  let packetNumBits := 8*packetNumBytes
  let packetNumWin := (1 : UInt64) <<< UInt64.ofNat packetNumBits
  let packetNumHalfWin := packetNumWin >>> 1
  let mask := packetNumWin-1
  let candidate := (expectedNextPacketNum &&& ~~~mask) ||| encodedPacketNum
  if packetNumHalfWin<expectedNextPacketNum ∧ candidate ≤ expectedNextPacketNum-packetNumHalfWin ∧
      candidate < ((1 : UInt64) <<< 62)-packetNumWin then
    return candidate+packetNumWin
  else if expectedNextPacketNum+packetNumHalfWin < candidate ∧ packetNumWin ≤ candidate then
    return candidate-packetNumWin
  else return candidate

lemma findLastSet_le_iff {x : UInt64} {n : ℕ} : findLastSet x ≤ n ↔ x.toNat < 2^n := by
  unfold findLastSet
  split_ifs with hzero
  · simp [hzero]
  · have hne : x.toNat≠0 := fun h => hzero (UInt64.toNat_inj.mp h)
    rw [Nat.succ_le_iff,Nat.log2_lt hne]

lemma toNat_win {bytes : ℕ} (h : bytes≤4) :
    ((1 : UInt64) <<< ofNat (8*bytes)).toNat = 2^(8*bytes) := by
  interval_cases bytes <;> rfl

lemma and_not_mask (x : ℕ) {b : ℕ} (hb : b≤64) (hx : x < 2^64) :
    x &&& (2^64-1-(2^b-1)) = 2^b*(x/2^b) := by
  have hle : 2^b ≤ 2^64 := Nat.pow_le_pow_right (by omega) hb
  have hpos := Nat.two_pow_pos b
  have hmask : 2^64-1-(2^b-1) = 2^64-((2^b-1)+1) := by omega
  apply Nat.eq_of_testBit_eq
  intro i
  rw [Nat.testBit_and,hmask,Nat.testBit_two_pow_sub_succ (by omega),Nat.testBit_two_pow_sub_one,
    Nat.testBit_two_pow_mul,Nat.testBit_div_two_pow]
  by_cases hi : b ≤ i
  · by_cases hbig : i<64
    · simp [hi,hbig,Nat.not_lt.mpr hi,Nat.sub_add_cancel hi]
    · have hout : x.testBit i = false :=
        Nat.testBit_lt_two_pow (hx.trans_le (Nat.pow_le_pow_right (by omega) (by omega)))
      simp [hi,Nat.sub_add_cancel hi,hout]
  · simp [hi,Nat.lt_of_not_le hi]

lemma toNat_candidate {x e win : UInt64} {b : ℕ} (hb : b≤64) (hwin : win.toNat = 2^b) (he : e.toNat < 2^b) :
    ((x &&& ~~~(win-1)) ||| e).toNat = 2^b*(x.toNat/2^b)+e.toNat := by
  have hpos := Nat.two_pow_pos b
  have hmask : (win-1).toNat = 2^b-1 := by
    rw [UInt64.toNat_sub_of_le _ _ (by rw [UInt64.le_iff_toNat_le,hwin]; exact hpos),hwin]
    rfl
  rw [UInt64.toNat_or,UInt64.toNat_and,UInt64.toNat_not,hmask]
  rw [show UInt64.size-1-(2^b-1) = 2^64-1-(2^b-1) from rfl,and_not_mask _ hb x.toNat_lt,
    Nat.two_pow_add_eq_or_of_lt he]

/-- The length holds twice the distance, and a distance of at least `2 ^ 31` has no length. -/
lemma encodePacketNumber_spec {packetNum largestAcked : UInt64} (hle : largestAcked≤packetNum)
    (hpn : packetNum.toNat < 2^62) :
    (packetNum.toNat-largestAcked.toNat < 2^31 ∧
      ∃ r,encodePacketNumber packetNum largestAcked = .ok r ∧ 1 ≤ r.length ∧ r.length≤4 ∧
        r.result.toNat = packetNum.toNat % 2^(8*r.length) ∧
        2*(packetNum.toNat-largestAcked.toNat) < 2^(8*r.length)) ∨
    (2^31 ≤ packetNum.toNat-largestAcked.toNat ∧
      ∃ e,encodePacketNumber packetNum largestAcked = .error e) := by
  have htwice : ((packetNum-largestAcked)*2).toNat = 2*(packetNum.toNat-largestAcked.toNat) := by
    rw [UInt64.toNat_mul,UInt64.toNat_sub_of_le _ _ hle,Nat.mod_eq_of_lt,Nat.mul_comm]
    · rfl
    · simp only [reduceToNat]
      omega
  unfold encodePacketNumber
  dsimp only
  generalize hbits : findLastSet ((packetNum-largestAcked)*2) = bits
  have hbound : ∀ n,bits ≤ n ↔ 2*(packetNum.toNat-largestAcked.toNat) < 2^n := by
    intro n
    rw [← hbits,findLastSet_le_iff,htwice]
  generalize hbytes : (if bits=0 then 1 else (bits+7) >>> 3) = bytes
  have hcover : bits ≤ 8*bytes ∧ 1≤bytes ∧ (bytes≤4 ↔ bits≤32) := by
    rw [Nat.shiftRight_eq_div_pow] at hbytes
    split_ifs at hbytes <;> omega
  have hfits := hbound 32
  by_cases hlength : bytes≤4
  · have hwin := toNat_win hlength
    have hmask : ((1 : UInt64) <<< UInt64.ofNat (8*bytes)-1).toNat = 2^(8*bytes)-1 := by
      rw [UInt64.toNat_sub_of_le _ _ (by rw [UInt64.le_iff_toNat_le,hwin]; exact Nat.two_pow_pos _),hwin]
      rfl
    rw [if_neg (by omega),Nat.mul_comm]
    refine .inl ⟨by omega,_,rfl,hcover.2.1,hlength,?_,(hbound _).mp hcover.1⟩
    rw [UInt64.toNat_and,hmask,Nat.and_two_pow_sub_one_eq_mod]
  · rw [if_pos (by omega)]
    exact .inr ⟨by omega,_,rfl⟩

lemma window_cases {half pn x : ℕ} (hhalf : 0<half) (hlow : pn < x+half) (hhigh : x < pn+half) :
    2*half*(x/(2*half))+pn % (2*half) = pn ∨ 2*half*(x/(2*half))+pn % (2*half)+2*half = pn ∨
      2*half*(x/(2*half))+pn % (2*half) = pn+2*half := by
  have hpn := Nat.div_add_mod pn (2*half)
  have habove : pn/(2*half) ≤ x/(2*half)+1 := by
    rw [← Nat.add_div_right _ (by omega)]
    exact Nat.div_le_div_right (by omega)
  have hbelow : x/(2*half) ≤ pn/(2*half)+1 := by
    rw [← Nat.add_div_right _ (by omega)]
    exact Nat.div_le_div_right (by omega)
  obtain heq | heq | heq : x/(2*half) = pn/(2*half) ∨ x/(2*half)+1 = pn/(2*half) ∨
      x/(2*half) = pn/(2*half)+1 := by omega
  · rw [heq]
    omega
  · rw [← heq,Nat.mul_succ] at hpn
    omega
  · rw [heq,Nat.mul_succ]
    omega

lemma decodePacketNumber_eq {packetNum encoded expected : UInt64} {bytes : ℕ} (hpos : 1≤bytes) (hbytes : bytes≤4)
    (hpn : packetNum.toNat < 2^62) (hencoded : encoded.toNat = packetNum.toNat % 2^(8*bytes))
    (hlow : packetNum.toNat < expected.toNat+2^(8*bytes-1))
    (hhigh : expected.toNat < packetNum.toNat+2^(8*bytes-1)) :
    decodePacketNumber encoded bytes expected = .ok packetNum := by
  have hwin := toNat_win hbytes
  have hle : 2^(8*bytes) ≤ 2^32 := Nat.pow_le_pow_right (by omega) (by omega)
  have hdouble : 2^(8*bytes) = 2*2^(8*bytes-1) := by
    rw [← pow_succ',Nat.sub_add_cancel (by omega)]
  have hhalf := Nat.two_pow_pos (8*bytes-1)
  have hcandidate := toNat_candidate (x := expected) (by omega) hwin
    (show encoded.toNat < 2^(8*bytes) by rw [hencoded]; exact Nat.mod_lt _ (by omega))
  have hcases := window_cases hhalf hlow hhigh
  rw [hencoded] at hcandidate
  unfold decodePacketNumber
  rw [show check (decide (bytes≤4)) = .ok () by simp [hbytes]]
  dsimp only [bind,Except.bind,pure,Except.pure]
  generalize (1 : UInt64) <<< ofNat (8*bytes) = win at hwin hcandidate ⊢
  generalize (expected &&& ~~~(win-1)) ||| encoded = candidate at hcandidate ⊢
  rw [← hdouble,← hcandidate] at hcases
  have hhalfwin : (win >>> 1).toNat = 2^(8*bytes-1) := by
    rw [UInt64.toNat_shiftRight,hwin,hdouble]
    simp [Nat.shiftRight_eq_div_pow]
  generalize win >>> 1 = half at hhalfwin ⊢
  have hbig : ((1 : UInt64) <<< 62-win).toNat = 2^62-2^(8*bytes) := by
    rw [UInt64.toNat_sub_of_le _ _ (by rw [UInt64.le_iff_toNat_le,hwin]; exact hle.trans (by decide)),hwin]
    rfl
  have hsum : (expected+half).toNat = expected.toNat+2^(8*bytes-1) := by
    rw [UInt64.toNat_add,hhalfwin,Nat.mod_eq_of_lt (by omega)]
  have hdiff : half<expected → (expected-half).toNat = expected.toNat-2^(8*bytes-1) := by
    intro h
    rw [UInt64.toNat_sub_of_le _ _ (UInt64.le_of_lt h),hhalfwin]
  obtain hsame | hnext | hbefore := hcases
  · rw [if_neg,if_neg]
    · rw [UInt64.toNat_inj.mp hsame]
    · rintro ⟨habove,-⟩
      rw [lt_iff_toNat_lt,hsum] at habove
      omega
    · rintro ⟨hlarge,hbelow,-⟩
      rw [le_iff_toNat_le,hdiff hlarge] at hbelow
      rw [lt_iff_toNat_lt] at hlarge
      omega
  · have hlarge : half<expected := by
      rw [lt_iff_toNat_lt]
      omega
    rw [if_pos]
    · refine congrArg _ (UInt64.toNat_inj.mp ?_)
      rw [UInt64.toNat_add,hwin,Nat.mod_eq_of_lt (by omega),hnext]
    · rw [UInt64.le_iff_toNat_le,hdiff hlarge,UInt64.lt_iff_toNat_lt (b := _-win),hbig]
      exact ⟨hlarge,by omega,by omega⟩
  · rw [if_neg,if_pos]
    · refine congrArg _ (UInt64.toNat_inj.mp ?_)
      rw [UInt64.toNat_sub_of_le _ _ (by rw [UInt64.le_iff_toNat_le]; omega),hwin]
      omega
    · rw [lt_iff_toNat_lt,le_iff_toNat_le,hsum]
      omega
    · rintro ⟨hlarge,hbelow,-⟩
      rw [le_iff_toNat_le,hdiff hlarge] at hbelow
      omega

/-- Every packet number is restored from what the encoder leaves of it by a peer that expects a number between the
largest one acked and half a window above the packet; the encoder throws if no four bytes suffice. -/
theorem packetNumber_roundTrip (packetNum largestAcked : UInt64) (hle : largestAcked≤packetNum)
    (hpn : packetNum.toNat < 2^62) :
    (packetNum.toNat-largestAcked.toNat < 2^31 →
      ∃ r,encodePacketNumber packetNum largestAcked = .ok r ∧ 1 ≤ r.length ∧ r.length≤4 ∧
        ∀ expected,largestAcked ≤ expected → expected.toNat < packetNum.toNat+2^(8*r.length-1) →
          decodePacketNumber r.result r.length expected = .ok packetNum) ∧
    ((∃ e,encodePacketNumber packetNum largestAcked = .error e) ↔
      2^31 ≤ packetNum.toNat-largestAcked.toNat) := by
  obtain ⟨hnear,r,hr,hone,hfour,hresult,htwice⟩ | ⟨hfar,e,he⟩ := encodePacketNumber_spec hle hpn
  · refine ⟨fun _ => ⟨r,hr,hone,hfour,fun expected hlow hhigh => ?_⟩,?_⟩
    · apply decodePacketNumber_eq hone hfour hpn hresult _ hhigh
      have hdouble : 2^(8*r.length) = 2*2^(8*r.length-1) := by
        rw [← pow_succ',Nat.sub_add_cancel (by omega)]
      rw [UInt64.le_iff_toNat_le] at hlow
      omega
    · simp only [hr,reduceCtorEq,exists_false,false_iff]
      omega
  · refine ⟨fun hnear => by omega,fun _ => hfar,fun _ => ⟨e,he⟩⟩

theorem packetNumber_roundTrip_four_bytes :
    ∃ r,encodePacketNumber 4611686018427387903 4611686016279904256 = .ok r ∧ 1 ≤ r.length ∧ r.length≤4 ∧
      ∀ expected,4611686016279904256 ≤ expected →
        expected.toNat < (4611686018427387903 : UInt64).toNat+2^(8*r.length-1) →
        decodePacketNumber r.result r.length expected = .ok 4611686018427387903 :=
  (packetNumber_roundTrip 4611686018427387903 4611686016279904256 (by decide) (by decide)).1 (by decide)

end QuicWestwood
