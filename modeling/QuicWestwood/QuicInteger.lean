import QuicWestwood.ByteCodec
import QuicWestwood.PacketTypes

/-! Variable-length integers: the two high bits of the first byte give the length: 1, 2, 4 or 8 bytes. -/
namespace QuicWestwood
open ByteCodec

def kOneByteLimit : ℕ := 0x3F
def kTwoByteLimit : ℕ := 0x3FFF
def kFourByteLimit : ℕ := 0x3FFFFFFF
def kEightByteLimit : ℕ := 0x3FFFFFFFFFFFFFFF

def encodeQuicInteger (value : ℕ) : Except TransportErrorCode Bytes :=
  if value≤kOneByteLimit then .ok (bigEndian 1 value)
  else if value≤kTwoByteLimit then .ok (bigEndian 2 (value % 2^16 ||| 0x4000))
  else if value≤kFourByteLimit then .ok (bigEndian 4 (value % 2^32 ||| 0x80000000))
  else if value≤kEightByteLimit then .ok (bigEndian 8 (value ||| 0xC000000000000000))
  else .error .internalError

/-- The value and what is left after it; nothing is consumed on failure. -/
def decodeQuicInteger (bytes : Bytes) : Option (ℕ × Bytes) :=
  match bytes with
  | [] => none
  | firstByte::rest =>
    let varintType := firstByte.toNat/2^6
    if varintType=0 then some (firstByte.toNat % 2^6,rest)
    else
      let bytesExpected := 2^varintType
      if bytes.length<bytesExpected then none
      else some (ofBigEndian (bytes.take bytesExpected) % 2^(8*bytesExpected-2),bytes.drop bytesExpected)

def getQuicIntegerSize (value : ℕ) : Except TransportErrorCode ℕ :=
  if value≤kOneByteLimit then .ok 1
  else if value≤kTwoByteLimit then .ok 2
  else if value≤kFourByteLimit then .ok 4
  else if value≤kEightByteLimit then .ok 8
  else .error .internalError

def getQuicIntegerSizeThrows (value : ℕ) : Except Failure ℕ :=
  match getQuicIntegerSize value with
  | .ok size => .ok size
  | .error code =>
    .error (.quicTransportException {message := s!"Value too large: {value}", code})

/-- The encoding as a total function; `[]` stands for the values that have none. -/
def quicInteger (value : ℕ) : Bytes := (encodeQuicInteger value).toOption.getD []

lemma decodeQuicInteger_tagged {k v : ℕ} (hk : k ∈ [1,2,3]) (hv : v < 2^(8*2^k-2))
    (rest : Bytes) :
    decodeQuicInteger (bigEndian (2^k) (k*2^(8*2^k-2)+v)++rest) = some (v,rest) := by
  have hn : 2^k = 2^k-1+1 := (Nat.sub_add_cancel Nat.one_le_two_pow).symm
  have htag : (UInt8.ofNat ((k*2^(8*2^k-2)+v)/256^(2^k-1))).toNat/2^6 = k := by
    rw [UInt8.toNat_ofNat']
    fin_cases hk <;> norm_num at hv ⊢ <;> omega
  have hval : (k*2^(8*2^k-2)+v) % 256^2^k % 2^(8*2^k-2) = v := by
    fin_cases hk <;> norm_num at hv ⊢ <;> omega
  have hcons : bigEndian (2^k) (k*2^(8*2^k-2)+v) = UInt8.ofNat ((k*2^(8*2^k-2)+v)/256^(2^k-1)) ::
        bigEndian (2^k-1) (k*2^(8*2^k-2)+v) := by
    rw [hn,bigEndian,Nat.add_sub_cancel,← hn]
  have hk0 : k≠0 := by rintro rfl; simp at hk
  have htake : (bigEndian (2^k) (k*2^(8*2^k-2)+v)++rest).take (2^k) =
      bigEndian (2^k) (k*2^(8*2^k-2)+v) := List.take_left' (bigEndian_length _ _)
  have hdrop : (bigEndian (2^k) (k*2^(8*2^k-2)+v)++rest).drop (2^k) = rest :=
    List.drop_left' (bigEndian_length _ _)
  rw [hcons] at htake hdrop ⊢
  simp only [List.cons_append,decodeQuicInteger,htag,if_neg hk0] at htake hdrop ⊢
  rw [htake,hdrop,← hcons,ofBigEndian_bigEndian,hval,if_neg]
  simp only [List.length_cons,List.length_append,bigEndian_length]
  omega

lemma or_tag {v w k : ℕ} (h : v < 2^w) : v ||| k*2^w = k*2^w+v := by
  rw [Nat.lor_comm,Nat.mul_comm,Nat.two_pow_add_eq_or_of_lt h]

lemma encodeQuicInteger_cases {v : ℕ} (h : v≤kEightByteLimit) :
    (v < 2^6 ∧ encodeQuicInteger v = .ok [UInt8.ofNat v]) ∨ ∃ k ∈ [1,2,3], v < 2^(8*2^k-2) ∧
        encodeQuicInteger v = .ok (bigEndian (2^k) (k*2^(8*2^k-2)+v)) := by
  unfold encodeQuicInteger
  rw [if_pos h]
  unfold kEightByteLimit at h
  split_ifs with h₁ h₂ h₃
  · exact .inl ⟨by unfold kOneByteLimit at h₁; omega,by simp [bigEndian]⟩
  · unfold kTwoByteLimit at h₂
    refine .inr ⟨1,by simp,by norm_num; omega,?_⟩
    rw [Nat.mod_eq_of_lt (by omega),← or_tag (by norm_num; omega)]
    norm_num
  · unfold kFourByteLimit at h₃
    refine .inr ⟨2,by simp,by norm_num; omega,?_⟩
    rw [Nat.mod_eq_of_lt (by omega),← or_tag (by norm_num; omega)]
    norm_num
  · refine .inr ⟨3,by simp,by norm_num; omega,?_⟩
    rw [← or_tag (by norm_num; omega)]
    norm_num

/-- Every value below `2 ^ 62` has an encoding of 1 to 8 bytes that is read back. -/
theorem quicInteger_spec {v : ℕ} (h : v≤kEightByteLimit) :
    encodeQuicInteger v = .ok (quicInteger v) ∧
      (∀ rest,decodeQuicInteger (quicInteger v++rest) = some (v,rest)) ∧
      1 ≤ (quicInteger v).length ∧ (quicInteger v).length ≤ 8 := by
  unfold quicInteger
  obtain ⟨hv,he⟩ | ⟨k,hk,hv,he⟩ := encodeQuicInteger_cases h
  · rw [he]
    refine ⟨rfl,fun rest => ?_,le_rfl,by norm_num [Except.toOption]⟩
    have hb : (UInt8.ofNat v).toNat = v := by rw [UInt8.toNat_ofNat']; omega
    simp only [Except.toOption,Option.getD_some,List.cons_append,List.nil_append,decodeQuicInteger,hb]
    rw [if_pos (Nat.div_eq_of_lt hv),Nat.mod_eq_of_lt hv]
  · rw [he]
    refine ⟨rfl,decodeQuicInteger_tagged hk hv,?_⟩
    simp only [Except.toOption,Option.getD_some,bigEndian_length]
    fin_cases hk <;> norm_num

lemma encodeQuicInteger_eq_error {v : ℕ} (h : kEightByteLimit<v) :
    encodeQuicInteger v = .error .internalError := by
  unfold encodeQuicInteger kOneByteLimit kTwoByteLimit kFourByteLimit
  unfold kEightByteLimit at *
  rw [if_neg (by omega),if_neg (by omega),if_neg (by omega),if_neg (by omega)]

lemma getQuicIntegerSize_eq (v : ℕ) :
    getQuicIntegerSize v = (encodeQuicInteger v).map List.length := by
  unfold getQuicIntegerSize encodeQuicInteger
  split_ifs <;> simp [Except.map]

lemma length_quicInteger (v : ℕ) :
    (quicInteger v).length = (getQuicIntegerSize v).toOption.getD 0 := by
  rw [quicInteger,getQuicIntegerSize_eq]
  cases encodeQuicInteger v <;> rfl

lemma getQuicIntegerSize_eq_ok {v size : ℕ} :
    getQuicIntegerSize v = .ok size ↔ v≤kEightByteLimit ∧ size = (quicInteger v).length := by
  rw [getQuicIntegerSize_eq]
  rcases le_or_gt v kEightByteLimit with h | h
  · rw [(quicInteger_spec h).1]
    simp [Except.map,h,eq_comm]
  · rw [encodeQuicInteger_eq_error h]
    simp [Except.map,h]

lemma getQuicIntegerSizeThrows_eq_ok {v size : ℕ} :
    getQuicIntegerSizeThrows v = .ok size ↔ v≤kEightByteLimit ∧ size = (quicInteger v).length := by
  rw [← getQuicIntegerSize_eq_ok,getQuicIntegerSizeThrows]
  cases getQuicIntegerSize v <;> simp

lemma length_quicInteger_mono {v w : ℕ} (h : v≤w) (hw : w≤kEightByteLimit) :
    (quicInteger v).length ≤ (quicInteger w).length := by
  rw [length_quicInteger,length_quicInteger]
  unfold getQuicIntegerSize
  rw [if_pos hw,if_pos (h.trans hw)]
  unfold kOneByteLimit kTwoByteLimit kFourByteLimit
  split_ifs <;> first | omega | norm_num [Except.toOption]

def quicIntegers (values : List ℕ) : Bytes := values.flatMap quicInteger

@[simp] lemma quicIntegers_nil : quicIntegers [] = [] := rfl

@[simp] lemma quicIntegers_cons (v : ℕ) (values : List ℕ) :
    quicIntegers (v::values) = quicInteger v++quicIntegers values := rfl

@[simp] lemma quicIntegers_append (values values' : List ℕ) :
    quicIntegers (values++values') = quicIntegers values++quicIntegers values' :=
  List.flatMap_append

lemma length_quicInteger_le (v : ℕ) : (quicInteger v).length ≤ 8 := by
  rcases le_or_gt v kEightByteLimit with h | h
  · exact (quicInteger_spec h).2.2.2
  · rw [quicInteger,encodeQuicInteger_eq_error h]
    exact Nat.zero_le 8

lemma length_quicIntegers_le (values : List ℕ) :
    (quicIntegers values).length ≤ 8*values.length := by
  induction values with
  | nil => exact le_rfl
  | cons v values ih =>
    have := length_quicInteger_le v
    rw [quicIntegers_cons,List.length_append,List.length_cons]
    omega

end QuicWestwood
