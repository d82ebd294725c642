import QuicWestwood.ByteCodec
import QuicWestwood.PacketTypes

/-! An integer starts in the low `n` bits of a byte. If these are all ones, 7-bit groups follow, the least
significant first, as long as the high bit of the bytes is set. The decoder multiplies each group by its weight
in 64-bit arithmetic; the tenth group has weight `2 ^ 63`. -/
namespace QuicWestwood.HPACK
open ByteCodec

inductive DecodeError
  | invalidIndex
  | invalidHuffmanCode
  | invalidEncoding
  | integerOverflow
  | invalidTableSize
  | headersTooLarge
  | bufferUnderflow
  | literalTooLarge
  | timeout
  | encoderStreamClosed
  | badSequenceNumber
  | invalidAck
  | tooManyBlocking
  | insertTooLarge
  deriving DecidableEq

def nbitMasks (nbit : ℕ) : UInt8 := .ofNat (2^nbit-1)

/-- The loop of `decodeInteger`, with its factor `f` and the exponent `fexp` of it. -/
def decodeGroups (integer f : UInt64) (fexp : ℕ) : Bytes → Except DecodeError (UInt64 × Bytes)
  | [] => .error .bufferUnderflow
  | byte::rest =>
    if fexp > 64 then .error .integerOverflow
    else if UInt64.ofNat (2^64-1)-integer ≤ (byte &&& 127).toUInt64*f then .error .integerOverflow
    else if byte &&& 128≠0 then
      decodeGroups (integer+(byte &&& 127).toUInt64*f) (f <<< 7) (fexp+7) rest
    else .ok (integer+(byte &&& 127).toUInt64*f,rest)

def decodeInteger (nbit : ℕ) : Bytes → Except DecodeError (UInt64 × Bytes)
  | [] => .error .bufferUnderflow
  | byte::rest =>
    if byte &&& nbitMasks nbit≠nbitMasks nbit then .ok ((byte &&& nbitMasks nbit).toUInt64,rest)
    else decodeGroups (byte &&& nbitMasks nbit).toUInt64 1 0 rest

lemma toNat_shiftRight_seven (v : UInt64) : (v >>> 7).toNat = v.toNat/128 := by
  rw [UInt64.toNat_shiftRight]
  simp [Nat.shiftRight_eq_div_pow]

def encodeGroups (value : UInt64) : Bytes :=
  if 128≤value.toNat then (128 ||| (127 &&& value)).toUInt8::encodeGroups (value >>> 7)
  else [value.toUInt8]
termination_by value.toNat
decreasing_by
  rw [toNat_shiftRight_seven]
  omega

def encodeInteger (value : UInt64) (instruction : UInt8) (nbit : ℕ) : Except Failure Bytes :=
  if 0<nbit ∧ nbit≤8 then
    if value < (nbitMasks nbit).toUInt64 then .ok [instruction ||| value.toUInt8]
    else .ok ((instruction ||| nbitMasks nbit)::encodeGroups (value-(nbitMasks nbit).toUInt64))
  else .error .checkFailed

/-- The number that 7-bit groups spell, continued or not. -/
def groupsValue : Bytes → ℕ
  | [] => 0
  | byte::rest => byte.toNat % 128+128*groupsValue rest

/-- The value of the groups up to the first that is not continued, and what is left. -/
def encodedGroups : Bytes → Option (ℕ × Bytes)
  | [] => none
  | byte::rest =>
    if byte.toNat<128 then some (byte.toNat,rest)
    else (encodedGroups rest).map fun p => (byte.toNat-128+128*p.1,p.2)

/-- The integer of RFC 7541 section 5.1 at the front of the bytes; `none` if they end first. -/
def encodedInteger (nbit : ℕ) : Bytes → Option (ℕ × Bytes)
  | [] => none
  | byte::rest =>
    if byte.toNat % 2^nbit < 2^nbit-1 then some (byte.toNat % 2^nbit,rest)
    else (encodedGroups rest).map fun p => (2^nbit-1+p.1,p.2)

/-- The result `r` of a reader of the number `i + 2 ^ (7 * k) * w`, where the groups of `bytes`
from the `k`-th on spell `w`. Bytes that end inside a number are reported as such unless the
groups that are there already exceed 64 bits, in number or in value. -/
structure ReadsGroups (k i : ℕ) (bytes : Bytes) (r : Except DecodeError (UInt64 × Bytes)) : Prop where
  exact : ∀ v rest,r = .ok (v,rest) → ∃ w,encodedGroups bytes = some (w,rest) ∧ v.toNat = i+2^(7*k)*w
  overflow : ∀ w rest,encodedGroups bytes = some (w,rest) → 2^64-1 ≤ i+2^(7*k)*w → r = .error .integerOverflow
  underflow : encodedGroups bytes = none → bytes.length+k ≤ 10 → i+2^(7*k)*groupsValue bytes < 2^64-1 →
    r = .error .bufferUnderflow

/-- The number ends with its tenth group, this one does not fit into the one bit that is left, and
the bits it loses go unnoticed. -/
def LosesGroup (k i : ℕ) (bytes : Bytes) : Prop :=
  ∃ groups tenth rest,bytes = groups++tenth::rest ∧ groups.length+k = 9 ∧
    (∀ byte ∈ groups,128 ≤ byte.toNat) ∧ 2≤tenth.toNat ∧ tenth.toNat<128 ∧
    i+2^(7*k)*groupsValue groups+tenth.toNat % 2*2^63 < 2^64-1

section Group
variable {k i : ℕ} {byte : UInt8} {rest : Bytes} {integer f : UInt64}
  {r : Except DecodeError (UInt64 × Bytes)}

lemma and_mask_toNat (byte : UInt8) {nbit : ℕ} (h : nbit≤8) :
    (byte &&& nbitMasks nbit).toNat = byte.toNat % 2^nbit := by
  have hpow : 2^nbit ≤ 2^8 := Nat.pow_le_pow_right (by omega) h
  rw [UInt8.toNat_and,nbitMasks,UInt8.toNat_ofNat',Nat.mod_eq_of_lt (by omega),Nat.and_two_pow_sub_one_eq_mod]

lemma continued_iff (byte : UInt8) : byte &&& 128≠0 ↔ 128≤byte.toNat := by
  have hlt := byte.toNat_lt
  rw [Ne,← UInt8.toNat_inj,UInt8.toNat_and,show UInt8.toNat 128 = 2^7 by rfl,Nat.and_two_pow,
    Nat.testBit_eq_decide_div_mod_eq]
  by_cases h : byte.toNat/2^7 % 2 = 1
  · simp
    omega
  · simp
    omega

lemma add_toNat (byte : UInt8) (f : UInt64) :
    ((byte &&& 127).toUInt64*f).toNat = byte.toNat % 128*f.toNat % 2^64 := by
  rw [UInt64.toNat_mul,UInt8.toNat_toUInt64,show (127 : UInt8) = nbitMasks 7 by rfl,
    and_mask_toNat byte (by omega)]
  rfl

lemma factor_shift (h : f.toNat = 2^(7*k) % 2^64) : (f <<< 7).toNat = 2^(7*(k+1)) % 2^64 := by
  rw [UInt64.toNat_shiftLeft,h,show UInt64.toNat 7 % 64 = 7 by rfl,Nat.shiftLeft_eq,Nat.mod_mul_mod,
    ← pow_add]
  rfl

lemma encodedGroups_last (h : byte.toNat<128) : encodedGroups (byte::rest) = some (byte.toNat,rest) :=
  if_pos h

lemma encodedGroups_continued (h : 128≤byte.toNat) : encodedGroups (byte::rest) =
    (encodedGroups rest).map fun p => (byte.toNat-128+128*p.1,p.2) :=
  if_neg (by omega)

lemma weight_cons (k i d w : ℕ) :
    i+2^(7*k)*(d+128*w) = i+d*2^(7*k)+2^(7*(k+1))*w := by
  rw [show 7*(k+1) = 7*k+7 by ring,pow_add]
  ring

lemma readsGroups_cons (h : 128≤byte.toNat) : ReadsGroups k i (byte::rest) r ↔
    ReadsGroups (k+1) (i+byte.toNat % 128*2^(7*k)) rest r := by
  have hlt := byte.toNat_lt
  have hmod : byte.toNat % 128 = byte.toNat-128 := by omega
  have hlen : (byte::rest).length+k = rest.length+(k+1) := by simp; omega
  constructor
  · intro hr
    refine ⟨fun v rest' hv => ?_,fun w rest' hw hle => ?_,fun hnone hcount hlt => ?_⟩
    · obtain ⟨w,hw,hval⟩ := hr.exact v rest' hv
      obtain ⟨⟨w',_⟩,hw',heq⟩ := Option.map_eq_some_iff.mp (encodedGroups_continued h ▸ hw)
      obtain ⟨rfl,rfl⟩ := Prod.mk.inj heq
      exact ⟨w',hw',by rw [hval,hmod,weight_cons]⟩
    · refine hr.overflow (byte.toNat-128+128*w) rest' ?_ ?_
      · rw [encodedGroups_continued h,hw]
        rfl
      · rwa [weight_cons,← hmod]
    · refine hr.underflow ?_ (hlen ▸ hcount) ?_
      · rw [encodedGroups_continued h,hnone]
        rfl
      · rwa [groupsValue,weight_cons]
  · intro hr
    refine ⟨fun v rest' hv => ?_,fun w rest' hw hle => ?_,fun hnone hcount hlt => ?_⟩
    · obtain ⟨w,hw,hval⟩ := hr.exact v rest' hv
      refine ⟨byte.toNat-128+128*w,?_,by rw [hval,hmod,weight_cons]⟩
      rw [encodedGroups_continued h,hw]
      rfl
    · obtain ⟨⟨w',_⟩,hw',heq⟩ := Option.map_eq_some_iff.mp (encodedGroups_continued h ▸ hw)
      obtain ⟨rfl,rfl⟩ := Prod.mk.inj heq
      exact hr.overflow w' _ hw' (by rwa [hmod,← weight_cons])
    · refine hr.underflow ?_ (hlen ▸ hcount) ?_
      · rw [encodedGroups_continued h] at hnone
        exact Option.map_eq_none_iff.mp hnone
      · rwa [← weight_cons]

lemma losesGroup_cons (hk : k<9) : LosesGroup k i (byte::rest) ↔
    128 ≤ byte.toNat ∧ LosesGroup (k+1) (i+byte.toNat % 128*2^(7*k)) rest := by
  constructor
  · rintro ⟨groups,tenth,rest',heq,hlen,hall,hlost⟩
    cases groups with
    | nil => simp at hlen; omega
    | cons group groups =>
      obtain ⟨rfl,rfl⟩ := List.cons.inj heq
      rw [groupsValue,weight_cons] at hlost
      exact ⟨hall _ (by simp),groups,tenth,rest',rfl,by simpa [add_right_comm,add_assoc] using hlen,
        fun b hb => hall b (by simp [hb]),hlost⟩
  · rintro ⟨h,groups,tenth,rest',rfl,hlen,hall,hlost⟩
    refine ⟨byte::groups,tenth,rest',rfl,by simp; omega,?_,?_⟩
    · intro b hb
      rcases List.mem_cons.mp hb with rfl | hb
      · exact h
      · exact hall b hb
    · rwa [groupsValue,weight_cons]

lemma losesGroup_nine : LosesGroup 9 i (byte::rest) ↔
    2 ≤ byte.toNat ∧ byte.toNat<128 ∧ i+byte.toNat % 2*2^63 < 2^64-1 := by
  constructor
  · rintro ⟨groups,tenth,rest',heq,hlen,-,hlost⟩
    obtain rfl : groups=[] := List.length_eq_zero_iff.mp (by omega)
    obtain ⟨rfl,rfl⟩ := List.cons.inj heq
    simpa [groupsValue] using hlost
  · rintro ⟨hlow,hhigh,hlost⟩
    exact ⟨[],byte,rest,rfl,rfl,by simp,hlow,hhigh,by simpa [groupsValue] using hlost⟩

variable (integer rest) in
lemma decodeGroups_cons (hfexp : k≤9) (hf : f.toNat = 2^(7*k) % 2^64) {add : ℕ}
    (hadd : byte.toNat % 128*2^(7*k) % 2^64 = add) :
    (2^64-1 ≤ integer.toNat+add → decodeGroups integer f (7*k) (byte::rest) = .error .integerOverflow) ∧
    (integer.toNat+add < 2^64-1 → ∃ integer' : UInt64,integer'.toNat = integer.toNat+add ∧
      decodeGroups integer f (7*k) (byte::rest) =
        if 128≤byte.toNat then decodeGroups integer' (f <<< 7) (7*(k+1)) rest else .ok (integer',rest)) := by
  have hval : ((byte &&& 127).toUInt64*f).toNat = add := by
    rw [add_toNat,hf,Nat.mul_mod_mod,hadd]
  have hmax : (UInt64.ofNat (2^64-1)-integer).toNat = 2^64-1-integer.toNat := by
    rw [UInt64.toNat_sub_of_le]
    · rfl
    · rw [UInt64.le_iff_toNat_le]
      have := integer.toNat_lt
      exact Nat.le_sub_one_of_lt this
  have hguard : UInt64.ofNat (2^64-1)-integer ≤ (byte &&& 127).toUInt64*f ↔ 2^64-1 ≤ integer.toNat+add := by
    rw [UInt64.le_iff_toNat_le,hval,hmax]
    omega
  rw [decodeGroups,if_neg (by omega)]
  refine ⟨fun h => if_pos (hguard.mpr h),fun h => ⟨integer+(byte &&& 127).toUInt64*f,?_,?_⟩⟩
  · rw [UInt64.toNat_add,hval]
    exact Nat.mod_eq_of_lt (by omega)
  · rw [if_neg (by rw [hguard]; omega)]
    simp only [continued_iff]
    rfl

end Group

section Loop
variable {k i : ℕ} {byte : UInt8} {bytes rest : Bytes} {integer f : UInt64}

lemma readsGroups_nil : ReadsGroups k i [] (.error .bufferUnderflow) :=
  ⟨nofun,nofun,fun _ _ _ => rfl⟩

lemma readsGroups_overflow (h : 10 < bytes.length+k ∨ 2^64-1 ≤ i+2^(7*k)*groupsValue bytes) :
    ReadsGroups k i bytes (.error .integerOverflow) := by
  refine ⟨nofun,fun _ _ _ _ => rfl,fun _ hcount hlt => ?_⟩
  omega

lemma readsGroups_last (hbyte : byte.toNat<128) (hv : integer.toNat < 2^64-1) :
    ReadsGroups k i (byte::rest) (.ok (integer,rest)) ↔ integer.toNat = i+2^(7*k)*byte.toNat := by
  constructor
  · intro hr
    obtain ⟨w,hw,hval⟩ := hr.exact integer rest rfl
    obtain ⟨rfl,-⟩ := Prod.mk.inj (Option.some.inj (encodedGroups_last hbyte ▸ hw))
    exact hval
  · intro hval
    refine ⟨?_,?_,?_⟩
    · rintro v rest' heq
      obtain ⟨rfl,rfl⟩ := Prod.mk.inj (Except.ok.inj heq)
      exact ⟨byte.toNat,encodedGroups_last hbyte,hval⟩
    · intro w rest' hw hle
      obtain ⟨rfl,-⟩ := Prod.mk.inj (Option.some.inj (encodedGroups_last hbyte ▸ hw))
      omega
    · rw [encodedGroups_last hbyte]
      exact nofun

lemma readsGroups_ten (h : 128≤byte.toNat) : ReadsGroups 9 i (byte::rest) (decodeGroups integer f (7*10) rest) := by
  rw [readsGroups_cons h]
  cases rest with
  | nil => exact readsGroups_nil
  | cons next rest => exact readsGroups_overflow (.inl (by simp))

lemma readsGroups_nine (hi : integer.toNat=i) (hf : f.toNat = 2^(7*9) % 2^64) :
    ReadsGroups 9 i (byte::rest) (decodeGroups integer f (7*9) (byte::rest)) ↔
      ¬LosesGroup 9 i (byte::rest) := by
  -- only the lowest bit of the tenth group has a place in the product
  have hadd : byte.toNat % 128*2^(7*9) % 2^64 = byte.toNat % 2*2^63 := by omega
  obtain ⟨hover,hstep⟩ := decodeGroups_cons rest integer le_rfl hf hadd
  rw [losesGroup_nine]
  rcases Nat.lt_or_ge (i+byte.toNat % 2*2^63) (2^64-1) with hlt | hge
  · obtain ⟨integer',hval,hdec⟩ := hstep (by rwa [hi])
    rw [hdec]
    by_cases hcont : 128≤byte.toNat
    · rw [if_pos hcont]
      exact iff_of_true (readsGroups_ten hcont) (by omega)
    · rw [if_neg hcont,readsGroups_last (by omega) (by omega)]
      omega
  · rw [hover (by omega)]
    refine iff_of_true (readsGroups_overflow (.inr ?_)) (by omega)
    rw [groupsValue]
    omega

lemma readsGroups_iff (hk : k≤9) (hi : integer.toNat=i) (hf : f.toNat = 2^(7*k) % 2^64)
    (hbound : i < 2^(7*k)+255) :
    ReadsGroups k i bytes (decodeGroups integer f (7*k) bytes) ↔ ¬LosesGroup k i bytes := by
  induction bytes generalizing k i integer f with
  | nil =>
    refine iff_of_true readsGroups_nil ?_
    rintro ⟨groups,tenth,rest,h,-⟩
    simp at h
  | cons byte rest ih =>
    rcases Nat.lt_or_ge k 9 with hlt | hge
    · have hnext : 2^(7*(k+1)) = 128*2^(7*k) := by rw [mul_add,pow_add,mul_comm]; rfl
      have hweight : 2^(7*k) ≤ 2^56 := Nat.pow_le_pow_right (by omega) (by omega)
      have hprod : byte.toNat % 128*2^(7*k) ≤ 127*2^(7*k) :=
        Nat.mul_le_mul_right _ (by omega)
      have hadd := Nat.mod_eq_of_lt (show byte.toNat % 128*2^(7*k) < 2^64 by omega)
      obtain ⟨integer',hval,hdec⟩ := (decodeGroups_cons rest integer hk hf hadd).2 (by omega)
      rw [hdec,losesGroup_cons hlt]
      by_cases hcont : 128≤byte.toNat
      · rw [if_pos hcont,readsGroups_cons hcont,and_iff_right hcont]
        exact ih hlt (by omega) (factor_shift hf) (by omega)
      · rw [if_neg hcont,readsGroups_last (by omega) (by omega)]
        refine iff_of_true ?_ (fun h => hcont h.1)
        rw [hval,hi,Nat.mod_eq_of_lt (by omega),mul_comm]
    · obtain rfl : k=9 := by omega
      exact readsGroups_nine hi hf

end Loop

/-- The bytes stop inside an integer before there are more than ten groups of it, or more than
64 bits can hold. -/
def EndsFirst (nbit : ℕ) (bytes : Bytes) : Prop :=
  encodedInteger nbit bytes = none ∧ bytes.length≤11 ∧ 2^nbit-1+groupsValue bytes.tail < 2^64-1

structure ReadsInteger (nbit : ℕ) (bytes : Bytes) : Prop where
  exact : ∀ v rest,decodeInteger nbit bytes = .ok (v,rest) → encodedInteger nbit bytes = some (v.toNat,rest)
  overflow : ∀ v rest,encodedInteger nbit bytes = some (v,rest) → 2^64-1 ≤ v →
    decodeInteger nbit bytes = .error .integerOverflow
  underflow : EndsFirst nbit bytes → decodeInteger nbit bytes = .error .bufferUnderflow

/-- The integer has exactly ten groups, and bits of the tenth are dropped without an error. -/
def LosesTenthGroup (nbit : ℕ) (bytes : Bytes) : Prop :=
  ∃ first rest,bytes = first::rest ∧ first.toNat % 2^nbit = 2^nbit-1 ∧ LosesGroup 0 (2^nbit-1) rest

section Decode
variable {nbit : ℕ} {first : UInt8} {rest : Bytes}

lemma mask_toNat (h : nbit≤8) : (nbitMasks nbit).toNat = 2^nbit-1 := by
  have hpow : 2^nbit ≤ 2^8 := Nat.pow_le_pow_right (by omega) h
  rw [nbitMasks,UInt8.toNat_ofNat',Nat.mod_eq_of_lt (by omega)]

lemma and_mask_eq_iff (h : nbit≤8) :
    first &&& nbitMasks nbit = nbitMasks nbit ↔ first.toNat % 2^nbit = 2^nbit-1 := by
  rw [← UInt8.toNat_inj,and_mask_toNat first h,mask_toNat h]

lemma decodeInteger_short (h : nbit≤8) (hfirst : first.toNat % 2^nbit < 2^nbit-1) :
    decodeInteger nbit (first::rest) = .ok ((first &&& nbitMasks nbit).toUInt64,rest) :=
  if_pos (mt (and_mask_eq_iff h).mp hfirst.ne)

variable (rest) in
lemma decodeInteger_long (h : nbit≤8) (hfirst : first.toNat % 2^nbit = 2^nbit-1) :
    decodeInteger nbit (first::rest) = decodeGroups (nbitMasks nbit).toUInt64 1 (7*0) rest := by
  have hmask := (and_mask_eq_iff h).mpr hfirst
  rw [decodeInteger,if_neg (not_not.mpr hmask),hmask]

lemma readsInteger_short (h : nbit≤8) (hfirst : first.toNat % 2^nbit < 2^nbit-1) :
    ReadsInteger nbit (first::rest) := by
  have henc : encodedInteger nbit (first::rest) = some (first.toNat % 2^nbit,rest) := if_pos hfirst
  have hpow : 2^nbit ≤ 2^8 := Nat.pow_le_pow_right (by omega) h
  refine ⟨?_,?_,?_⟩
  · intro v rest' hdec
    obtain ⟨rfl,rfl⟩ := Prod.mk.inj (Except.ok.inj (decodeInteger_short h hfirst ▸ hdec))
    rw [henc,UInt8.toNat_toUInt64,and_mask_toNat first h]
  · intro v rest' hv hle
    obtain ⟨rfl,-⟩ := Prod.mk.inj (Option.some.inj (henc ▸ hv))
    omega
  · rintro ⟨hnone,-⟩
    cases henc ▸ hnone

lemma readsInteger_long (h : nbit≤8) (hfirst : first.toNat % 2^nbit = 2^nbit-1) :
    ReadsInteger nbit (first::rest) ↔
      ReadsGroups 0 (2^nbit-1) rest (decodeGroups (nbitMasks nbit).toUInt64 1 (7*0) rest) := by
  have henc : encodedInteger nbit (first::rest) =
      (encodedGroups rest).map fun p => (2^nbit-1+p.1,p.2) := if_neg (by omega)
  have hdec := decodeInteger_long rest h hfirst
  constructor
  · intro hr
    refine ⟨fun v rest' hv => ?_,fun w rest' hw hle => ?_,fun hnone hlen hlt => ?_⟩
    · obtain ⟨⟨w,_⟩,hw,heq⟩ := Option.map_eq_some_iff.mp (henc ▸ hr.exact v rest' (hdec ▸ hv))
      obtain ⟨hval,rfl⟩ := Prod.mk.inj heq
      exact ⟨w,hw,by omega⟩
    · refine hdec ▸ hr.overflow (2^nbit-1+w) rest' ?_ (by omega)
      rw [henc,hw]
      rfl
    · refine hdec ▸ hr.underflow ⟨?_,by simp; omega,by simpa using hlt⟩
      rw [henc,hnone]
      rfl
  · intro hr
    refine ⟨fun v rest' hv => ?_,fun v rest' hv hle => ?_,?_⟩
    · obtain ⟨w,hw,hval⟩ := hr.exact v rest' (hdec ▸ hv)
      rw [henc,hw,hval]
      simp
    · obtain ⟨⟨w,_⟩,hw,heq⟩ := Option.map_eq_some_iff.mp (henc ▸ hv)
      obtain ⟨rfl,rfl⟩ := Prod.mk.inj heq
      exact hdec ▸ hr.overflow w _ hw (by simpa using hle)
    · rintro ⟨hnone,hlen,hlt⟩
      rw [henc,Option.map_eq_none_iff] at hnone
      exact hdec ▸ hr.underflow hnone (by simp at hlen; omega) (by simpa using hlt)

lemma readsInteger_iff (h : nbit≤8) (bytes : Bytes) :
    ReadsInteger nbit bytes ↔ ¬LosesTenthGroup nbit bytes := by
  cases bytes with
  | nil =>
    refine iff_of_true ⟨nofun,nofun,fun _ => rfl⟩ ?_
    rintro ⟨first,rest,h,-⟩
    cases h
  | cons first rest =>
    have hpow : 2^nbit ≤ 2^8 := Nat.pow_le_pow_right (by omega) h
    have hmod := Nat.mod_lt first.toNat (Nat.two_pow_pos nbit)
    rcases Nat.lt_or_ge (first.toNat % 2^nbit) (2^nbit-1) with hlt | hge
    · refine iff_of_true (readsInteger_short h hlt) ?_
      rintro ⟨_,_,heq,hfirst,-⟩
      obtain ⟨rfl,rfl⟩ := List.cons.inj heq
      omega
    · have hfirst : first.toNat % 2^nbit = 2^nbit-1 := by omega
      rw [readsInteger_long h hfirst,readsGroups_iff (by omega) ?_ rfl (by omega)]
      · refine not_congr ⟨fun hl => ⟨first,rest,rfl,hfirst,hl⟩,?_⟩
        rintro ⟨_,_,heq,-,hl⟩
        obtain ⟨rfl,rfl⟩ := List.cons.inj heq
        exact hl
      · rw [UInt8.toNat_toUInt64,mask_toNat h]

lemma decodeGroups_lt {integer f v : UInt64} {fexp : ℕ} {bytes rest' : Bytes}
    (h : decodeGroups integer f fexp bytes = .ok (v,rest')) : v.toNat < 2^64-1 := by
  induction bytes generalizing integer f fexp with
  | nil => cases h
  | cons byte bytes ih =>
    rw [decodeGroups] at h
    split at h
    case isTrue => cases h
    case isFalse =>
    split at h
    case isTrue => cases h
    case isFalse hguard =>
    split at h
    case isTrue => exact ih h
    case isFalse =>
      obtain ⟨rfl,-⟩ := Prod.mk.inj (Except.ok.inj h)
      have hlt := UInt64.lt_iff_toNat_lt.mp (UInt64.not_le.mp hguard)
      have hmax : integer ≤ UInt64.ofNat (2^64-1) := UInt64.le_iff_toNat_le.mpr (Nat.le_sub_one_of_lt integer.toNat_lt)
      rw [UInt64.toNat_sub_of_le _ _ hmax] at hlt
      have hval : (UInt64.ofNat (2^64-1)).toNat = 2^64-1 := rfl
      rw [UInt64.toNat_add]
      omega

lemma decodeInteger_lt {v : UInt64} {bytes rest' : Bytes} (h : decodeInteger nbit bytes = .ok (v,rest')) :
    v.toNat < 2^64-1 := by
  cases bytes with
  | nil => cases h
  | cons first bytes =>
    rw [decodeInteger] at h
    split at h
    case isTrue =>
      obtain ⟨rfl,-⟩ := Prod.mk.inj (Except.ok.inj h)
      have := (first &&& nbitMasks nbit).toNat_lt
      rw [UInt8.toNat_toUInt64]
      omega
    case isFalse => exact decodeGroups_lt h

end Decode

section RoundTrip
variable {k nbit : ℕ} {value integer f : UInt64} {instruction : UInt8}

lemma continued_toNat (value : UInt64) : (128 ||| (127 &&& value)).toUInt8.toNat = 128+value.toNat % 128 := by
  have hlt : value.toNat % 128 < 2^7 := Nat.mod_lt _ (by norm_num)
  rw [UInt64.toNat_toUInt8,UInt64.toNat_or,UInt64.toNat_and,show UInt64.toNat 127 = 2^7-1 by rfl,
    Nat.and_comm,Nat.and_two_pow_sub_one_eq_mod,show UInt64.toNat 128 = 2^7*1 by rfl,
    ← Nat.two_pow_add_eq_or_of_lt hlt,Nat.mod_eq_of_lt (by omega)]

lemma decodeGroups_encodeGroups (hk : k≤9) (hf : f.toNat = 2^(7*k) % 2^64)
    (hlt : integer.toNat+2^(7*k)*value.toNat < 2^64-1) (rest : Bytes) :
    decodeGroups integer f (7*k) (encodeGroups value++rest) =
      .ok (.ofNat (integer.toNat+2^(7*k)*value.toNat),rest) := by
  fun_induction encodeGroups value generalizing k integer f with
  | case1 value hbig ih =>
    have hsplit := weight_cons k integer.toNat (value.toNat % 128) (value.toNat/128)
    rw [Nat.mod_add_div] at hsplit
    have hbyte : (128 ||| (127 &&& value)).toUInt8.toNat % 128 = value.toNat % 128 := by
      rw [continued_toNat]
      omega
    have hadd := Nat.mod_eq_of_lt (show (128 ||| (127 &&& value)).toUInt8.toNat % 128*2^(7*k) < 2^64 by
      rw [hbyte]; omega)
    obtain ⟨integer',hval,hdec⟩ := (decodeGroups_cons (encodeGroups (value >>> 7)++rest) integer hk hf hadd).2
      (by rw [hbyte]; omega)
    rw [hbyte] at hval
    have hnext : integer'.toNat+2^(7*(k+1))*(value >>> 7).toNat = integer.toNat+2^(7*k)*value.toNat := by
      rw [toNat_shiftRight_seven,hval,hsplit]
    -- the value is not used up, so the next weight is still below `2 ^ 64`
    have hweight : 2^(7*(k+1)) < 2^64 := by
      have : 2^(7*(k+1))*1 ≤ 2^(7*(k+1))*(value >>> 7).toNat :=
        Nat.mul_le_mul_left _ (by rw [toNat_shiftRight_seven]; omega)
      omega
    have hk' := (Nat.pow_lt_pow_iff_right (by norm_num)).mp hweight
    rw [List.cons_append,hdec,if_pos (by rw [continued_toNat]; omega),
      ih (by omega) (factor_shift hf) (by omega),hnext]
  | case2 value hsmall =>
    have hbyte : value.toUInt8.toNat=value.toNat := by
      rw [UInt64.toNat_toUInt8,Nat.mod_eq_of_lt (by omega)]
    have hmod : value.toUInt8.toNat % 128 = value.toNat := by rw [hbyte]; omega
    have hprod : value.toUInt8.toNat % 128*2^(7*k) = 2^(7*k)*value.toNat := by
      rw [hmod,mul_comm]
    have hadd := Nat.mod_eq_of_lt (show value.toUInt8.toNat % 128*2^(7*k) < 2^64 by omega)
    obtain ⟨integer',hval,hdec⟩ := (decodeGroups_cons rest integer hk hf hadd).2 (by omega)
    rw [List.singleton_append,hdec,if_neg (by omega),← hprod,← hval,UInt64.ofNat_toNat]

lemma or_mask_toNat (h : nbit≤8) (hfree : instruction &&& nbitMasks nbit = 0) (byte : UInt8) :
    ((instruction ||| byte) &&& nbitMasks nbit).toNat = byte.toNat % 2^nbit := by
  have hzero : instruction.toNat % 2^nbit = 0 := by rw [← and_mask_toNat _ h,hfree]; rfl
  rw [and_mask_toNat _ h,UInt8.toNat_or,Nat.or_mod_two_pow,hzero,Nat.zero_or]

lemma decodeInteger_encodeInteger (h0 : 0<nbit) (h8 : nbit≤8) (hfree : instruction &&& nbitMasks nbit = 0)
    (hvalue : value.toNat < 2^64-1) :
    ∃ bytes,encodeInteger value instruction nbit = .ok bytes ∧ Reads (decodeInteger nbit) bytes value := by
  have hmask : (nbitMasks nbit).toUInt64.toNat = 2^nbit-1 := by rw [UInt8.toNat_toUInt64,mask_toNat h8]
  have hpow : 2^nbit ≤ 2^8 := Nat.pow_le_pow_right (by omega) h8
  have hpos := Nat.two_pow_pos nbit
  rw [encodeInteger,if_pos ⟨h0,h8⟩]
  by_cases hlt : value < (nbitMasks nbit).toUInt64
  · refine ⟨_,if_pos hlt,fun rest => ?_⟩
    have hlt' := hmask ▸ UInt64.lt_iff_toNat_lt.mp hlt
    have hbyte : ((instruction ||| value.toUInt8) &&& nbitMasks nbit).toNat = value.toNat := by
      rw [or_mask_toNat h8 hfree,UInt64.toNat_toUInt8,Nat.mod_eq_of_lt (a := value.toNat) (by omega),
        Nat.mod_eq_of_lt (by omega)]
    have hfirst := (and_mask_toNat (instruction ||| value.toUInt8) h8).symm.trans hbyte
    rw [StateT.run,List.singleton_append,decodeInteger_short h8 (by omega)]
    congr 2
    rw [← UInt64.toNat_inj,UInt8.toNat_toUInt64,hbyte]
  · refine ⟨_,if_neg hlt,fun rest => ?_⟩
    have hle := UInt64.not_lt.mp hlt
    have hsub := UInt64.toNat_sub_of_le _ _ hle
    have hle' := UInt64.le_iff_toNat_le.mp hle
    have hfirst : (instruction ||| nbitMasks nbit).toNat % 2^nbit = 2^nbit-1 := by
      rw [← and_mask_toNat _ h8,or_mask_toNat h8 hfree,mask_toNat h8,Nat.mod_eq_of_lt (by omega)]
    rw [StateT.run,List.cons_append,decodeInteger_long _ h8 hfirst,
      decodeGroups_encodeGroups (by omega) rfl (by omega)]
    congr 2
    rw [hsub,mul_zero,pow_zero,one_mul,Nat.add_sub_cancel' hle',UInt64.ofNat_toNat]

end RoundTrip

/-- An integer is read for what its bytes spell exactly when no bit of a tenth group is dropped;
a written integer always is. -/
theorem decodeInteger_reads_iff (nbit : ℕ) (h0 : 0<nbit) (h8 : nbit≤8) :
    (∀ bytes,ReadsInteger nbit bytes ↔ ¬LosesTenthGroup nbit bytes) ∧
    ∀ (value : UInt64) (instruction : UInt8),instruction &&& nbitMasks nbit = 0 → value.toNat < 2^64-1 →
      ∃ bytes,encodeInteger value instruction nbit = .ok bytes ∧ Reads (decodeInteger nbit) bytes value :=
  ⟨readsInteger_iff h8,fun _ _ hfree hvalue => decodeInteger_encodeInteger h0 h8 hfree hvalue⟩

theorem decodeInteger_reads_five_bits :
    (∀ bytes,ReadsInteger 5 bytes ↔ ¬LosesTenthGroup 5 bytes) ∧
    ∃ bytes,encodeInteger 1337 0x20 5 = .ok bytes ∧ Reads (decodeInteger 5) bytes 1337 :=
  have h := decodeInteger_reads_iff 5 (by decide) (by decide)
  ⟨h.1,h.2 1337 0x20 (by decide) (by decide)⟩

/-- The integer `255 + 2 ^ 64` is read as 255. -/
theorem decodeInteger_wraps :
    ¬ReadsInteger 8 [255,128,128,128,128,128,128,128,128,128,2] := by
  intro h
  have := h.exact 255 [] (by decide)
  revert this
  decide

end QuicWestwood.HPACK
