import QuicWestwood.HeaderTable
import QuicWestwood.PrefixInteger

/-! A header block starts with the number of inserts it needs and the base of its relative indices. The encoder
writes the insert count modulo twice the number of entries that fit into the table; the decoder unwraps it
around its own insert count, in unsigned 64-bit arithmetic. -/
namespace QuicWestwood.QPACK
open ByteCodec HPACK

/-- How the decoder stops: with an error that it reports, or at a failed `CHECK`. -/
inductive Stop
  | decodeError (err : DecodeError)
  | checkFailed
  deriving DecidableEq

def getMaxEntries (tableSize : ℕ) : ℕ := tableSize/HPACKHeader.kMinLength

def maxValue (maxEntries insertCount : ℕ) : ℕ := insertCount+maxEntries

def maxWrapped (maxEntries insertCount : ℕ) : ℕ :=
  maxValue maxEntries insertCount/(2*maxEntries)*(2*maxEntries)

/-- The sum that `decodePrefix` forms first, in an unsigned 64-bit number. -/
def unwrapped (maxEntries insertCount wireRIC : ℕ) : ℕ :=
  (maxWrapped maxEntries insertCount+wireRIC-1) % 2^64

/-- The first half of `decodePrefix`. -/
def decodeRIC (maxEntries insertCount wireRIC : ℕ) : Except DecodeError ℕ :=
  if wireRIC=0 then .ok 0
  else if maxEntries=0 then .error .invalidIndex
  else if unwrapped maxEntries insertCount wireRIC > maxValue maxEntries insertCount then
    if wireRIC > 2*maxEntries ∨ unwrapped maxEntries insertCount wireRIC < 2*maxEntries then
      .error .invalidIndex
    else .ok (unwrapped maxEntries insertCount wireRIC-2*maxEntries)
  else .ok (unwrapped maxEntries insertCount wireRIC)

/-- The second half of `decodePrefix`. -/
def decodeBase (requiredInsertCount : ℕ) (neg : Bool) (delta : ℕ) : Except Stop ℕ :=
  if neg then
    if delta ≥ requiredInsertCount then .error (.decodeError .invalidIndex)
    else if requiredInsertCount-delta-1 ≤ 2^32-1 then .ok (requiredInsertCount-delta-1)
    else .error .checkFailed
  else if delta > 2^32-1 ∨ requiredInsertCount ≥ 2^32-1-delta then .error (.decodeError .invalidIndex)
  else .ok (requiredInsertCount+delta)

structure BlockPrefix where
  requiredInsertCount : ℕ
  baseIndex : ℕ
  deriving DecidableEq

def lift (x : Except DecodeError ℕ) : Except Stop ℕ := x.mapError .decodeError

def integer (nbit : ℕ) : Reader Stop ℕ := fun bytes =>
  match decodeInteger nbit bytes with
  | .error err => .error (.decodeError err)
  | .ok (value,rest) => .ok (value.toNat,rest)

def qDeltaBaseNeg : UInt8 := 0x80

def peekNeg : Reader Stop Bool := fun bytes =>
  match bytes with
  | [] => .error (.decodeError .bufferUnderflow)
  | byte::rest => .ok (byte &&& qDeltaBaseNeg != 0,byte::rest)

def decodePrefix (maxTableSize insertCount : ℕ) : Reader Stop BlockPrefix := do
  let wireRIC ← integer 8
  let requiredInsertCount ← liftM (lift (decodeRIC (getMaxEntries maxTableSize) insertCount wireRIC))
  let neg ← peekNeg
  let delta ← integer 7
  let baseIndex ← liftM (decodeBase requiredInsertCount neg delta)
  return ⟨requiredInsertCount % 2^32,baseIndex⟩

/-- The value the encoder writes for a required insert count other than 0. -/
def wireRIC (maxEntries requiredInsertCount : ℕ) : ℕ := requiredInsertCount % (2*maxEntries)+1

/-- The prefix in `completeEncode`. -/
def encodePrefix (maxTableSize requiredInsertCount baseIndex : ℕ) : Except Failure Bytes :=
  if requiredInsertCount=0 then
    return (← encodeInteger 0 0 8)++(← encodeInteger 0 0 8)
  else if getMaxEntries maxTableSize = 0 then .error .divisionByZero
  else if requiredInsertCount > baseIndex then
    return (← encodeInteger (.ofNat (wireRIC (getMaxEntries maxTableSize) requiredInsertCount)) 0 8) ++
      (← encodeInteger (.ofNat (requiredInsertCount-baseIndex-1)) qDeltaBaseNeg 7)
  else
    return (← encodeInteger (.ofNat (wireRIC (getMaxEntries maxTableSize) requiredInsertCount)) 0 8) ++
      (← encodeInteger (.ofNat (baseIndex-requiredInsertCount)) 0 7)

/-- The insert counts that the decoder can tell apart. -/
def InRange (maxEntries insertCount requiredInsertCount : ℕ) : Prop :=
  1 ≤ requiredInsertCount ∧ insertCount+1 ≤ requiredInsertCount+maxEntries ∧
    requiredInsertCount ≤ insertCount+maxEntries

/-- The values without a meaning that are let through: 1 before the first wrap, and those that
are so large that the 64-bit sum wraps to a small number. -/
def Slips (maxEntries insertCount wire : ℕ) : Prop :=
  wire = 1 ∧ insertCount < maxEntries ∨
    2*maxEntries < wire ∧ unwrapped maxEntries insertCount wire ≤ maxValue maxEntries insertCount

instance (maxEntries insertCount wire : ℕ) : Decidable (Slips maxEntries insertCount wire) :=
  inferInstanceAs (Decidable (_ ∨ _))

section Unwrap
variable {maxEntries insertCount wire requiredInsertCount : ℕ}

lemma maxWrapped_le : maxWrapped maxEntries insertCount ≤ maxValue maxEntries insertCount :=
  Nat.div_mul_le_self _ _

lemma lt_maxWrapped (h : 1 ≤ maxEntries) :
    maxValue maxEntries insertCount < maxWrapped maxEntries insertCount+2*maxEntries := by
  have hmod := Nat.mod_lt (maxValue maxEntries insertCount) (show 0 < 2*maxEntries by omega)
  have hdiv := Nat.div_add_mod' (maxValue maxEntries insertCount) (2*maxEntries)
  rw [maxWrapped]
  omega

lemma unwrapped_of_le (h : 1≤wire) (hwire : wire ≤ 2*maxEntries) (hentries : maxEntries < 2^32)
    (hcount : insertCount < 2^32) :
    unwrapped maxEntries insertCount wire = maxWrapped maxEntries insertCount+(wire-1) := by
  have hle : maxWrapped maxEntries insertCount ≤ insertCount+maxEntries := maxWrapped_le
  rw [unwrapped,Nat.mod_eq_of_lt (by omega)]
  omega

lemma maxWrapped_eq_zero_or (maxEntries insertCount : ℕ) :
    maxWrapped maxEntries insertCount = 0 ∨ 2*maxEntries ≤ maxWrapped maxEntries insertCount := by
  rcases Nat.eq_zero_or_pos (maxValue maxEntries insertCount/(2*maxEntries)) with hzero | hpos
  · left
    rw [maxWrapped,hzero,zero_mul]
  · right
    exact Nat.le_mul_of_pos_left _ hpos

lemma maxWrapped_add_mod (w : ℕ) :
    (maxWrapped maxEntries insertCount+w) % (2*maxEntries) = w % (2*maxEntries) := by
  rw [maxWrapped,Nat.mul_add_mod_self_right]

lemma maxWrapped_add_cases (h : 1 ≤ maxEntries) (hr : InRange maxEntries insertCount requiredInsertCount) :
    maxWrapped maxEntries insertCount+requiredInsertCount % (2*maxEntries) = requiredInsertCount ∨
    maxWrapped maxEntries insertCount+requiredInsertCount % (2*maxEntries) =
      requiredInsertCount+2*maxEntries := by
  obtain ⟨-,hlow,hhigh⟩ := hr
  have hpos : 0 < 2*maxEntries := by omega
  have hsplit := Nat.div_add_mod' requiredInsertCount (2*maxEntries)
  have hle : requiredInsertCount/(2*maxEntries) ≤ (insertCount+maxEntries)/(2*maxEntries) :=
    Nat.div_le_div_right hhigh
  have hge : (insertCount+maxEntries)/(2*maxEntries) ≤ requiredInsertCount/(2*maxEntries)+1 := by
    rw [← Nat.add_div_right _ hpos]
    exact Nat.div_le_div_right (by omega)
  rw [maxWrapped,maxValue]
  rcases Nat.eq_or_lt_of_le hge with heq | hlt
  · right
    rw [heq,Nat.add_one_mul]
    omega
  · left
    rw [show (insertCount+maxEntries)/(2*maxEntries) = requiredInsertCount/(2*maxEntries) by omega]
    exact hsplit

lemma decodeRIC_wireRIC (h : 1 ≤ maxEntries) (hentries : maxEntries < 2^32) (hcount : insertCount < 2^32)
    (hr : InRange maxEntries insertCount requiredInsertCount) :
    decodeRIC maxEntries insertCount (wireRIC maxEntries requiredInsertCount) = .ok requiredInsertCount := by
  have hmod := Nat.mod_lt requiredInsertCount (show 0 < 2*maxEntries by omega)
  have hun : unwrapped maxEntries insertCount (wireRIC maxEntries requiredInsertCount) =
      maxWrapped maxEntries insertCount+requiredInsertCount % (2*maxEntries) :=
    unwrapped_of_le (Nat.le_add_left _ _) hmod hentries hcount
  have hcases := maxWrapped_add_cases h hr
  obtain ⟨hone,hlow,hhigh⟩ := hr
  rw [decodeRIC,if_neg (by rw [wireRIC]; omega),if_neg (by omega),hun,maxValue]
  rcases hcases with heq | heq
  · rw [heq,if_neg (by omega)]
  · rw [heq,if_pos (by omega),if_neg (by rw [wireRIC]; omega),Nat.add_sub_cancel]

lemma decodeRIC_other (h : 1 ≤ maxEntries) (hentries : maxEntries < 2^32) (hcount : insertCount < 2^32)
    (hwire : 1≤wire) (hno : ∀ r,InRange maxEntries insertCount r → wireRIC maxEntries r≠wire) :
    decodeRIC maxEntries insertCount wire = if Slips maxEntries insertCount wire then
        .ok (unwrapped maxEntries insertCount wire) else .error .invalidIndex := by
  have hle : maxWrapped maxEntries insertCount ≤ insertCount+maxEntries := maxWrapped_le
  have hlt : insertCount+maxEntries < maxWrapped maxEntries insertCount+2*maxEntries := lt_maxWrapped h
  rw [decodeRIC,if_neg (by omega),if_neg (by omega),maxValue]
  rcases Nat.lt_or_ge (2*maxEntries) wire with hbig | hsmall
  · by_cases hun : unwrapped maxEntries insertCount wire ≤ insertCount+maxEntries
    · rw [if_neg (by omega),if_pos (.inr ⟨hbig,hun⟩)]
    · rw [if_pos (by omega),if_pos (.inl hbig),if_neg]
      rintro (⟨hw,-⟩ | ⟨-,hun'⟩)
      · omega
      · exact hun hun'
  · have hun := unwrapped_of_le hwire hsmall hentries hcount
    have hmod : (wire-1) % (2*maxEntries) = wire-1 := Nat.mod_eq_of_lt (by omega)
    -- a result in the range would be written as the same value
    have hout : ∀ r,r % (2*maxEntries) = wire-1 → ¬InRange maxEntries insertCount r := by
      intro r hr hin
      refine hno r hin ?_
      rw [wireRIC,hr]
      omega
    by_cases hgt : maxWrapped maxEntries insertCount+(wire-1) > insertCount+maxEntries
    · have hlow : maxWrapped maxEntries insertCount+(wire-1) < 2*maxEntries := by
        by_contra hcon
        refine hout (maxWrapped maxEntries insertCount+(wire-1)-2*maxEntries) ?_ ?_
        · rw [← Nat.add_mod_right,Nat.sub_add_cancel (by omega),maxWrapped_add_mod,hmod]
        · refine ⟨?_,by omega,by omega⟩
          rcases maxWrapped_eq_zero_or maxEntries insertCount with hzero | hfull
          · omega
          · omega
      rw [hun,if_pos hgt,if_pos (.inr hlow),if_neg]
      rintro (⟨hw,-⟩ | ⟨hw,-⟩)
      · omega
      · omega
    · have hzero : maxWrapped maxEntries insertCount+(wire-1) = 0 := by
        by_contra hcon
        refine hout (maxWrapped maxEntries insertCount+(wire-1)) ((maxWrapped_add_mod _).trans hmod) ?_
        exact ⟨by omega,by omega,by omega⟩
      rw [hun,if_neg hgt,if_pos (.inl ⟨by omega,by omega⟩)]

end Unwrap

section Read
variable {nbit value : ℕ} {instruction : UInt8}

lemma reads_integer (h0 : 0<nbit) (h8 : nbit≤8) (hfree : instruction &&& nbitMasks nbit = 0)
    (hvalue : value < 2^64-1) :
    ∃ bytes,encodeInteger (.ofNat value) instruction nbit = .ok bytes ∧ Reads (integer nbit) bytes value := by
  have hval := UInt64.toNat_ofNat_of_lt' (lt_of_lt_of_le hvalue (by decide))
  obtain ⟨bytes,henc,hreads⟩ := decodeInteger_encodeInteger h0 h8 hfree (by rwa [hval])
  refine ⟨bytes,henc,fun rest => ?_⟩
  have hrun : decodeInteger nbit (bytes++rest) = .ok (.ofNat value,rest) := hreads rest
  rw [StateT.run,integer,hrun]
  simp only [hval]

def readDelta : Reader Stop (Bool × ℕ) := do
  let neg ← peekNeg
  let delta ← integer 7
  return (neg,delta)

lemma decodePrefix_eq (maxTableSize insertCount : ℕ) : decodePrefix maxTableSize insertCount = (do
    let wireRIC ← integer 8
    let requiredInsertCount ← liftM (lift (decodeRIC (getMaxEntries maxTableSize) insertCount wireRIC))
    let delta ← readDelta
    let baseIndex ← liftM (decodeBase requiredInsertCount delta.1 delta.2)
    return ⟨requiredInsertCount % 2^32,baseIndex⟩) := by
  simp only [decodePrefix,readDelta,bind_assoc,pure_bind]

lemma encodeInteger_sign {bytes : Bytes} {neg : Bool} (hvalue : value < 2^64)
    (h : encodeInteger (.ofNat value) (if neg then qDeltaBaseNeg else 0) 7 = .ok bytes) :
    ∃ first rest,bytes = first::rest ∧ (first &&& qDeltaBaseNeg != 0) = neg := by
  have hval := UInt64.toNat_ofNat_of_lt' hvalue
  have hsign : ∀ byte : UInt8,byte.toNat < 128 →
      (((if neg then qDeltaBaseNeg else 0) ||| byte) &&& qDeltaBaseNeg != 0) = neg := by
    intro byte hbyte
    cases neg with
    | true =>
      have hle : 128 ≤ (128 ||| byte).toNat := by
        rw [UInt8.toNat_or]
        exact Nat.left_le_or
      simpa [qDeltaBaseNeg] using (continued_iff _).mpr hle
    | false =>
      have hzero : ¬byte &&& 128≠0 := by rw [continued_iff]; omega
      simpa [qDeltaBaseNeg] using hzero
  rw [encodeInteger,if_pos (by omega)] at h
  split at h
  case isTrue hlt =>
    refine ⟨_,_,(Except.ok.inj h).symm,hsign _ ?_⟩
    rw [UInt64.lt_iff_toNat_lt,hval,UInt8.toNat_toUInt64,mask_toNat (by omega)] at hlt
    rw [UInt64.toNat_toUInt8,hval]
    omega
  case isFalse => exact ⟨_,_,(Except.ok.inj h).symm,hsign _ (by decide)⟩

lemma reads_delta (neg : Bool) (hvalue : value < 2^64-1) :
    ∃ bytes,encodeInteger (.ofNat value) (if neg then qDeltaBaseNeg else 0) 7 = .ok bytes ∧
      Reads readDelta bytes (neg,value) := by
  have hfree : (if neg then qDeltaBaseNeg else 0) &&& nbitMasks 7 = 0 := by
    cases neg with
    | true => rfl
    | false => rfl
  obtain ⟨bytes,henc,hreads⟩ := reads_integer (by omega) (by omega) hfree hvalue
  obtain ⟨first,tail,rfl,hsign⟩ := encodeInteger_sign (by omega) henc
  refine ⟨first::tail,henc,fun rest => ?_⟩
  have hpeek : peekNeg.run (first::tail++rest) = .ok (neg,first::tail++rest) := by
    rw [← hsign]
    rfl
  rw [readDelta,StateT.run_bind,hpeek,ok_bind,StateT.run_bind,hreads rest]
  rfl

end Read

def Recovers (maxTableSize insertCount requiredInsertCount baseIndex : ℕ) : Prop :=
  ∃ bytes,encodePrefix maxTableSize requiredInsertCount baseIndex = .ok bytes ∧
    Reads (decodePrefix maxTableSize insertCount) bytes ⟨requiredInsertCount,baseIndex⟩

/-- Every prefix with this value in front is refused. -/
def Rejects (maxTableSize insertCount wire : ℕ) : Prop :=
  ∀ bytes rest,integer 8 bytes = .ok (wire,rest) →
    ∃ err,decodePrefix maxTableSize insertCount bytes = .error (.decodeError err)

section Contract
variable {maxTableSize insertCount requiredInsertCount baseIndex wire : ℕ}

lemma encodePrefix_eq (hentries : 1 ≤ getMaxEntries maxTableSize) (hpos : 1 ≤ requiredInsertCount) :
    encodePrefix maxTableSize requiredInsertCount baseIndex = (do
      let first ← encodeInteger (.ofNat (wireRIC (getMaxEntries maxTableSize) requiredInsertCount)) 0 8
      let delta ← encodeInteger (.ofNat (if requiredInsertCount > baseIndex then
        requiredInsertCount-baseIndex-1 else baseIndex-requiredInsertCount))
        (if decide (requiredInsertCount > baseIndex) then qDeltaBaseNeg else 0) 7
      return first++delta) := by
  rw [encodePrefix,if_neg (by omega),if_neg (by omega)]
  split
  case isTrue h => simp only [h,decide_true,if_true]
  case isFalse h => simp only [h,decide_false,if_false,Bool.false_eq_true]

lemma decodeBase_encoded (hr : requiredInsertCount < 2^32) (hb : baseIndex < 2^32) :
    decodeBase requiredInsertCount (decide (requiredInsertCount > baseIndex))
      (if requiredInsertCount > baseIndex then requiredInsertCount-baseIndex-1
        else baseIndex-requiredInsertCount) =
    if baseIndex = 2^32-1 then .error (.decodeError .invalidIndex) else .ok baseIndex := by
  by_cases h : requiredInsertCount > baseIndex
  · simp only [decodeBase,h,decide_true,if_true]
    rw [if_neg (by omega),if_pos (by omega),if_neg (by omega),
      show requiredInsertCount-(requiredInsertCount-baseIndex-1)-1 = baseIndex by omega]
  · simp only [decodeBase,h,decide_false,if_false,Bool.false_eq_true]
    by_cases hmax : baseIndex = 2^32-1
    · rw [if_pos (by omega),if_pos hmax]
    · rw [if_neg (by omega),if_neg hmax,Nat.add_sub_cancel' (by omega)]

lemma getMaxEntries_lt (hsize : maxTableSize < 2^32) : getMaxEntries maxTableSize < 2^32 :=
  lt_of_le_of_lt (Nat.div_le_self _ _) hsize

variable {ric d : ℕ} {neg : Bool} {first delta : Bytes}

lemma decodePrefix_run (hfirst : Reads (integer 8) first wire)
    (hric : decodeRIC (getMaxEntries maxTableSize) insertCount wire = .ok ric)
    (hdelta : Reads readDelta delta (neg,d)) (rest : Bytes) :
    (decodePrefix maxTableSize insertCount) (first++delta++rest) =
      (decodeBase ric neg d).map fun base => (⟨ric % 2^32,base⟩,rest) := by
  have hlift : (liftM (lift (.ok ric)) : Reader Stop ℕ).run (delta++rest) = .ok (ric,delta++rest) :=
    reads_lift rfl _
  change (decodePrefix maxTableSize insertCount).run (first++delta++rest) = _
  rw [decodePrefix_eq,List.append_assoc,StateT.run_bind,hfirst,ok_bind,hric,StateT.run_bind,hlift,ok_bind,
    StateT.run_bind,hdelta,ok_bind]
  cases decodeBase ric neg d with
  | error stop => rfl
  | ok base => rfl

lemma requiredInsertCount_of_zero {bytes rest rest' : Bytes} {p : BlockPrefix}
    (hint : integer 8 bytes = .ok (0,rest)) (hok : decodePrefix maxTableSize insertCount bytes = .ok (p,rest')) :
    p.requiredInsertCount = 0 := by
  have hrun : (integer 8).run bytes = .ok (0,rest) := hint
  have hlift : (liftM (lift (decodeRIC (getMaxEntries maxTableSize) insertCount 0)) : Reader Stop ℕ).run rest =
      .ok (0,rest) := reads_lift rfl _
  change (decodePrefix maxTableSize insertCount).run bytes = _ at hok
  rw [decodePrefix_eq,StateT.run_bind,hrun,ok_bind,StateT.run_bind,hlift,ok_bind,StateT.run_bind,
    bind_eq_ok] at hok
  obtain ⟨⟨delta,tail⟩,-,hok⟩ := hok
  rw [StateT.run_bind,bind_eq_ok] at hok
  obtain ⟨⟨base,tail'⟩,-,hok⟩ := hok
  obtain ⟨rfl,-⟩ := Prod.mk.inj (Except.ok.inj hok)
  rfl

lemma recovers_iff (hentries : 1 ≤ getMaxEntries maxTableSize) (hsize : maxTableSize < 2^32)
    (hcount : insertCount < 2^32) (hr : requiredInsertCount < 2^32) (hb : baseIndex < 2^32)
    (hin : InRange (getMaxEntries maxTableSize) insertCount requiredInsertCount) :
    Recovers maxTableSize insertCount requiredInsertCount baseIndex ↔ baseIndex≠2^32-1 := by
  have hmod := Nat.mod_lt requiredInsertCount (show 0 < 2*getMaxEntries maxTableSize by omega)
  have hlt := getMaxEntries_lt hsize
  obtain ⟨first,hfirst,hreads⟩ : ∃ bytes,encodeInteger _ 0 8 = .ok bytes ∧
      Reads (integer 8) bytes (wireRIC (getMaxEntries maxTableSize) requiredInsertCount) :=
    reads_integer (by omega) le_rfl (by decide) (by rw [wireRIC]; omega)
  obtain ⟨delta,hdelta,hreads'⟩ := reads_delta (decide (requiredInsertCount > baseIndex))
    (show (if requiredInsertCount > baseIndex then requiredInsertCount-baseIndex-1
      else baseIndex-requiredInsertCount) < 2^64-1 by split <;> omega)
  have henc : encodePrefix maxTableSize requiredInsertCount baseIndex = .ok (first++delta) := by
    rw [encodePrefix_eq hentries hin.1,hfirst,hdelta]
    rfl
  have hrun := decodePrefix_run hreads (decodeRIC_wireRIC hentries hlt hcount hin) hreads'
  rw [decodeBase_encoded hr hb,Nat.mod_eq_of_lt hr] at hrun
  constructor
  · rintro ⟨bytes,hbytes,hread⟩ hmax
    obtain rfl := Except.ok.inj (henc.symm.trans hbytes)
    have := (hrun []).symm.trans (hread [])
    rw [if_pos hmax] at this
    cases this
  · intro hmax
    rw [if_neg hmax] at hrun
    exact ⟨first++delta,henc,hrun⟩

lemma rejects_iff (hentries : 1 ≤ getMaxEntries maxTableSize) (hsize : maxTableSize < 2^32)
    (hcount : insertCount < 2^32) (hwire : 1≤wire) (hmax : wire < 2^64-1)
    (hno : ∀ r,InRange (getMaxEntries maxTableSize) insertCount r → wireRIC (getMaxEntries maxTableSize) r≠wire) :
    Rejects maxTableSize insertCount wire ↔ ¬Slips (getMaxEntries maxTableSize) insertCount wire := by
  have hric := decodeRIC_other hentries (getMaxEntries_lt hsize) hcount hwire hno
  constructor
  · intro hrej hslip
    rw [if_pos hslip] at hric
    obtain ⟨first,-,hreads⟩ : ∃ bytes,encodeInteger _ 0 8 = .ok bytes ∧ Reads (integer 8) bytes wire :=
      reads_integer (by omega) le_rfl (by decide) hmax
    -- a delta base of 0 with the sign that fits the count
    obtain ⟨delta,-,hreads'⟩ := reads_delta
      (decide (0 < unwrapped (getMaxEntries maxTableSize) insertCount wire)) (show 0 < 2^64-1 by omega)
    obtain ⟨err,herr⟩ := hrej (first++delta++[]) (delta++[]) (by rw [List.append_assoc]; exact hreads _)
    rw [decodePrefix_run hreads hric hreads'] at herr
    generalize unwrapped (getMaxEntries maxTableSize) insertCount wire = ric at herr
    cases hbase : decodeBase ric (decide (0 < ric)) 0 with
    | ok base => rw [hbase] at herr; cases herr
    | error stop =>
      rw [hbase] at herr
      obtain rfl := Except.error.inj herr
      rcases Nat.eq_zero_or_pos ric with rfl | hpos
      · cases hbase
      · simp only [decodeBase,hpos,decide_true,if_true] at hbase
        rw [if_neg (by omega)] at hbase
        split at hbase <;> cases hbase
  · intro hslip bytes rest hint
    rw [if_neg hslip] at hric
    refine ⟨.invalidIndex,?_⟩
    have hrun : (integer 8).run bytes = .ok (wire,rest) := hint
    change (decodePrefix maxTableSize insertCount).run bytes = _
    rw [decodePrefix,StateT.run_bind,hrun,ok_bind,hric]
    rfl

end Contract

/-- The prefix of every header block is recovered unless the base is the largest 32-bit number, and
every value that stands for no insert count in the range is refused unless it slips through. -/
theorem decodePrefix_iff (maxTableSize insertCount : ℕ) (hentries : 1 ≤ getMaxEntries maxTableSize)
    (hsize : maxTableSize < 2^32) (hcount : insertCount < 2^32) :
    (∀ requiredInsertCount baseIndex,requiredInsertCount < 2^32 → baseIndex < 2^32 →
      InRange (getMaxEntries maxTableSize) insertCount requiredInsertCount →
      (Recovers maxTableSize insertCount requiredInsertCount baseIndex ↔ baseIndex≠2^32-1)) ∧
    (∀ wire,1 ≤ wire → wire < 2^64-1 →
      (∀ r,InRange (getMaxEntries maxTableSize) insertCount r → wireRIC (getMaxEntries maxTableSize) r≠wire) →
      (Rejects maxTableSize insertCount wire ↔ ¬Slips (getMaxEntries maxTableSize) insertCount wire)) ∧
    ∀ bytes rest p rest',integer 8 bytes = .ok (0,rest) →
      decodePrefix maxTableSize insertCount bytes = .ok (p,rest') → p.requiredInsertCount=0 := by
  refine ⟨fun _ _ hr hb hin => recovers_iff hentries hsize hcount hr hb hin,
    fun _ hwire hmax hno => rejects_iff hentries hsize hcount hwire hmax hno,?_⟩
  intro bytes rest p rest' hint hok
  exact requiredInsertCount_of_zero hint hok

theorem decodePrefix_one_entry :
    Recovers 32 3 4 2 ∧ Rejects 32 3 7 := by
  have h := decodePrefix_iff 32 3 (by decide) (by decide) (by decide)
  refine ⟨(h.1 4 2 (by decide) (by decide) ⟨by decide,by decide,by decide⟩).mpr (by decide),
    (h.2.1 7 (by decide) (by decide) ?_).mpr (by decide)⟩
  intro r _ hr
  have := Nat.mod_lt r (show 0 < 2*getMaxEntries 32 by decide)
  simp only [wireRIC] at hr
  have hentries : getMaxEntries 32 = 1 := rfl
  omega

/-- Before the first insert the value 1 passes for a block without references, and after three
inserts the largest value passes for a block that needs the first. -/
theorem decodePrefix_lets_through :
    ((∀ r,InRange 1 0 r → wireRIC 1 r≠1) ∧ ¬Rejects 32 0 1) ∧
    (∀ r,InRange 1 3 r → wireRIC 1 r≠2^64-2) ∧ ¬Rejects 32 3 (2^64-2) := by
  refine ⟨⟨?_,?_⟩,?_,?_⟩
  · rintro r ⟨h1,h2,h3⟩ hr
    obtain rfl : r=1 := by omega
    cases hr
  · intro h
    obtain ⟨err,herr⟩ := h [1,0] [0] rfl
    revert herr
    have : decodePrefix 32 0 [1,0] = .ok (⟨0,0⟩,[]) := by decide +kernel
    rw [this]
    exact nofun
  · intro r _ hr
    simp only [wireRIC] at hr
    omega
  · intro h
    obtain ⟨err,herr⟩ := h [255,255,253,255,255,255,255,255,255,255,1,0] [0] (by decide +kernel)
    revert herr
    have : decodePrefix 32 3 [255,255,253,255,255,255,255,255,255,255,1,0] = .ok (⟨1,1⟩,[]) := by
      decide +kernel
    rw [this]
    exact nofun

end QuicWestwood.QPACK
