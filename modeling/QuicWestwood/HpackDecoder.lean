import QuicWestwood.HttpMessage
import QuicWestwood.QpackDecoder

/-! Indices first run through the static table and then through the dynamic one, the newest entry first. An
index is a 64-bit number on the wire, but the bounds test and the lookup take 32 bits of it. -/
namespace QuicWestwood.HPACK
open ByteCodec
open QPACK (Stop integer literal peekBit integer_ne_checkFailed literal_ne_checkFailed bind_ne_checkFailed)

/-! ## Lookups -/

section
variable (table : HeaderTable)

def isStatic (index : ℕ) : Bool := index ≤ staticTable.ring.size

def isValid (index : ℕ) : Bool :=
  if isStatic index then staticTable.isValid index else table.isValid (index-staticTable.ring.size)

def getHeader (index : ℕ) : Except Failure HPACKHeader :=
  if isStatic index then staticTable.getHeader index else table.getHeader (index-staticTable.ring.size)

/-- The argument of `isValid` and `getHeader` is a `uint32_t`. -/
def lookup (index : ℕ) : Except Stop HPACKHeader :=
  if isValid table (index % 2^32) then (getHeader table (index % 2^32)).mapError fun _ => .checkFailed
  else .error (.decodeError .invalidIndex)

/-! ## Instructions -/

structure Turn where
  table : HeaderTable
  emitted : Option HPACKHeader
  rest : Bytes

def decodeIndexedHeader (bytes : Bytes) : Except Stop Turn := do
  let (index,rest) ← integer 7 bytes
  if index=0 then throw (.decodeError .invalidIndex)
  let header ← lookup table index
  return ⟨table,some header,rest⟩

/-- The low bits of the first byte, which say whether the name is an index. -/
def lowBits (nbit : ℕ) : Bytes → ℕ
  | [] => 0
  | byte::_ => byte.toNat % 2^nbit

variable (maxUncompressed : ℕ)

def decodeName (length : ℕ) (bytes : Bytes) : Except Stop (Bytes × Bytes) := do
  if lowBits length bytes≠0 then
    let (index,rest) ← integer length bytes
    let header ← lookup table index
    return (header.name,rest)
  else
    let (name,rest) ← literal maxUncompressed 7 (bytes.drop 1)
    return (headerName name,rest)

/-- The end of `decodeLiteralHeader`; an entry can only be refused because it is too large. -/
def emitLiteral (indexing : Bool) (header : HPACKHeader) (rest : Bytes) : Except Stop Turn :=
  if indexing then
    if (table.add header).1 || table.capacity < header.bytes then .ok ⟨(table.add header).2,some header,rest⟩
    else .error .checkFailed
  else .ok ⟨table,some header,rest⟩

def decodeValue (indexing : Bool) (name rest : Bytes) : Except Stop Turn := do
  let (value,rest) ← literal maxUncompressed 7 rest
  emitLiteral table indexing ⟨name,value⟩ rest

def decodeLiteralHeader (bytes : Bytes) : Except Stop Turn := do
  let indexing := peekBit 6 bytes
  let (name,rest) ← decodeName table maxUncompressed (if indexing then 6 else 4) bytes
  decodeValue table maxUncompressed indexing name rest

def handleTableSizeUpdate (maxTableSize : ℕ) (bytes : Bytes) : Except Stop Turn := do
  let (size,rest) ← integer 5 bytes
  if size > maxTableSize then throw (.decodeError .invalidTableSize)
  return ⟨(table.setCapacity size).2,none,rest⟩

def decodeHeader (maxTableSize : ℕ) (bytes : Bytes) : Except Stop Turn :=
  if peekBit 7 bytes then decodeIndexedHeader table bytes
  else if peekBit 6 bytes then decodeLiteralHeader table maxUncompressed bytes
  else if peekBit 5 bytes then handleTableSizeUpdate table maxTableSize bytes
  else decodeLiteralHeader table maxUncompressed bytes

end

/-! ## Header blocks -/

/-- The headers emitted, their size, the table behind them and why the loop has ended early. -/
structure Decoded where
  headers : List HPACKHeader
  emittedSize : ℕ
  table : HeaderTable
  stop : Option Stop

def Decoded.cons (emitted : Option HPACKHeader) (r : Decoded) : Decoded :=
  {r with headers := emitted.toList++r.headers}

/-- The loop of `decodeStreaming`; each turn takes a byte at least. The size limit is checked
after a failed turn too. -/
def decodeHeaders (maxTableSize maxUncompressed : ℕ) : ℕ → ℕ → HeaderTable → Bytes → Decoded
  | 0, emittedSize, table, _ => ⟨[],emittedSize,table,none⟩
  | fuel+1, emittedSize, table, bytes =>
    if bytes=[] then ⟨[],emittedSize,table,none⟩
    else
      match decodeHeader table maxUncompressed maxTableSize bytes with
      | .error .checkFailed => ⟨[],emittedSize,table,some .checkFailed⟩
      | .error (.decodeError err) =>
        ⟨[],emittedSize,table,
          some (.decodeError (if emittedSize > maxUncompressed then .headersTooLarge else err))⟩
      | .ok turn =>
        let size := (emittedSize+(turn.emitted.map HPACKHeader.realBytes).getD 0) % 2^32
        if size > maxUncompressed then ⟨turn.emitted.toList,size,turn.table,some (.decodeError .headersTooLarge)⟩
        else .cons turn.emitted (decodeHeaders maxTableSize maxUncompressed fuel ((size+2) % 2^32) turn.table turn.rest)

structure HPACKDecoder where
  table : HeaderTable
  maxTableSize : ℕ
  maxUncompressed : ℕ
  err : Option DecodeError

namespace HPACKDecoder

def init (tableSize maxUncompressed : ℕ) : HPACKDecoder :=
  ⟨(HeaderTable.init tableSize).disableNamesIndex,tableSize,maxUncompressed,none⟩

/-- The fields that the callback receives and how the block ends. An error is never cleared. -/
def decodeStreaming (d : HPACKDecoder) (bytes : Bytes) :
    HPACKDecoder × List HPACKHeader × Except Stop HTTP.HTTPHeaderSize :=
  match d.err with
  | some err => (d,[],.error (.decodeError err))
  | none =>
    let r := decodeHeaders d.maxTableSize d.maxUncompressed bytes.length 0 d.table bytes
    match r.stop with
    | some (.decodeError err) => ({d with table := r.table, err := some err},r.headers,.error (.decodeError err))
    | some .checkFailed => ({d with table := r.table},r.headers,.error .checkFailed)
    | none => ({d with table := r.table},r.headers,.ok ⟨bytes.length,bytes.length,r.emittedSize⟩)

def setHeaderTableMaxSize (d : HPACKDecoder) (maxSize : ℕ) : HPACKDecoder :=
  {d with
    maxTableSize := maxSize
    table := if maxSize<d.table.capacity then (d.table.setCapacity maxSize).2 else d.table}

end HPACKDecoder

/-! ## What an index stands for -/

def tables (table : HeaderTable) : List HPACKHeader := staticEntries staticTableEntries++table.entries

/-- The decoder finds the entry with this number, counted from 1, or reports `INVALID_INDEX`. -/
def Resolves (table : HeaderTable) (index : ℕ) : Prop :=
  lookup table index = match if index=0 then none else (tables table)[index-1]? with
    | some header => .ok header
    | none => .error (.decodeError .invalidIndex)

section
variable {table : HeaderTable} {index : ℕ}

lemma entries_staticTable : staticTable.entries = staticEntries staticTableEntries :=
  entries_staticHeaderTable _

lemma size_staticTable : staticTable.ring.size=61 := by
  have hlength : staticTable.entries.length=61 := by
    rw [entries_staticTable]
    rfl
  rwa [HeaderTable.entries,Ring.length_toList] at hlength

lemma isValid_iff : isValid table index ↔ 0 < index ∧ index ≤ (tables table).length := by
  have hlength : (tables table).length = 61+table.entries.length := by
    rw [tables,List.length_append,← entries_staticTable,HeaderTable.entries,Ring.length_toList,size_staticTable]
  rw [isValid,hlength]
  split_ifs with hstatic
  · rw [HeaderTable.isValid_iff,HeaderTable.entries,Ring.length_toList]
    simp only [isStatic,decide_eq_true_eq,size_staticTable] at hstatic
    rw [size_staticTable]
    omega
  · rw [HeaderTable.isValid_iff]
    simp only [isStatic,decide_eq_true_eq,size_staticTable] at hstatic ⊢
    omega

lemma getHeader_of_isValid (h : isValid table index) :
    ∃ header,(tables table)[index-1]? = some header ∧ getHeader table index = .ok header := by
  have hlength : (staticEntries staticTableEntries).length = 61 := rfl
  rw [isValid] at h
  rw [getHeader,tables]
  split_ifs at h ⊢ with hstatic
  · obtain ⟨header,hentry,hget⟩ := HeaderTable.getHeader_eq h
    rw [entries_staticTable] at hentry
    refine ⟨header,?_,hget⟩
    rw [List.getElem?_append_left,hentry]
    exact (List.getElem?_eq_some_iff.mp hentry).1
  · obtain ⟨header,hentry,hget⟩ := HeaderTable.getHeader_eq h
    simp only [isStatic,decide_eq_true_eq,size_staticTable] at hstatic hentry hget ⊢
    refine ⟨header,?_,hget⟩
    rw [List.getElem?_append_right (by omega),hlength,← hentry]
    congr 1

lemma lookup_of_small (h : index < 2^32) : Resolves table index := by
  rw [Resolves,lookup,Nat.mod_eq_of_lt h]
  by_cases hvalid : isValid table index = true
  · obtain ⟨header,hentry,hget⟩ := getHeader_of_isValid hvalid
    rw [if_pos hvalid,if_neg (by have := isValid_iff.mp hvalid; omega),hentry,hget]
    rfl
  · rw [if_neg hvalid]
    have hnot := mt isValid_iff.mpr hvalid
    split_ifs with hzero
    · rfl
    · rw [List.getElem?_eq_none (by omega)]

lemma resolves_iff (h : (tables table).length < 2^32) :
    Resolves table index ↔ index < 2^32 ∨ ¬(0 < index % 2^32 ∧ index % 2^32 ≤ (tables table).length) := by
  rw [← isValid_iff]
  rcases Nat.lt_or_ge index (2^32) with hsmall | hlarge
  · exact iff_of_true (lookup_of_small hsmall) (.inl hsmall)
  · rw [Resolves,lookup,if_neg (show index≠0 by omega),List.getElem?_eq_none (by omega)]
    by_cases hvalid : isValid table (index % 2^32) = true
    · obtain ⟨header,-,hget⟩ := getHeader_of_isValid hvalid
      rw [if_pos hvalid,hget]
      refine iff_of_false nofun fun hor => ?_
      exact hor.elim (fun hlt => absurd hlt (by omega)) fun hnot => hnot hvalid
    · rw [if_neg hvalid]
      exact iff_of_true rfl (.inr hvalid)

lemma length_tables_lt (h : table.WellFormed) (hcapacity : table.capacity < 2^32) : (tables table).length < 2^32 := by
  have hbound := HeaderTable.length_le_total table.entries
  have hbytes := h.bytes_le
  rw [h.bytes_eq] at hbytes
  rw [tables,List.length_append,show (staticEntries staticTableEntries).length = 61 from rfl]
  omega

end

section
variable {table : HeaderTable} {index maxUncompressed maxTableSize : ℕ} {bytes rest : Bytes}

lemma decodeHeader_indexed (hbit : peekBit 7 bytes = true) (h : integer 7 bytes = .ok (index,rest)) :
    decodeHeader table maxUncompressed maxTableSize bytes =
      (lookup table index).map fun header => ⟨table,some header,rest⟩ := by
  rw [decodeHeader,if_pos hbit,decodeIndexedHeader,h,ok_bind]
  by_cases hzero : index=0
  · have hinvalid : isValid table (0 % 2^32) = false := by
      rw [Bool.eq_false_iff,ne_eq,isValid_iff]
      omega
    rw [hzero,lookup,hinvalid]
    rfl
  · simp only [hzero,if_false]
    cases lookup table index <;> rfl

def IsNameReference (length : ℕ) (bytes : Bytes) : Prop :=
  peekBit 7 bytes = false ∧ lowBits length bytes≠0 ∧
    (length=6 ∧ peekBit 6 bytes = true ∨ length=4 ∧ peekBit 6 bytes = false ∧ peekBit 5 bytes = false)

lemma decodeHeader_nameReference {length : ℕ} (hform : IsNameReference length bytes)
    (h : integer length bytes = .ok (index,rest)) :
    decodeHeader table maxUncompressed maxTableSize bytes =
      (lookup table index).bind fun header => decodeValue table maxUncompressed (peekBit 6 bytes) header.name rest := by
  obtain ⟨hseven,hlow,hform⟩ := hform
  have hliteral : decodeHeader table maxUncompressed maxTableSize bytes = decodeLiteralHeader table maxUncompressed bytes := by
    rw [decodeHeader,if_neg (by simp [hseven])]
    rcases hform with ⟨-,hsix⟩ | ⟨-,hsix,hfive⟩
    · rw [if_pos hsix]
    · rw [if_neg (by simp [hsix]),if_neg (by simp [hfive])]
  have hlength : (if peekBit 6 bytes then 6 else 4) = length := by
    rcases hform with ⟨rfl,hsix⟩ | ⟨rfl,hsix,-⟩
    · rw [if_pos hsix]
    · rw [if_neg (by simp [hsix])]
  rw [hliteral,decodeLiteralHeader]
  simp only [hlength]
  rw [decodeName,if_pos hlow,h,ok_bind]
  dsimp only
  cases lookup table index <;> rfl

end

/-- An index is resolved as it should be unless it only fits in more than 32 bits and its low bits
are the number of an entry. An indexed header and a name reference are resolved alike, and a
failed lookup ends the instruction. -/
theorem indices_resolve_iff (table : HeaderTable) (h : table.WellFormed) (hcapacity : table.capacity < 2^32)
    (maxUncompressed maxTableSize : ℕ) :
    (∀ index,Resolves table index ↔ index < 2^32 ∨ ¬(0 < index % 2^32 ∧ index % 2^32 ≤ (tables table).length)) ∧
    (∀ bytes index rest,peekBit 7 bytes = true → integer 7 bytes = .ok (index,rest) →
      decodeHeader table maxUncompressed maxTableSize bytes =
        (lookup table index).map fun header => ⟨table,some header,rest⟩) ∧
    ∀ length bytes index rest,IsNameReference length bytes → integer length bytes = .ok (index,rest) →
      decodeHeader table maxUncompressed maxTableSize bytes =
        (lookup table index).bind fun header => decodeValue table maxUncompressed (peekBit 6 bytes) header.name rest :=
  ⟨fun _ => resolves_iff (length_tables_lt h hcapacity),fun _ _ _ => decodeHeader_indexed,
    fun _ _ _ _ => decodeHeader_nameReference⟩

theorem indices_resolve_empty_table :
    Resolves (HeaderTable.init 4096) 62 ∧ lookup (HeaderTable.init 4096) 62 = .error (.decodeError .invalidIndex) := by
  have h := indices_resolve_iff (HeaderTable.init 4096) (HeaderTable.init_wellFormed 4096) (by decide) 100 4096
  exact ⟨(h.1 62).mpr (.inl (by decide)),by decide +kernel⟩

/-- The index `2 ^ 32 + 2` finds the second entry of the static table. -/
theorem indices_resolve_truncated : ¬Resolves (HeaderTable.init 4096) (2^32+2) := by
  rw [Resolves]
  decide +kernel

end QuicWestwood.HPACK
