import QuicWestwood.QpackDecoder

/-! The absolute index behind a reference, and what the decoder makes of it. Its bounds test is made modulo `2 ^
32`, a base of 0 means that indices count from the newest entry, and the required insert count of the block is
not looked at. -/
namespace QuicWestwood.QPACK
open ByteCodec HPACK QPACKHeaderTable

/-- The number of the entry that a reference stands for; 0 is the number of none. -/
def number (baseIndex wire : ℕ) (aboveBase : Bool) : ℕ :=
  if aboveBase then baseIndex+wire+1 else baseIndex-wire

def referenced (t : HeaderTable) (history : List HPACKHeader) (baseIndex requiredInsertCount wire : ℕ)
    (aboveBase : Bool) : Option HPACKHeader :=
  if Live t (number baseIndex wire aboveBase) ∧ number baseIndex wire aboveBase ≤ requiredInsertCount then
    nth history (number baseIndex wire aboveBase)
  else none

/-- The decoder finds the entry that a reference stands for, or reports `INVALID_INDEX`. -/
def Resolves (table : QPACKHeaderTable) (history : List HPACKHeader) (baseIndex requiredInsertCount wire : ℕ)
    (aboveBase : Bool) : Prop :=
  lookup table baseIndex false wire aboveBase =
    match referenced table.base history baseIndex requiredInsertCount wire aboveBase with
    | some header => .ok header
    | none => .error (.decodeError .invalidIndex)

/-- The entry is one that the block may refer to; without a base there is none behind the index;
and an index beyond the base does not come round to an entry. -/
structure Straight (t : HeaderTable) (baseIndex requiredInsertCount wire : ℕ) (aboveBase : Bool) : Prop where
  required : Live t (number baseIndex wire aboveBase) → number baseIndex wire aboveBase ≤ requiredInsertCount
  based : aboveBase=false → baseIndex=0 → t.ring.size≤wire
  below : aboveBase=false → 0<baseIndex → baseIndex<wire → wire+1 < 2^32 → ¬Live t (baseIndex+2^32-wire)

section Lookup
variable {table : QPACKHeaderTable} {history : List HPACKHeader} {baseIndex requiredInsertCount wire : ℕ}
  {aboveBase : Bool}

lemma not_live_zero (h : Numbered table.base history) : ¬Live table.base 0 := by
  have := h.size_le
  rintro ⟨hlow,-⟩
  omega

lemma referenced_of_not_live (h : ¬Live table.base (number baseIndex wire aboveBase)) :
    referenced table.base history baseIndex requiredInsertCount wire aboveBase = none :=
  if_neg fun hcon => h hcon.1

lemma resolves_of_invalid (h : ¬Live table.base (number baseIndex wire aboveBase))
    (hinvalid : isValid table baseIndex false ((wire+1) % 2^64) aboveBase = false) :
    Resolves table history baseIndex requiredInsertCount wire aboveBase := by
  rw [Resolves,referenced_of_not_live h,lookup,hinvalid]
  rfl

lemma resolves_iff_of_valid {header : HPACKHeader} {n : ℕ}
    (hvalid : isValid table baseIndex false ((wire+1) % 2^64) aboveBase)
    (hheader : getHeader table false ((wire+1) % 2^64) baseIndex aboveBase = .ok header)
    (hn : nth history n = some header) (hlive : Live table.base (number baseIndex wire aboveBase) →
      number baseIndex wire aboveBase = n) :
    Resolves table history baseIndex requiredInsertCount wire aboveBase ↔
      Live table.base (number baseIndex wire aboveBase) ∧ number baseIndex wire aboveBase ≤ requiredInsertCount := by
  rw [Resolves,lookup,if_pos hvalid,hheader]
  by_cases hin : Live table.base (number baseIndex wire aboveBase) ∧
      number baseIndex wire aboveBase ≤ requiredInsertCount
  · have hsome : referenced table.base history baseIndex requiredInsertCount wire aboveBase = some header :=
      (if_pos hin).trans (hlive hin.1 ▸ hn)
    rw [hsome]
    exact iff_of_true rfl hin
  · have hnone : referenced table.base history baseIndex requiredInsertCount wire aboveBase = none := if_neg hin
    rw [hnone]
    exact iff_of_false nofun hin

lemma wire_add_one (hwire : wire < 2^64-1) : (wire+1) % 2^64 = wire+1 := Nat.mod_eq_of_lt (by omega)

section
variable (h : Numbered table.base history) (hcount : table.base.insertCount < 2^32)
include h hcount

lemma resolves_above
    (hwire : wire < 2^64-1) :
    Resolves table history baseIndex requiredInsertCount wire true ↔
      (Live table.base (baseIndex+wire+1) → baseIndex+wire+1 ≤ requiredInsertCount) := by
  have hnumber : number baseIndex wire true = baseIndex+wire+1 := rfl
  by_cases hsmall : baseIndex+(wire+1) ≤ 2^32-1
  · have hbase : 0 < baseIndex+(wire+1) := by omega
    have habs : absolute 1 (baseIndex+(wire+1)) = baseIndex+wire+1 := by rw [absolute]; omega
    have hvalid : isValid table baseIndex false (wire+1) true = table.isValid 1 (baseIndex+(wire+1)) := by
      rw [isValid,if_neg (by omega),if_neg Bool.false_ne_true,if_pos rfl,if_neg (by omega)]
    by_cases hlive : Live table.base (baseIndex+wire+1)
    · obtain ⟨header,hnth,hget⟩ := getHeader_of_live h hcount hbase (habs.symm ▸ hlive)
      rw [habs] at hnth
      have hheader : getHeader table false ((wire+1) % 2^64) baseIndex true = .ok header := by
        rw [wire_add_one hwire,getHeader,if_neg Bool.false_ne_true,if_pos rfl,if_pos (by omega),hget]
      rw [resolves_iff_of_valid ?_ hheader hnth fun _ => rfl,hnumber]
      · exact ⟨fun hin _ => hin.2,fun hin => ⟨hlive,hin hlive⟩⟩
      · rw [wire_add_one hwire,hvalid,isValid_iff_live h hcount hbase,habs]
        exact hlive
    · refine iff_of_true (resolves_of_invalid (hnumber ▸ hlive) ?_) fun hcon => absurd hcon hlive
      rw [wire_add_one hwire,hvalid,← Bool.not_eq_true,isValid_iff_live h hcount hbase,habs]
      exact hlive
  · have hlive : ¬Live table.base (baseIndex+wire+1) := by
      rintro ⟨-,hle⟩
      omega
    refine iff_of_true (resolves_of_invalid (hnumber ▸ hlive) ?_) fun hcon => absurd hcon hlive
    rw [wire_add_one hwire,isValid]
    split
    case isTrue => rfl
    case isFalse => rw [if_neg Bool.false_ne_true,if_pos rfl,if_pos (by omega)]

lemma resolves_below
    (hbase : 0<baseIndex) (hbase' : baseIndex < 2^32) (hwire : wire < 2^64-1) :
    Resolves table history baseIndex requiredInsertCount wire false ↔
      (Live table.base (baseIndex-wire) → baseIndex-wire ≤ requiredInsertCount) ∧
      (baseIndex<wire → wire+1 < 2^32 → ¬Live table.base (baseIndex+2^32-wire)) := by
  have hnumber : number baseIndex wire false = baseIndex-wire := rfl
  have hzero := not_live_zero h
  by_cases hsmall : wire+1 < 2^32
  · have hvalid : isValid table baseIndex false (wire+1) false = table.isValid (wire+1) baseIndex := by
      rw [isValid,if_neg (by omega),if_neg Bool.false_ne_true,if_neg Bool.false_ne_true]
    -- an index beyond the base comes round
    have habs : absolute (wire+1) baseIndex =
        if baseIndex<wire then baseIndex+2^32-wire else baseIndex-wire := by
      rw [absolute]
      split <;> omega
    by_cases hlive : Live table.base (absolute (wire+1) baseIndex)
    · obtain ⟨header,hnth,hget⟩ := getHeader_of_live h hcount hbase hlive
      have hheader : getHeader table false ((wire+1) % 2^64) baseIndex false = .ok header := by
        rw [wire_add_one hwire,getHeader,if_neg Bool.false_ne_true,if_neg Bool.false_ne_true,hget]
      rcases Nat.lt_or_ge baseIndex wire with hlt | hge
      · rw [show baseIndex-wire = 0 by omega] at hnumber ⊢
        rw [resolves_iff_of_valid ?_ hheader hnth fun hcon => absurd (hnumber ▸ hcon) hzero,hnumber]
        · rw [habs,if_pos hlt] at hlive
          exact iff_of_false (fun hcon => hzero hcon.1) fun hcon => hcon.2 hlt hsmall hlive
        · rw [wire_add_one hwire,hvalid,isValid_iff_live h hcount hbase]
          exact hlive
      · rw [habs,if_neg (by omega)] at hlive hnth
        rw [resolves_iff_of_valid ?_ hheader hnth fun _ => rfl,hnumber]
        · exact ⟨fun hin => ⟨fun _ => hin.2,fun hcon => by omega⟩,fun hin => ⟨hlive,hin.1 hlive⟩⟩
        · rw [wire_add_one hwire,hvalid,isValid_iff_live h hcount hbase,habs,if_neg (by omega)]
          exact hlive
    · have hinvalid : isValid table baseIndex false ((wire+1) % 2^64) false = false := by
        rw [wire_add_one hwire,hvalid,← Bool.not_eq_true,isValid_iff_live h hcount hbase]
        exact hlive
      rcases Nat.lt_or_ge baseIndex wire with hlt | hge
      · rw [show baseIndex-wire = 0 by omega] at hnumber ⊢
        rw [habs,if_pos hlt] at hlive
        exact iff_of_true (resolves_of_invalid (hnumber ▸ hzero) hinvalid)
          ⟨fun hcon => absurd hcon hzero,fun _ _ => hlive⟩
      · rw [habs,if_neg (by omega)] at hlive
        exact iff_of_true (resolves_of_invalid (hnumber ▸ hlive) hinvalid)
          ⟨fun hcon => absurd hcon hlive,fun hcon => by omega⟩
  · rw [show baseIndex-wire = 0 by omega] at hnumber ⊢
    refine iff_of_true (resolves_of_invalid (hnumber ▸ hzero) ?_)
      ⟨fun hcon => absurd hcon hzero,fun _ hcon => absurd hcon hsmall⟩
    rw [wire_add_one hwire,isValid,if_pos (by omega)]

lemma resolves_zero
    (hwire : wire < 2^64-1) :
    Resolves table history 0 requiredInsertCount wire false ↔ table.base.ring.size≤wire := by
  have hnumber : number 0 wire false = 0 := Nat.zero_sub wire
  have hzero := not_live_zero h
  have hsize := h.size_le
  rcases Nat.lt_or_ge wire table.base.ring.size with hlt | hge
  · obtain ⟨hvalid,header,hnth,hget⟩ := getHeader_of_zero h (show 1 ≤ wire+1 by omega) hlt
    have hheader : getHeader table false ((wire+1) % 2^64) 0 false = .ok header := by
      rw [wire_add_one hwire,getHeader,if_neg Bool.false_ne_true,if_neg Bool.false_ne_true,hget]
    rw [resolves_iff_of_valid ?_ hheader hnth fun hcon => absurd (hnumber ▸ hcon) hzero,hnumber]
    · exact iff_of_false (fun hcon => hzero hcon.1) (by omega)
    · rw [wire_add_one hwire,isValid,if_neg (by omega),if_neg Bool.false_ne_true,if_neg Bool.false_ne_true]
      exact hvalid
  · refine iff_of_true (resolves_of_invalid (by rwa [hnumber]) ?_) hge
    rw [wire_add_one hwire,isValid]
    split
    case isTrue => rfl
    case isFalse =>
      rw [if_neg Bool.false_ne_true,if_neg Bool.false_ne_true,QPACKHeaderTable.isValid,if_neg (by omega),
        HeaderTable.isValid]
      exact decide_eq_false (by omega)

lemma resolves_iff
    (hbase : baseIndex < 2^32) (hwire : wire < 2^64-1) :
    Resolves table history baseIndex requiredInsertCount wire aboveBase ↔
      Straight table.base baseIndex requiredInsertCount wire aboveBase := by
  cases aboveBase with
  | true =>
    rw [resolves_above h hcount hwire]
    refine ⟨fun hreq => ⟨hreq,?_,?_⟩,fun hs => hs.required⟩
    · exact nofun
    · exact nofun
  | false =>
    rcases Nat.eq_zero_or_pos baseIndex with rfl | hpos
    · rw [resolves_zero h hcount hwire]
      refine ⟨fun hle => ⟨fun hlive => ?_,fun _ _ => hle,fun _ hcon => by omega⟩,fun hs => hs.based rfl rfl⟩
      rw [show number 0 wire false = 0 from Nat.zero_sub wire] at hlive
      exact absurd hlive (not_live_zero h)
    · rw [resolves_below h hcount hpos hbase hwire]
      exact ⟨fun hs => ⟨hs.1,fun _ hcon => by omega,fun _ _ => hs.2⟩,
        fun hs => ⟨hs.required,hs.below rfl hpos⟩⟩

lemma lookup_ne_checkFailed
    (isStatic : Bool) : lookup table baseIndex isStatic wire aboveBase≠.error .checkFailed := by
  rw [lookup]
  split
  case isFalse => exact nofun
  case isTrue hvalid =>
    suffices ∃ header,getHeader table isStatic ((wire+1) % 2^64) baseIndex aboveBase = .ok header by
      obtain ⟨header,hheader⟩ := this
      rw [hheader]
      exact nofun
    rw [isValid] at hvalid
    rw [getHeader]
    split at hvalid
    case isTrue => cases hvalid
    case isFalse hindex =>
    cases isStatic with
    | true =>
      obtain ⟨header,-,hheader⟩ := HeaderTable.getHeader_eq hvalid
      exact ⟨header,hheader⟩
    | false =>
      rw [if_neg Bool.false_ne_true] at hvalid ⊢
      cases aboveBase with
      | true =>
        rw [if_pos rfl] at hvalid ⊢
        split at hvalid
        case isTrue => cases hvalid
        case isFalse hsum =>
          rw [if_pos (by omega)]
          exact getHeader_of_isValid h hcount hvalid
      | false => exact getHeader_of_isValid h hcount hvalid

end

end Lookup

section Instruction
variable {table : QPACKHeaderTable} {baseIndex wire prefixLength : ℕ} {aboveBase : Bool} {bytes rest : Bytes}

lemma integer_lt (h : integer prefixLength bytes = .ok (wire,rest)) : wire < 2^64-1 := by
  rw [integer] at h
  split at h
  case h_1 => cases h
  case h_2 value rest' hdec =>
    obtain ⟨rfl,-⟩ := Prod.mk.inj (Except.ok.inj h)
    exact decodeInteger_lt hdec

lemma decodeIndexedHeaderQ_eq (h : integer prefixLength bytes = .ok (wire,rest))
    (hdynamic : (!aboveBase && peekBit prefixLength bytes) = false) :
    decodeIndexedHeaderQ table baseIndex prefixLength aboveBase bytes =
      (lookup table baseIndex false wire aboveBase).map fun header => (header,rest) := by
  have hlt := integer_lt h
  rw [decodeIndexedHeaderQ,h,ok_bind,hdynamic]
  simp only [show wire≠2^64-1 by omega,if_false]
  rfl

lemma decodeName_eq (maxUncompressed : ℕ) (h : integer prefixLength bytes = .ok (wire,rest))
    (hdynamic : (!aboveBase && peekBit prefixLength bytes) = false) :
    decodeName table baseIndex maxUncompressed true prefixLength aboveBase bytes =
      (lookup table baseIndex false wire aboveBase).map fun header => (header.name,rest) := by
  rw [decodeName,if_pos rfl,h,ok_bind,hdynamic]
  rfl

end Instruction

/-- References resolve as they should exactly when the entry found is one that the block may refer
to, the base is not 0 and the index does not come round. An indexed header and a name reference
are resolved alike. -/
theorem references_resolve_iff (table : QPACKHeaderTable) (history : List HPACKHeader)
    (h : Numbered table.base history) (hcount : table.base.insertCount < 2^32)
    (baseIndex requiredInsertCount : ℕ) (hbase : baseIndex < 2^32) :
    (∀ wire aboveBase,wire < 2^64-1 → (Resolves table history baseIndex requiredInsertCount wire aboveBase ↔
        Straight table.base baseIndex requiredInsertCount wire aboveBase)) ∧
    ∀ prefixLength aboveBase bytes wire rest,integer prefixLength bytes = .ok (wire,rest) →
      (!aboveBase && peekBit prefixLength bytes) = false → wire < 2^64-1 ∧
      decodeIndexedHeaderQ table baseIndex prefixLength aboveBase bytes =
        (lookup table baseIndex false wire aboveBase).map (fun header => (header,rest)) ∧
      ∀ maxUncompressed,decodeName table baseIndex maxUncompressed true prefixLength aboveBase bytes =
        (lookup table baseIndex false wire aboveBase).map fun header => (header.name,rest) :=
  ⟨fun _ _ hwire => resolves_iff h hcount hbase hwire,fun _ _ _ _ _ hint hdynamic =>
    ⟨integer_lt hint,decodeIndexedHeaderQ_eq hint hdynamic,fun _ => decodeName_eq _ hint hdynamic⟩⟩

def oneEntry : QPACKHeaderTable :=
  (init 4096 false).withBase ((init 4096 false).base.add ⟨[97],[98]⟩).2

lemma numbered_oneEntry : Numbered oneEntry.base [⟨[97],[98]⟩] := by
  have hinit : Numbered (init 4096 false).base [] :=
    ⟨{HeaderTable.init_wellFormed 4096 with names_eq := nofun},rfl, List.nil_prefix⟩
  exact (hinit.add (by decide)).2

theorem references_resolve_one_entry :
    Resolves oneEntry [⟨[97],[98]⟩] 1 1 0 false ∧ Resolves oneEntry [⟨[97],[98]⟩] 0 1 0 true := by
  have h := references_resolve_iff oneEntry [⟨[97],[98]⟩] numbered_oneEntry (by decide)
  refine ⟨((h 1 1 (by decide)).1 0 false (by decide)).mpr ⟨?_,?_,?_⟩,
    ((h 0 1 (by decide)).1 0 true (by decide)).mpr ⟨?_,?_,?_⟩⟩
  all_goals decide

/-- A block without a base resolves an index to the newest entry; a block reaches an entry that it
does not require; and an index beyond the base comes round to an entry. -/
theorem references_resolve_astray :
    ¬Resolves oneEntry [⟨[97],[98]⟩] 0 0 0 false ∧ ¬Resolves oneEntry [⟨[97],[98]⟩] 1 0 0 false ∧
    ¬Resolves (oneEntry.withBase ((oneEntry.base.add ⟨[99],[]⟩).2.add ⟨[100],[]⟩).2)
      [⟨[97],[98]⟩,⟨[99],[]⟩,⟨[100],[]⟩] 1 1 (2^32-2) false := by
  refine ⟨?_,?_,?_⟩
  all_goals
    rw [Resolves]
    decide +kernel

end QuicWestwood.QPACK
