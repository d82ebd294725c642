import QuicWestwood.QpackReference
import QuicWestwood.Run
import QuicWestwood.Sweep

/-! Every block that is not cancelled is to be answered once, as soon as the inserts it needs have arrived. The
decoder drops a block of which only the prefix has bytes, stops draining at the first block that fails, drains
nothing when the encoder stream ends inside an instruction, and goes on counting the bytes of cancelled blocks.
-/
namespace QuicWestwood.QPACK
open ByteCodec HPACK QPACKHeaderTable QPACKDecoder List

def TableSound (t : QPACKHeaderTable) : Prop :=
  Untracked t ∧ t.base.insertCount < 2^32 ∧ ∃ history,Numbered t.base history

section Checks
variable {table : QPACKHeaderTable} {baseIndex maxUncompressed : ℕ} {bytes : Bytes}

lemma tableSound_init (capacityVal : ℕ) : TableSound (.init capacityVal false) := by
  refine ⟨⟨rfl,rfl,rfl⟩,show 0 < 2^32 by decide,[],?_,rfl, nil_prefix⟩
  exact {HeaderTable.init_wellFormed capacityVal with names_eq := nofun}

section
variable (h : TableSound table)
include h

lemma decodeIndexedHeaderQ_ne_checkFailed (prefixLength : ℕ) (aboveBase : Bool) :
    decodeIndexedHeaderQ table baseIndex prefixLength aboveBase bytes≠.error .checkFailed := by
  obtain ⟨-,hcount,history,hnum⟩ := h
  refine bind_ne_checkFailed (integer_ne_checkFailed _ _) fun r hr => ?_
  have hlt := integer_lt hr
  simp only [show r.1≠2^64-1 by omega,if_false]
  exact bind_ne_checkFailed (lookup_ne_checkFailed hnum hcount _) nofun

lemma decodeName_ne_checkFailed (nameIndexed : Bool) (prefixLength : ℕ) (aboveBase : Bool) :
    decodeName table baseIndex maxUncompressed nameIndexed prefixLength aboveBase bytes≠.error .checkFailed := by
  obtain ⟨-,hcount,history,hnum⟩ := h
  rw [decodeName]
  split
  · refine bind_ne_checkFailed (integer_ne_checkFailed _ _) fun r _ => ?_
    exact bind_ne_checkFailed (lookup_ne_checkFailed hnum hcount _) fun _ _ hcon => by cases hcon
  · exact bind_ne_checkFailed (literal_ne_checkFailed _ _ _) fun _ _ hcon => by cases hcon

lemma decodeLiteralHeaderQ_ne_checkFailed (nameIndexed : Bool) (prefixLength : ℕ)
    (aboveBase : Bool) :
    decodeLiteralHeaderQ table baseIndex maxUncompressed nameIndexed prefixLength aboveBase bytes ≠
      .error .checkFailed := by
  refine bind_ne_checkFailed (decodeName_ne_checkFailed h _ _ _) fun r _ => ?_
  exact bind_ne_checkFailed (literal_ne_checkFailed _ _ _) nofun

lemma decodeHeaderQ_ne_checkFailed :
    decodeHeaderQ table baseIndex maxUncompressed bytes≠.error .checkFailed := by
  rw [decodeHeaderQ]
  split_ifs
  · exact decodeIndexedHeaderQ_ne_checkFailed h _ _
  · exact decodeLiteralHeaderQ_ne_checkFailed h _ _ _
  · exact decodeLiteralHeaderQ_ne_checkFailed h _ _ _
  · exact decodeIndexedHeaderQ_ne_checkFailed h _ _
  · exact decodeLiteralHeaderQ_ne_checkFailed h _ _ _

lemma decodeHeaders_ne_checkFailed (fuel emittedSize : ℕ) (bytes : Bytes) :
    (decodeHeaders table baseIndex maxUncompressed fuel emittedSize bytes).stop≠some .checkFailed := by
  induction fuel generalizing emittedSize bytes with
  | zero => exact nofun
  | succ fuel ih =>
    rw [decodeHeaders]
    split
    · exact nofun
    split
    case h_1 hdec => exact absurd hdec (decodeHeaderQ_ne_checkFailed h)
    case h_2 => exact nofun
    case h_3 header rest _ =>
      split
      · exact nofun
      · exact ih _ rest

lemma add_tableSound (header : HPACKHeader) :
    ∃ added table',table.add header = .ok (added,table') ∧ TableSound table' ∧
      table.base.insertCount ≤ table'.base.insertCount := by
  obtain ⟨hun,hcount,history,hnum⟩ := h
  by_cases hfull : table.base.insertCount=unacked
  · refine ⟨false,table,?_,⟨hun,hcount,history,hnum⟩,le_rfl⟩
    rw [add,if_pos hfull]
  · have hlt : table.base.insertCount<unacked := by
      rw [unacked] at hfull ⊢
      omega
    obtain ⟨table',hadd,hun',hbase⟩ := add_untracked hun hnum.wellFormed hlt header
    refine ⟨_,table',hadd,?_⟩
    by_cases hfits : header.bytes≤table.base.capacity
    · have hnum' := (hnum.add hfits).2
      rw [← hbase] at hnum'
      have hnext : table'.base.insertCount = table.base.insertCount+1 := by
        rw [← hnum'.length_eq,length_append,hnum.length_eq]
        rfl
      rw [unacked] at hlt
      exact ⟨⟨hun',by omega,_,hnum'⟩,by omega⟩
    · have hreset : table'.base=table.base.reset := by
        rw [hbase,HeaderTable.add,if_pos (by omega)]
      exact ⟨⟨hun',hreset ▸ ⟨hcount,history,hnum.reset⟩⟩,hreset ▸ le_rfl⟩

lemma setCapacity_tableSound (newCapacity : ℕ) :
    ∃ table',table.setCapacity newCapacity = .ok (true,table') ∧ TableSound table' ∧
      table.base.insertCount ≤ table'.base.insertCount := by
  obtain ⟨hun,hcount,history,hnum⟩ := h
  obtain ⟨table',hset,hun',hbase⟩ := setCapacity_untracked hun hnum.wellFormed newCapacity
  have hnum' := hnum.setCapacity newCapacity
  rw [← hbase] at hnum'
  have hsame : table'.base.insertCount=table.base.insertCount := by rw [← hnum'.length_eq,hnum.length_eq]
  exact ⟨table',hset,⟨hun',by omega,history,hnum'⟩,by omega⟩

end

/-- An instruction leaves a sound table with at least `n` inserts and fails no check. -/
def Instructed.Sound (n : ℕ) : Instructed → Prop
  | .done table _ => TableSound table ∧ n≤table.base.insertCount
  | .needMore table _ _ => TableSound table ∧ n≤table.base.insertCount
  | .failed table _ => TableSound table ∧ n≤table.base.insertCount
  | .checkFailed => False

section Instructions
variable {n : ℕ} (h : TableSound table ∧ n≤table.base.insertCount)
include h

lemma insertHeader_sound (header : HPACKHeader) (rest : Bytes) : (insertHeader table header rest).Sound n := by
  obtain ⟨added,table',hadd,hsound,hle⟩ := add_tableSound h.1 header
  rw [insertHeader,hadd]
  cases added <;> exact ⟨hsound,h.2.trans hle⟩

lemma insertValue_sound (name bytes : Bytes) : (insertValue table maxUncompressed name bytes).Sound n := by
  rw [insertValue]
  split
  case h_1 => exact h
  case h_2 => exact h
  case h_3 hlit => exact absurd hlit (literal_ne_checkFailed _ _ _)
  case h_4 => exact insertHeader_sound h _ _

lemma insertLiteral_sound (nameIndexed : Bool) (prefixLength : ℕ) (bytes : Bytes) :
    (insertLiteral table maxUncompressed nameIndexed prefixLength bytes).Sound n := by
  rw [insertLiteral]
  split
  case h_1 => exact h
  case h_2 => exact h
  case h_3 hname => exact absurd hname (decodeName_ne_checkFailed h.1 _ _ _)
  case h_4 => exact insertValue_sound h _ _

lemma handleTableSizeUpdate_sound (maxTableSize : ℕ) (bytes : Bytes) :
    (handleTableSizeUpdate table maxTableSize bytes).Sound n := by
  rw [handleTableSizeUpdate]
  split
  case h_1 => exact h
  case h_2 => exact h
  case h_3 hint => exact absurd hint (integer_ne_checkFailed _ _)
  case h_4 arg rest _ =>
    obtain ⟨table',hset,hsound,hle⟩ := setCapacity_tableSound h.1 arg
    rw [hset]
    split
    · exact h
    · exact ⟨hsound,h.2.trans hle⟩

lemma duplicate_sound (bytes : Bytes) : (duplicate table bytes).Sound n := by
  rw [duplicate]
  split
  case h_1 => exact h
  case h_2 => exact h
  case h_3 hdec => exact absurd hdec (decodeIndexedHeaderQ_ne_checkFailed h.1 _ _)
  case h_4 => exact insertHeader_sound h _ _

lemma decodeEncoderStreamInstruction_sound (maxTableSize : ℕ) (part : Option Bytes) (bytes : Bytes) :
    (decodeEncoderStreamInstruction table maxTableSize maxUncompressed part bytes).Sound n := by
  cases part with
  | some name => exact insertValue_sound h name bytes
  | none =>
    rw [decodeEncoderStreamInstruction]
    split_ifs
    · exact insertLiteral_sound h _ _ _
    · exact insertLiteral_sound h _ _ _
    · exact handleTableSizeUpdate_sound h _ _
    · exact duplicate_sound h _

end Instructions

lemma decodeInstructions_sound {n : ℕ} (h : TableSound table ∧ n≤table.base.insertCount) (maxTableSize fuel : ℕ)
    (part : Option Bytes) (bytes : Bytes) :
    (decodeInstructions maxTableSize maxUncompressed fuel table part bytes).Sound n := by
  induction fuel generalizing table part bytes with
  | zero => exact h
  | succ fuel ih =>
    have hone : (decodeEncoderStreamInstruction table maxTableSize maxUncompressed part bytes).Sound n :=
      decodeEncoderStreamInstruction_sound h maxTableSize part bytes
    rw [decodeInstructions]
    split
    · exact h
    split
    case h_1 heq => exact ih (heq ▸ hone :) none _
    case h_2 heq => exact (heq ▸ hone :)
    case h_3 heq => exact (heq ▸ hone :)
    case h_4 heq => exact (heq ▸ hone :)

end Checks

def Callback.isCompletion : Callback → Bool
  | .onHeader _ => false
  | .onHeadersComplete _ _ _ _ => true
  | .onDecodeError _ => true

namespace QPACKDecoder

structure SameQueue (d d' : QPACKDecoder) : Prop where
  table : d'.table=d.table
  queue : d'.queue=d.queue
  queuedBytes : d'.queuedBytes=d.queuedBytes

lemma countP_onHeader (headers : List HPACKHeader) (call : Callback) (h : call.isCompletion) :
    (headers.map Callback.onHeader++[call]).countP Callback.isCompletion = 1 := by
  rw [countP_append,countP_map,countP_singleton,if_pos h,countP_eq_zero.mpr]
  exact nofun

lemma decodeStreamingImpl_completes {d : QPACKDecoder} (h : TableSound d.table) (requiredInsertCount consumed : ℕ)
    (bytes : Bytes) : ∃ calls d',d.decodeStreamingImpl requiredInsertCount consumed bytes = .ok (calls,d') ∧
      calls.countP Callback.isCompletion = 1 ∧ SameQueue d d' := by
  rw [decodeStreamingImpl]
  split
  case h_1 => exact ⟨_,_,rfl,rfl,rfl,rfl,rfl⟩
  case h_2 =>
    have hstop : (decodeHeaders d.table d.baseIndex d.maxUncompressed bytes.length 0 bytes).stop ≠
      some .checkFailed := decodeHeaders_ne_checkFailed h _ _ _
    split
    case h_1 => exact ⟨_,_,rfl,countP_onHeader _ _ rfl,rfl,rfl,rfl⟩
    case h_2 => exact ⟨_,_,rfl,countP_onHeader _ _ rfl,rfl,rfl,rfl⟩
    case h_3 heq => exact absurd (congrArg Decoded.stop heq) hstop

lemma decodeInstructionsOf_spec {d : QPACKDecoder} (h : TableSound d.table) (buf : Bytes) :
    ∃ d',d.decodeInstructionsOf buf = .ok d' ∧ (TableSound d'.table ∧ d.getInsertCount≤d'.getInsertCount) ∧
      d'.queue = d.queue ∧ d'.queuedBytes=d.queuedBytes := by
  have hsound : (decodeInstructions d.maxTableSize d.maxUncompressed (d.ingress++buf).length d.table d.part
    (d.ingress++buf)).Sound d.getInsertCount := decodeInstructions_sound ⟨h,le_rfl⟩ _ _ _ _
  rw [decodeInstructionsOf]
  split
  case h_1 heq => exact ⟨_,rfl,(heq ▸ hsound :),rfl,rfl⟩
  case h_2 heq => exact ⟨_,rfl,(heq ▸ hsound :),rfl,rfl⟩
  case h_3 heq => exact ⟨_,rfl,(heq ▸ hsound :),rfl,rfl⟩
  case h_4 heq => exact absurd hsound (by rw [heq]; exact id)

end QPACKDecoder

namespace Session

def completions (s : Session) (cb : ℕ) : ℕ := s.told.countP fun e => e.1 == cb && e.2.isCompletion

def waiting (s : Session) : List ℕ := s.decoder.queue.map (·.2.cb)

def bytesOf (queue : List (ℕ × PendingBlock)) : ℕ := (queue.map (·.2.length)).sum

/-- The callbacks are numbered in the order of their blocks, and `needs` has the required insert counts. -/
structure Consistent (s : Session) (needs : List ℕ) : Prop where
  table : TableSound s.decoder.table
  sorted : s.decoder.queue.Pairwise fun a b => a.1 ≤ b.1
  nodup : s.waiting.Nodup
  keys : ∀ e ∈ s.decoder.queue,needs[e.2.cb]? = some e.1
  untold : ∀ cb ∈ s.waiting,s.completions cb = 0 ∧ cb ∉ s.cancelled
  fresh : ∀ cb,needs.length ≤ cb → s.completions cb = 0 ∧ cb ∉ s.cancelled
  late : ∀ cb need,needs[cb]? = some need → s.completions cb≠0 → need ≤ s.decoder.getInsertCount
  bytes : bytesOf s.decoder.queue ≤ s.decoder.queuedBytes

/-- No block has been dropped, and no bytes are counted that are not queued. -/
structure Intact (s : Session) (needs : List ℕ) : Prop where
  accounted : ∀ cb < needs.length,cb ∉ s.cancelled → cb ∈ s.waiting ∨ s.completions cb = 1
  bytes : s.decoder.queuedBytes = bytesOf s.decoder.queue

def EmptyOn (queue : List (ℕ × PendingBlock)) (streamIds : List ℕ) : Prop :=
  ∀ e ∈ queue,e.2.streamID ∈ streamIds → e.2.length=0

section Cancel
variable {s : Session} {needs : List ℕ} {streamId : ℕ}

lemma bytesOf_filter (queue : List (ℕ × PendingBlock)) (streamId : ℕ) :
    bytesOf (queue.filter fun e => e.2.streamID≠streamId) ≤ bytesOf queue ∧
      (bytesOf (queue.filter fun e => e.2.streamID≠streamId) = bytesOf queue ↔ EmptyOn queue [streamId]) := by
  induction queue with
  | nil => exact ⟨le_rfl,iff_of_true rfl nofun⟩
  | cons e queue ih =>
    obtain ⟨hle,hiff⟩ := ih
    have hcons : EmptyOn (e::queue) [streamId] ↔
        (e.2.streamID=streamId → e.2.length=0) ∧ EmptyOn queue [streamId] := by
      simp [EmptyOn]
    by_cases hid : e.2.streamID=streamId
    · simp only [filter_cons,hid,ne_eq,not_true_eq_false,decide_false,Bool.false_eq_true,if_false,hcons,
        bytesOf,map_cons,sum_cons,true_implies] at hle hiff ⊢
      exact ⟨by omega,by rw [← hiff]; omega⟩
    · simp only [filter_cons,hid,ne_eq,not_false_eq_true,decide_true,if_true,hcons,bytesOf,map_cons,
        sum_cons,false_implies,true_and] at hle hiff ⊢
      exact ⟨by omega,by rw [← hiff]; omega⟩

lemma mem_cancelled_iff (cb : ℕ) : cb ∈ (s.encodeCancelStream streamId).cancelled ↔
    cb ∈ s.cancelled ∨ ∃ e ∈ s.decoder.queue,e.2.streamID=streamId ∧ e.2.cb=cb := by
  simp only [encodeCancelStream,mem_append,mem_map,mem_filter,decide_eq_true_eq,and_assoc]

lemma mem_queue_cancel (e : ℕ × PendingBlock) : e ∈ (s.encodeCancelStream streamId).decoder.queue ↔
    e ∈ s.decoder.queue ∧ e.2.streamID≠streamId := by
  simp only [encodeCancelStream,QPACKDecoder.encodeCancelStream,mem_filter,decide_eq_true_eq]

lemma mem_waiting_cancel (h : s.Consistent needs) (cb : ℕ) : cb ∈ (s.encodeCancelStream streamId).waiting ↔
    cb ∈ s.waiting ∧ cb ∉ (s.encodeCancelStream streamId).cancelled := by
  constructor
  · intro hcb
    obtain ⟨e,he,rfl⟩ := mem_map.mp hcb
    obtain ⟨hmem,hid⟩ := (mem_queue_cancel e).mp he
    have hwait : e.2.cb ∈ s.waiting := mem_map_of_mem hmem
    refine ⟨hwait,fun hcon => ?_⟩
    rcases (mem_cancelled_iff _).mp hcon with hold | ⟨e',hmem',hid',hcb'⟩
    · exact (h.untold _ hwait).2 hold
    · rw [inj_on_of_nodup_map h.nodup hmem' hmem hcb'] at hid'
      exact hid hid'
  · rintro ⟨hwait,hnot⟩
    obtain ⟨e,he,rfl⟩ := mem_map.mp hwait
    refine mem_map_of_mem ((mem_queue_cancel e).mpr ⟨he,fun hid => hnot ?_⟩)
    exact (mem_cancelled_iff _).mpr (.inr ⟨e,he,hid,rfl⟩)

lemma Consistent.cancel (h : s.Consistent needs) (streamId : ℕ) :
    (s.encodeCancelStream streamId).Consistent needs where
  table := h.table
  sorted := h.sorted.filter _
  nodup := h.nodup.sublist (filter_sublist.map _)
  keys e he := h.keys e ((mem_queue_cancel e).mp he).1
  untold cb hcb :=
    have hmem := (mem_waiting_cancel h cb).mp hcb
    ⟨(h.untold cb hmem.1).1,hmem.2⟩
  fresh cb hcb := by
    refine ⟨(h.fresh cb hcb).1,fun hcon => ?_⟩
    rcases (mem_cancelled_iff cb).mp hcon with hold | ⟨e,he,-,rfl⟩
    · exact (h.fresh cb hcb).2 hold
    · have hkey := h.keys e he
      rw [getElem?_eq_none hcb] at hkey
      cases hkey
  late := h.late
  bytes := (bytesOf_filter _ _).1.trans h.bytes

lemma intact_cancel_iff (h : s.Consistent needs) (streamId : ℕ) :
    (s.encodeCancelStream streamId).Intact needs ↔ s.Intact needs ∧ EmptyOn s.decoder.queue [streamId] := by
  obtain ⟨hle,hiff⟩ := bytesOf_filter s.decoder.queue streamId
  have hbytes := h.bytes
  constructor
  · intro hi
    have heq : s.decoder.queuedBytes = bytesOf (s.decoder.queue.filter fun e => e.2.streamID≠streamId) := hi.bytes
    refine ⟨⟨fun cb hcb hnot => ?_,by omega⟩,hiff.mp (by omega)⟩
    by_cases hcon : cb ∈ (s.encodeCancelStream streamId).cancelled
    · rcases (mem_cancelled_iff cb).mp hcon with hold | ⟨e,he,-,rfl⟩
      · exact absurd hold hnot
      · exact .inl (mem_map_of_mem he)
    · exact (hi.accounted cb hcb hcon).imp_left fun hmem => ((mem_waiting_cancel h cb).mp hmem).1
  · rintro ⟨hi,hempty⟩
    refine ⟨fun cb hcb hnot => ?_,hi.bytes.trans (hiff.mpr hempty).symm⟩
    have hold : cb ∉ s.cancelled := fun hcon => hnot ((mem_cancelled_iff cb).mpr (.inl hcon))
    exact (hi.accounted cb hcb hold).imp_left fun hmem => (mem_waiting_cancel h cb).mpr ⟨hmem,hnot⟩

lemma emptyOn_cancel (streamIds : List ℕ) :
    EmptyOn s.decoder.queue [streamId] ∧ EmptyOn (s.encodeCancelStream streamId).decoder.queue streamIds ↔
      EmptyOn s.decoder.queue (streamId::streamIds) := by
  constructor
  · rintro ⟨hfirst,hrest⟩ e he hid
    by_cases hsame : e.2.streamID=streamId
    · exact hfirst e he (mem_singleton.mpr hsame)
    · exact hrest e ((mem_queue_cancel e).mpr ⟨he,hsame⟩) ((mem_cons.mp hid).resolve_left hsame)
  · intro hall
    refine ⟨fun e he hid => hall e he (mem_cons.mpr (.inl (mem_singleton.mp hid))),fun e he hid => ?_⟩
    exact hall e ((mem_queue_cancel e).mp he).1 (mem_cons_of_mem _ hid)

lemma cancelAll_spec (h : s.Consistent needs) (streamIds : List ℕ) :
    (streamIds.foldl encodeCancelStream s).Consistent needs ∧
    ((streamIds.foldl encodeCancelStream s).Intact needs ↔
      s.Intact needs ∧ EmptyOn s.decoder.queue streamIds) ∧
    (streamIds.foldl encodeCancelStream s).decoder.queue.Sublist s.decoder.queue ∧
    (streamIds.foldl encodeCancelStream s).decoder.table = s.decoder.table := by
  induction streamIds generalizing s with
  | nil => exact ⟨h,⟨fun hi => ⟨hi,nofun⟩,And.left⟩,Sublist.refl _,rfl⟩
  | cons streamId streamIds ih =>
    obtain ⟨hc,hi,hsub,htable⟩ := ih (h.cancel streamId)
    refine ⟨hc,?_,hsub.trans filter_sublist,htable⟩
    rw [foldl_cons,hi,intact_cancel_iff h,and_assoc,emptyOn_cancel]

end Cancel

section Drain
variable {s : Session} {needs : List ℕ} {id : ℕ} {block : PendingBlock} {queue : List (ℕ × PendingBlock)}
  {d : QPACKDecoder} {calls : List Callback}

lemma completions_hear (s : Session) (cb cb' : ℕ) (calls : List Callback) : (s.hear cb calls).completions cb' =
    s.completions cb'+if cb'=cb then calls.countP Callback.isCompletion else 0 := by
  rw [completions,hear,countP_append,countP_map,completions]
  split
  case isTrue h => simp [h,Function.comp_def]
  case isFalse h => simp [Function.comp_def,Ne.symm h]

/-- A block is taken from the queue and answered, or dropped if it has no bytes. -/
lemma taken_spec {u : Session} (h : s.Consistent needs) (hqueue : s.decoder.queue.Perm ((id,block)::u.decoder.queue))
    (hsorted : u.decoder.queue.Pairwise fun a b => a.1 ≤ b.1) (hready : id ≤ s.decoder.getInsertCount)
    (htable : u.decoder.table=s.decoder.table) (hbytes : u.decoder.queuedBytes+block.length = s.decoder.queuedBytes)
    (hcancelled : u.cancelled=s.cancelled) (hcomp : ∀ cb,u.completions cb =
      s.completions cb+if cb=block.cb then if 0<block.length then 1 else 0 else 0) :
    u.Consistent needs ∧ (u.Intact needs ↔ s.Intact needs ∧ 0<block.length) := by
  have hwait : s.waiting.Perm (block.cb::u.waiting) := hqueue.map _
  have hmem {cb : ℕ} : cb ∈ s.waiting ↔ cb=block.cb ∨ cb ∈ u.waiting := hwait.mem_iff.trans mem_cons
  have hnodup := nodup_cons.mp (hwait.nodup_iff.mp h.nodup)
  have huntold := h.untold block.cb (hmem.mpr (.inl rfl))
  have hkey := h.keys (id,block) (hqueue.mem_iff.mpr mem_cons_self)
  have hlt : block.cb<needs.length := (List.getElem?_eq_some_iff.mp hkey).1
  have hsum : bytesOf s.decoder.queue = block.length+bytesOf u.decoder.queue := (hqueue.map _).sum_eq
  have hother {cb : ℕ} (hne : cb≠block.cb) : u.completions cb = s.completions cb := by
    rw [hcomp,if_neg hne,Nat.add_zero]
  constructor
  · refine ⟨htable ▸ h.table,hsorted,hnodup.2,?_,?_,?_,?_,?_⟩
    · exact fun e he => h.keys e (hqueue.mem_iff.mpr (mem_cons_of_mem _ he))
    · intro cb hcb
      rw [hother fun hcon => hnodup.1 (hcon ▸ hcb),hcancelled]
      exact h.untold cb (hmem.mpr (.inr hcb))
    · intro cb hcb
      rw [hother (by omega),hcancelled]
      exact h.fresh cb hcb
    · intro cb need hneed hne
      rw [QPACKDecoder.getInsertCount,htable]
      by_cases hcb : cb=block.cb
      · rw [hcb,hkey] at hneed
        exact Option.some.inj hneed ▸ hready
      · rw [hother hcb] at hne
        exact h.late cb need hneed hne
    · have := h.bytes
      omega
  · constructor
    · intro hi
      have hpos : 0<block.length := by
        rcases hi.accounted block.cb hlt (hcancelled ▸ huntold.2) with hcon | hone
        · exact absurd hcon hnodup.1
        · rw [hcomp,if_pos rfl,huntold.1] at hone
          by_contra hzero
          rw [if_neg hzero] at hone
          omega
      have hbytes' := hi.bytes
      refine ⟨⟨fun cb hcb hnot => ?_,by omega⟩,hpos⟩
      by_cases hcb' : cb=block.cb
      · exact .inl (hmem.mpr (.inl hcb'))
      · rw [← hother hcb']
        exact (hi.accounted cb hcb (hcancelled ▸ hnot)).imp_left fun hw => hmem.mpr (.inr hw)
    · rintro ⟨hi,hpos⟩
      have hbytes' := hi.bytes
      refine ⟨fun cb hcb hnot => ?_,by omega⟩
      by_cases hcb' : cb=block.cb
      · exact .inr (by rw [hcomp,hcb',if_pos rfl,if_pos hpos,huntold.1])
      · rw [hother hcb']
        exact (hi.accounted cb hcb (hcancelled ▸ hnot)).imp_left fun hw => (hmem.mp hw).resolve_left hcb'

lemma decodeBlock_spec (h : s.Consistent needs) (hqueue : s.decoder.queue = (id,block)::queue) :
    ∃ calls d,(s.decoder.dequeued queue).decodeBlock id block = .ok (calls,d) ∧ d.table=s.decoder.table ∧
      d.queue = queue ∧ d.queuedBytes+block.length = s.decoder.queuedBytes ∧
      calls.countP Callback.isCompletion = if 0<block.length then 1 else 0 := by
  rw [decodeBlock]
  split
  case isTrue hpos =>
    have hle := h.bytes
    have hsum : bytesOf s.decoder.queue = block.length+bytesOf queue := by rw [hqueue]; rfl
    obtain ⟨calls,d,hdec,hone,hsame⟩ := decodeStreamingImpl_completes
      (d := {s.decoder.dequeued queue with
        queuedBytes := (s.decoder.dequeued queue).queuedBytes-block.length, baseIndex := block.baseIndex})
      h.table id block.consumed block.block
    refine ⟨calls,d,hdec,hsame.table,hsame.queue,?_,hone⟩
    rw [hsame.queuedBytes]
    show s.decoder.queuedBytes-block.length+block.length = s.decoder.queuedBytes
    omega
  case isFalse hzero => exact ⟨[],_,rfl,rfl,rfl,by simp only [dequeued]; omega,rfl⟩

variable (react : ℕ → Callback → List ℕ)

/-- Every block that is ready is decoded: no error is left from before it, it has bytes, and its callback
cancels nothing that has bytes in the queue. -/
def DrainsClean : ℕ → Session → Prop
  | 0, _ => True
  | fuel+1, s =>
    match s.decoder.queue with
    | [] => True
    | (id,block)::queue =>
      id ≤ s.decoder.getInsertCount → s.decoder.err=none ∧ 0<block.length ∧
        Ends ((s.decoder.dequeued queue).decodeBlock id block) (fun _ => True) fun r =>
          EmptyOn queue (r.1.flatMap (react block.cb)) ∧
            DrainsClean fuel ((s.withDecoder r.2).tell react block.cb r.1)

def Drained (s : Session) : Prop := ∀ e ∈ s.decoder.queue,s.decoder.getInsertCount < e.1

lemma drained_of_head (h : s.Consistent needs) (hqueue : s.decoder.queue = (id,block)::queue)
    (hid : s.decoder.getInsertCount < id) : s.Drained := by
  intro e he
  have hsorted := h.sorted
  rw [hqueue,pairwise_cons] at hsorted
  rw [hqueue] at he
  rcases mem_cons.mp he with rfl | he
  · exact hid
  · exact lt_of_lt_of_le hid (hsorted.1 e he)

lemma drainOne_spec (h : s.Consistent needs) (hqueue : s.decoder.queue = (id,block)::queue)
    (hready : id ≤ s.decoder.getInsertCount) : ∃ calls d,
      (s.decoder.dequeued queue).decodeBlock id block = .ok (calls,d) ∧
      s.drainOne react id block queue = .ok ((s.withDecoder d).tell react block.cb calls) ∧
      ((s.withDecoder d).tell react block.cb calls).Consistent needs ∧
      (((s.withDecoder d).tell react block.cb calls).Intact needs ↔
        s.Intact needs ∧ 0<block.length ∧ EmptyOn queue (calls.flatMap (react block.cb))) ∧
      ((s.withDecoder d).tell react block.cb calls).decoder.queue.Sublist queue ∧
      ((s.withDecoder d).tell react block.cb calls).decoder.getInsertCount = s.decoder.getInsertCount := by
  obtain ⟨calls,d,hdec,htable,hrest,hbytes,hcalls⟩ := decodeBlock_spec h hqueue
  have hqueue' : ((s.withDecoder d).hear block.cb calls).decoder.queue = queue := hrest
  obtain ⟨hc,hi⟩ := taken_spec (u := (s.withDecoder d).hear block.cb calls) h (by rw [hqueue',hqueue])
    (hqueue' ▸ (pairwise_cons.mp (hqueue ▸ h.sorted)).2) hready htable hbytes rfl
    fun cb => hcalls ▸ completions_hear _ _ _ _
  obtain ⟨hc',hi',hsub,htable'⟩ := cancelAll_spec hc (calls.flatMap (react block.cb))
  rw [hqueue'] at hi' hsub
  refine ⟨calls,d,hdec,?_,hc',?_,hsub,?_⟩
  · rw [drainOne,hdec]
    rfl
  · rw [tell,hi',hi,and_assoc]
  · exact congrArg QPACKHeaderTable.getInsertCount (htable'.trans htable)

lemma drainLoop_spec (fuel : ℕ) (h : s.Consistent needs) (hfuel : s.decoder.queue.length≤fuel) :
    ∃ s',drainLoop react fuel s = .ok s' ∧ s'.Consistent needs ∧
      (s'.Intact needs ∧ s'.Drained ↔ s.Intact needs ∧ DrainsClean react fuel s) := by
  induction fuel generalizing s with
  | zero =>
    have hnil : s.decoder.queue=[] := length_eq_zero_iff.mp (by omega)
    refine ⟨s,rfl,h,and_congr_right fun _ => iff_of_true ?_ trivial⟩
    rw [Drained,hnil]
    exact forall_mem_nil _
  | succ fuel ih =>
    rw [drainLoop,DrainsClean]
    cases hqueue : s.decoder.queue with
    | nil =>
      refine ⟨s,rfl,h,and_congr_right fun _ => iff_of_true ?_ trivial⟩
      rw [Drained,hqueue]
      exact forall_mem_nil _
    | cons e queue =>
      obtain ⟨id,block⟩ := e
      rw [hqueue,length_cons] at hfuel
      rcases Nat.lt_or_ge s.decoder.getInsertCount id with hlt | hready
      · refine ⟨s,if_neg fun hcon => absurd hcon.1 (by omega),h,?_⟩
        exact and_congr_right fun _ => iff_of_true (drained_of_head h hqueue hlt) fun hcon => by omega
      · by_cases herr : s.decoder.err=none
        · obtain ⟨calls,d,hdec,hone,hc,hi,hsub,-⟩ := drainOne_spec react h hqueue hready
          obtain ⟨s',hs',hc',hi'⟩ := ih hc (hsub.length_le.trans (by omega))
          refine ⟨s',?_,hc',?_⟩
          · simp only [hready,herr,and_self,if_true,hone,ok_bind,hs']
          · rw [hi',hi]
            simp only [hready,herr,hdec,true_implies,true_and,and_assoc,Ends.ok_iff]
        · refine ⟨s,by simp only [herr,and_false,if_false],h,and_congr_right fun _ => iff_of_false ?_ ?_⟩
          · intro hdrained
            have := hdrained (id,block) (hqueue ▸ mem_cons_self)
            omega
          · intro hcon
            exact herr (hcon hready).1

lemma Consistent.withTable (h : s.Consistent needs) (htable : TableSound d.table)
    (hcount : s.decoder.getInsertCount≤d.getInsertCount) (hqueue : d.queue=s.decoder.queue)
    (hbytes : d.queuedBytes=s.decoder.queuedBytes) : (s.withDecoder d).Consistent needs where
  table := htable
  sorted := (congrArg (Pairwise _) hqueue).mpr h.sorted
  nodup := (congrArg (fun q => (q.map (·.2.cb)).Nodup) hqueue).mpr h.nodup
  keys e he := h.keys e (hqueue ▸ he)
  untold cb hcb := h.untold cb ((congrArg (fun q => cb ∈ q.map (·.2.cb)) hqueue).mp hcb)
  fresh := h.fresh
  late cb need hneed hne := (h.late cb need hneed hne).trans hcount
  bytes := by
    show bytesOf d.queue ≤ d.queuedBytes
    rw [hqueue,hbytes]
    exact h.bytes

lemma Intact.withTable (h : s.Intact needs) (hqueue : d.queue=s.decoder.queue)
    (hbytes : d.queuedBytes=s.decoder.queuedBytes) : (s.withDecoder d).Intact needs where
  accounted cb hcb hnot :=
    (h.accounted cb hcb hnot).imp_left (congrArg (fun q => cb ∈ q.map (·.2.cb)) hqueue).mpr
  bytes := by
    show d.queuedBytes = bytesOf d.queue
    rw [hqueue,hbytes]
    exact h.bytes

end Drain

section Submit
variable {s : Session} {needs : List ℕ} {need : ℕ} {d : QPACKDecoder} {calls : List Callback} {p : PendingBlock}

lemma emplace_perm (key : ℕ) (p : PendingBlock) (queue : List (ℕ × PendingBlock)) :
    (QPACKDecoder.emplace key p queue).Perm ((key,p)::queue) := by
  rw [QPACKDecoder.emplace]
  refine perm_middle.trans (Perm.of_eq ?_)
  rw [takeWhile_append_dropWhile]

lemma emplace_sorted {key : ℕ} {queue : List (ℕ × PendingBlock)} (h : queue.Pairwise fun a b => a.1 ≤ b.1) :
    (QPACKDecoder.emplace key p queue).Pairwise fun a b => a.1 ≤ b.1 := by
  induction queue with
  | nil => exact pairwise_singleton _ _
  | cons e queue ih =>
    obtain ⟨hhead,htail⟩ := pairwise_cons.mp h
    by_cases hle : e.1≤key
    · have hcons : QPACKDecoder.emplace key p (e::queue) = e::QPACKDecoder.emplace key p queue := by
        simp [QPACKDecoder.emplace,hle]
      rw [hcons,pairwise_cons]
      refine ⟨fun b hb => ?_,ih htail⟩
      rcases mem_cons.mp ((emplace_perm key p queue).mem_iff.mp hb) with rfl | hb
      · exact hle
      · exact hhead b hb
    · have hfront : QPACKDecoder.emplace key p (e::queue) = (key,p)::e::queue := by
        simp [QPACKDecoder.emplace,hle]
      rw [hfront,pairwise_cons]
      refine ⟨fun b hb => ?_,h⟩
      rcases mem_cons.mp hb with rfl | hb
      · exact (not_le.mp hle).le
      · exact (not_le.mp hle).le.trans (hhead b hb)

lemma enqueued_spec (h : s.Consistent needs) (htable : d.table=s.decoder.table)
    (hqueue : d.queue = QPACKDecoder.emplace need p s.decoder.queue) (hcb : p.cb=needs.length)
    (hbytes : d.queuedBytes = s.decoder.queuedBytes+p.length) :
    (s.withDecoder d).Consistent (needs++[need]) ∧
    ((s.withDecoder d).Intact (needs++[need]) ↔ s.Intact needs) := by
  have hperm := hqueue ▸ emplace_perm need p s.decoder.queue
  have hfresh := h.fresh needs.length le_rfl
  have hwait : (s.withDecoder d).waiting.Perm (needs.length::s.waiting) := by
    have := hperm.map (·.2.cb)
    rwa [map_cons,hcb] at this
  have hsum : bytesOf d.queue = p.length+bytesOf s.decoder.queue := by
    have := (hperm.map (·.2.length)).sum_eq
    rwa [map_cons,sum_cons] at this
  have hlt {e : ℕ × PendingBlock} (he : e ∈ s.decoder.queue) : e.2.cb<needs.length :=
    (List.getElem?_eq_some_iff.mp (h.keys e he)).1
  constructor
  · refine ⟨(congrArg TableSound htable).mpr h.table,?_,?_,?_,?_,?_,?_,?_⟩
    · exact (congrArg (Pairwise _) hqueue).mpr (emplace_sorted h.sorted)
    · refine hwait.nodup_iff.mpr (nodup_cons.mpr ⟨fun hcon => ?_,h.nodup⟩)
      obtain ⟨e,he,hcb'⟩ := mem_map.mp hcon
      have := hlt he
      omega
    · intro e he
      rcases mem_cons.mp (hperm.mem_iff.mp he) with rfl | he
      · rw [hcb,getElem?_concat_length]
      · rw [getElem?_append_left (hlt he)]
        exact h.keys e he
    · intro cb hcb'
      rcases mem_cons.mp (hwait.mem_iff.mp hcb') with rfl | hcb'
      · exact hfresh
      · exact h.untold cb hcb'
    · intro cb hcb'
      rw [length_append,length_singleton] at hcb'
      exact h.fresh cb (by omega)
    · intro cb need' hneed' hne
      have hcount : (s.withDecoder d).decoder.getInsertCount = s.decoder.getInsertCount :=
        congrArg QPACKHeaderTable.getInsertCount htable
      rw [hcount]
      rcases Nat.lt_or_ge cb needs.length with hcb' | hcb'
      · rw [getElem?_append_left hcb'] at hneed'
        exact h.late cb need' hneed' hne
      · exact absurd (h.fresh cb hcb').1 hne
    · have := h.bytes
      show bytesOf d.queue ≤ d.queuedBytes
      omega
  · have hbytes' : ((s.withDecoder d).decoder.queuedBytes = bytesOf (s.withDecoder d).decoder.queue) ↔
        s.decoder.queuedBytes = bytesOf s.decoder.queue := by
      show d.queuedBytes = bytesOf d.queue ↔ _
      omega
    constructor
    · intro hi
      refine ⟨fun cb hcb' hnot => ?_,hbytes'.mp hi.bytes⟩
      refine (hi.accounted cb (by rw [length_append]; omega) hnot).imp_left fun hmem => ?_
      exact (mem_cons.mp (hwait.mem_iff.mp hmem)).resolve_left (by omega)
    · intro hi
      refine ⟨fun cb hcb' hnot => ?_,hbytes'.mpr hi.bytes⟩
      rw [length_append,length_singleton] at hcb'
      rcases Nat.lt_or_ge cb needs.length with hlt | hge
      · exact (hi.accounted cb hlt hnot).imp_left fun hmem => hwait.mem_iff.mpr (mem_cons_of_mem _ hmem)
      · left
        exact hwait.mem_iff.mpr (mem_cons.mpr (.inl (by omega)))

/-- A block that is answered at once is one that is queued and then taken. -/
lemma answered_spec (h : s.Consistent needs) (hsame : SameQueue s.decoder d)
    (hneed : need ≤ s.decoder.getInsertCount) (hcalls : calls.countP Callback.isCompletion = 1) :
    ((s.withDecoder d).hear needs.length calls).Consistent (needs++[need]) ∧
    (((s.withDecoder d).hear needs.length calls).Intact (needs++[need]) ↔ s.Intact needs) := by
  obtain ⟨htable,hqueue,hbytes⟩ := hsame
  let p : PendingBlock := ⟨0,0,0,[0],needs.length⟩
  let queued : QPACKDecoder :=
    {d with queue := QPACKDecoder.emplace need p s.decoder.queue, queuedBytes := d.queuedBytes+p.length}
  obtain ⟨hc,hi⟩ := enqueued_spec (d := queued) (p := p) h htable rfl rfl (by rw [← hbytes])
  have hqueue' : ((s.withDecoder d).hear needs.length calls).decoder.queue = s.decoder.queue := hqueue
  obtain ⟨hc',hi'⟩ := taken_spec (u := (s.withDecoder d).hear needs.length calls) hc
    (by rw [hqueue']; exact emplace_perm need p _) (hqueue' ▸ h.sorted) (hneed.trans_eq (congrArg _ htable).symm) rfl rfl rfl
    fun cb => hcalls ▸ completions_hear _ _ _ _
  exact ⟨hc',hi'.trans ((and_iff_left Nat.one_pos).trans hi)⟩

end Submit

end Session

namespace QPACKDecoder

/-- The inserts that a block has to wait for; none if it is refused or cannot be read. -/
def needOf (d : QPACKDecoder) (block : Bytes) : ℕ :=
  match decodePrefix d.maxTableSize d.getInsertCount block with
  | .error _ => 0
  | .ok (p,_) =>
    if p.requiredInsertCount > d.getInsertCount ∧ d.queue.length ≥ d.maxBlocking then 0 else p.requiredInsertCount

lemma decodeStreaming_cases {d : QPACKDecoder} {block : Bytes} (h : TableSound d.table)
    (hcheck : decodePrefix d.maxTableSize d.getInsertCount block≠.error .checkFailed) (streamID cb : ℕ) :
    ∃ calls d',d.decodeStreaming streamID cb block = .ok (calls,d') ∧
      (calls.countP Callback.isCompletion = 1 ∧ SameQueue d d' ∧ d.needOf block ≤ d.getInsertCount ∨
        calls = [] ∧ d'.table=d.table ∧ d.getInsertCount < d.needOf block ∧
          ∃ p : PendingBlock,p.cb=cb ∧ d'.queue = QPACKDecoder.emplace (d.needOf block) p d.queue ∧
            d'.queuedBytes = d.queuedBytes+p.length) := by
  rw [decodeStreaming,needOf]
  cases hprefix : decodePrefix d.maxTableSize d.getInsertCount block with
  | error stop =>
    cases stop with
    | checkFailed => exact absurd hprefix hcheck
    | decodeError err => exact ⟨_,_,rfl,.inl ⟨rfl,⟨rfl,rfl,rfl⟩,Nat.zero_le _⟩⟩
  | ok r =>
    obtain ⟨p,rest⟩ := r
    by_cases hneed : p.requiredInsertCount > d.getInsertCount
    · by_cases hfull : d.queue.length ≥ d.maxBlocking
      · simp only [hneed,hfull,and_self,if_true]
        exact ⟨_,_,rfl,.inl ⟨rfl,⟨rfl,rfl,rfl⟩,Nat.zero_le _⟩⟩
      · have hput : p.requiredInsertCount > (d.started.atBase p.baseIndex).getInsertCount := hneed
        simp only [hneed,hfull,and_false,if_true,if_false,enqueueHeaderBlock,hput]
        exact ⟨_,_,rfl,.inr ⟨rfl,rfl,trivial,_,rfl,rfl,rfl⟩⟩
    · obtain ⟨calls,d',hdec,hone,hsame⟩ := decodeStreamingImpl_completes (d := d.started.atBase p.baseIndex) h
        p.requiredInsertCount (block.length-rest.length) rest
      simp only [hneed,false_and,if_false]
      exact ⟨calls,d',hdec,.inl ⟨hone,⟨hsame.table,hsame.queue,hsame.queuedBytes⟩,not_lt.mp hneed⟩⟩

end QPACKDecoder

inductive QueueEvent
  | decodeStreaming (streamID : ℕ) (block : Bytes)
  | decodeEncoderStream (buf : Bytes)
  | encodeCancelStream (streamId : ℕ)

/-- The session, the inserts that each block waits for, and whether the encoder stream has failed. -/
structure QueueRun where
  session : Session
  needs : List ℕ
  broken : Bool

namespace QueueRun
open QPACKDecoder

def initial (tableSize maxUncompressed maxBlocking : ℕ) : QueueRun :=
  ⟨⟨.init tableSize maxUncompressed maxBlocking,[],[]⟩,[],false⟩

variable (react : ℕ → Callback → List ℕ)

/-- The callback of a block is the number of blocks before it. An error on the encoder stream closes the
connection. -/
def perform (r : QueueRun) (e : QueueEvent) : Except Failure QueueRun :=
  if r.broken then .ok r
  else
    match e with
    | .decodeStreaming streamID block => do
      let s ← r.session.decodeStreaming react streamID r.needs.length block
      return ⟨s,r.needs++[r.session.decoder.needOf block],false⟩
    | .decodeEncoderStream buf => do
      let (err,s) ← r.session.decodeEncoderStream react buf
      return ⟨s,r.needs,err.isSome⟩
    | .encodeCancelStream streamId => .ok ⟨r.session.encodeCancelStream streamId,r.needs,false⟩

def step (r : QueueRun) (e : QueueEvent) : QueueRun :=
  match r.perform react e with
  | .ok t => t
  | .error _ => r

/-- A block that is not cancelled waits in the queue until its inserts are there, and then its callback has been
told the end of it once; the bytes in the queue are those of the blocks in it. -/
structure Settled (r : QueueRun) : Prop where
  blocks : ∀ cb need,r.needs[cb]? = some need → cb ∉ r.session.cancelled →
    (r.session.decoder.getInsertCount<need →
      (∃ p : PendingBlock,(need,p) ∈ r.session.decoder.queue ∧ p.cb=cb) ∧ r.session.completions cb = 0) ∧
    (need ≤ r.session.decoder.getInsertCount → r.broken=false →
      cb ∉ r.session.waiting ∧ r.session.completions cb = 1)
  bytes : r.session.decoder.queuedBytes = Session.bytesOf r.session.decoder.queue

def Kept (r : QueueRun) (e : QueueEvent) : Prop := ∃ t,r.perform react e = .ok t ∧ t.Settled

/-- No `CHECK` on the prefix fails, every block that becomes ready is decoded, and no block with bytes in the
queue is cancelled. -/
def Clean (r : QueueRun) : QueueEvent → Prop
  | .decodeStreaming streamID block => r.broken = false →
    decodePrefix r.session.decoder.maxTableSize r.session.decoder.getInsertCount block≠.error .checkFailed ∧
    Ends (r.session.decoder.decodeStreaming streamID r.needs.length block) (fun _ => True) fun c =>
      Session.EmptyOn r.session.decoder.queue (c.1.flatMap (react r.needs.length))
  | .decodeEncoderStream buf => r.broken = false →
    Ends (r.session.decoder.decodeInstructionsOf buf) (fun _ => True) fun d =>
      d.streamError = none → Session.DrainsClean react d.queue.length (r.session.withDecoder d)
  | .encodeCancelStream streamId => r.broken = false → Session.EmptyOn r.session.decoder.queue [streamId]

structure Sound (r : QueueRun) : Prop where
  consistent : r.session.Consistent r.needs
  settled : r.Settled

lemma settled_iff {r : QueueRun} (h : r.session.Consistent r.needs) (hbroken : r.broken=false) :
    r.Settled ↔ r.session.Intact r.needs ∧ r.session.Drained := by
  constructor
  · intro hs
    refine ⟨⟨fun cb hcb hnot => ?_,hs.bytes⟩,fun e he => ?_⟩
    · obtain ⟨hwait,hdone⟩ := hs.blocks cb _ (getElem?_eq_getElem hcb) hnot
      rcases Nat.lt_or_ge r.session.decoder.getInsertCount r.needs[cb] with hlt | hge
      · obtain ⟨⟨p,hp,rfl⟩,-⟩ := hwait hlt
        exact .inl (mem_map_of_mem hp)
      · exact .inr (hdone hge hbroken).2
    · have hmem : e.2.cb ∈ r.session.waiting := mem_map_of_mem he
      by_contra hcon
      exact ((hs.blocks _ _ (h.keys e he) (h.untold _ hmem).2).2 (not_lt.mp hcon) hbroken).1 hmem
  · rintro ⟨hi,hd⟩
    refine ⟨fun cb need hneed hnot => ⟨fun hlt => ?_,fun hle _ => ?_⟩,hi.bytes⟩
    · have hzero : r.session.completions cb = 0 := by
        by_contra hcon
        have := h.late cb need hneed hcon
        omega
      refine ⟨?_,hzero⟩
      rcases hi.accounted cb (List.getElem?_eq_some_iff.mp hneed).1 hnot with hmem | hone
      · obtain ⟨e,he,rfl⟩ := List.mem_map.mp hmem
        have hkey := (h.keys e he).symm.trans hneed
        exact ⟨e.2,Option.some.inj hkey ▸ he,rfl⟩
      · omega
    · have hnotmem : cb ∉ r.session.waiting := by
        intro hmem
        obtain ⟨e,he,rfl⟩ := mem_map.mp hmem
        have hkey := Option.some.inj ((h.keys e he).symm.trans hneed)
        have := hd e he
        omega
      exact ⟨hnotmem,(hi.accounted cb (List.getElem?_eq_some_iff.mp hneed).1 hnot).resolve_left hnotmem⟩

variable {e : QueueEvent}

lemma kept_iff {r t : QueueRun} (ht : r.perform react e = .ok t) : r.Kept react e ↔ t.Settled := by
  refine ⟨?_,fun h => ⟨t,ht,h⟩⟩
  rintro ⟨t',ht',h⟩
  rwa [← Except.ok.inj (ht.symm.trans ht')] at h

lemma step_eq {r t : QueueRun} (ht : r.perform react e = .ok t) : r.step react e = t := by
  rw [step,ht]

/-- What is to be shown of an event: it keeps the queue exactly if it is clean, and then the run goes on. -/
def Agrees (r : QueueRun) (e : QueueEvent) : Prop :=
  (r.Kept react e ↔ r.Clean react e) ∧ (r.Clean react e → (r.step react e).Sound)

lemma step_spec {r t : QueueRun} (ht : r.perform react e = .ok t) (hc : t.session.Consistent t.needs)
    (hiff : t.Settled ↔ r.Clean react e) : r.Agrees react e := by
  rw [Agrees,kept_iff react ht,step_eq react ht]
  exact ⟨hiff,fun hclean => ⟨hc,hiff.mpr hclean⟩⟩

section Steps
variable {r : QueueRun}

lemma clean_of_broken (h : r.broken=true) (e : QueueEvent) : r.Clean react e := by
  have hcon : ¬r.broken=false := by simp [h]
  cases e <;> exact fun hnot => absurd hnot hcon

lemma cancel_spec (h : r.Sound) (hbroken : r.broken=false) (streamId : ℕ) :
    r.Agrees react (.encodeCancelStream streamId) := by
  obtain ⟨hi,hd⟩ := (settled_iff h.consistent hbroken).mp h.settled
  have hc := h.consistent.cancel streamId
  refine step_spec react (if_neg (by simp [hbroken])) hc ?_
  have hd' : (r.session.encodeCancelStream streamId).Drained :=
    fun e he => hd e ((Session.mem_queue_cancel e).mp he).1
  rw [settled_iff hc rfl,Session.intact_cancel_iff h.consistent,Clean,and_assoc]
  simp only [hi,hd',hbroken,true_and,and_true,true_implies]

lemma encoderStream_spec (h : r.Sound) (hbroken : r.broken=false) (buf : Bytes) :
    r.Agrees react (.decodeEncoderStream buf) := by
  obtain ⟨hi,hd⟩ := (settled_iff h.consistent hbroken).mp h.settled
  obtain ⟨d,hdec,⟨htable,hcount⟩,hqueue,hbytes⟩ := decodeInstructionsOf_spec h.consistent.table buf
  have hc := h.consistent.withTable htable hcount hqueue hbytes
  have hi' := hi.withTable hqueue hbytes
  have hperform : r.perform react (.decodeEncoderStream buf) = _ := if_neg (by simp [hbroken])
  simp only [Session.decodeEncoderStream,hdec,ok_bind] at hperform
  by_cases herr : d.streamError=none
  · obtain ⟨s',hs',hc',hiff⟩ := Session.drainLoop_spec react _ hc le_rfl
    simp only [herr,if_true,Session.drainQueue,hs',ok_bind,pure_bind] at hperform
    refine step_spec react hperform hc' ?_
    rw [settled_iff hc' rfl,hiff,Clean]
    simp only [hi',hbroken,hdec,Ends.ok_iff,herr,true_and,true_implies]
    rfl
  · simp only [herr,if_false,pure_bind] at hperform
    refine step_spec react hperform hc (iff_of_true ?_ ?_)
    · -- a block that still waits has waited before
      refine ⟨fun cb need hneed hnot => ⟨fun hlt => ?_,fun _ hcon => ?_⟩,hi'.bytes⟩
      · have hold := (h.settled.blocks cb need hneed hnot).1 (lt_of_le_of_lt hcount hlt)
        exact ⟨by rw [show (r.session.withDecoder d).decoder.queue = _ from hqueue]; exact hold.1,hold.2⟩
      · cases hsome : d.streamError with
        | none => exact absurd hsome herr
        | some err => rw [hsome] at hcon; cases hcon
    · intro _
      rw [hdec]
      exact fun hcon => absurd hcon herr

lemma decodeStreaming_spec (h : r.Sound) (hbroken : r.broken=false) (streamID : ℕ) (block : Bytes) :
    r.Agrees react (.decodeStreaming streamID block) := by
  obtain ⟨hi,hd⟩ := (settled_iff h.consistent hbroken).mp h.settled
  have hperform : r.perform react (.decodeStreaming streamID block) = _ := if_neg (by simp [hbroken])
  simp only [Session.decodeStreaming] at hperform
  by_cases hcheck : decodePrefix r.session.decoder.maxTableSize r.session.decoder.getInsertCount block =
      .error .checkFailed
  · have hdec : r.session.decoder.decodeStreaming streamID r.needs.length block = .error .checkFailed := by
      rw [decodeStreaming,hcheck]
    have hnot : ¬r.Clean react (.decodeStreaming streamID block) := fun hcon => (hcon hbroken).1 hcheck
    refine ⟨iff_of_false ?_ hnot,fun hcon => absurd hcon hnot⟩
    rintro ⟨t,ht,-⟩
    rw [hperform,hdec] at ht
    cases ht
  · obtain ⟨calls,d,hdec,hcases⟩ := decodeStreaming_cases h.consistent.table hcheck streamID r.needs.length
    simp only [hdec,ok_bind,pure_bind] at hperform
    have hclean : r.Clean react (.decodeStreaming streamID block) ↔
        Session.EmptyOn r.session.decoder.queue (calls.flatMap (react r.needs.length)) := by
      simp only [Clean,hbroken,hcheck,hdec,Ends.ok_iff,ne_eq,not_false_eq_true,true_and,true_implies]
    rcases hcases with ⟨hone,hsame,hneed⟩ | ⟨rfl,htable,hneed,p,hcb,hqueue,hbytes⟩
    · obtain ⟨hc,hintact⟩ := Session.answered_spec h.consistent hsame hneed hone
      obtain ⟨hc',hintact',hsub,htable'⟩ := Session.cancelAll_spec hc (calls.flatMap (react r.needs.length))
      have hqueue' : ((r.session.withDecoder d).hear r.needs.length calls).decoder.queue = r.session.decoder.queue :=
        hsame.queue
      rw [hqueue'] at hintact' hsub
      refine step_spec react hperform hc' ?_
      have hd' : (((r.session.withDecoder d).tell react r.needs.length calls)).Drained := by
        intro e he
        have hcount : ((r.session.withDecoder d).tell react r.needs.length calls).decoder.getInsertCount =
          r.session.decoder.getInsertCount := congrArg QPACKHeaderTable.getInsertCount (htable'.trans hsame.table)
        rw [hcount]
        exact hd e (hsub.subset he)
      rw [settled_iff hc' rfl,hclean]
      rw [show (session ⟨(r.session.withDecoder d).tell react r.needs.length calls,
        r.needs++[r.session.decoder.needOf block],false⟩).Intact
          (r.needs++[r.session.decoder.needOf block]) ↔ _ from hintact',hintact]
      simp only [hi,hd',true_and,and_true]
    · have htell : (r.session.withDecoder d).tell react r.needs.length [] = r.session.withDecoder d := by
        simp [Session.tell,Session.hear]
      rw [htell] at hperform
      obtain ⟨hc,hintact⟩ := Session.enqueued_spec h.consistent htable hqueue hcb hbytes
      refine step_spec react hperform hc ?_
      rw [settled_iff hc rfl,hclean]
      refine iff_of_true ⟨hintact.mpr hi,fun e he => ?_⟩ fun _ _ hcon => by cases hcon
      have hcount : (r.session.withDecoder d).decoder.getInsertCount = r.session.decoder.getInsertCount :=
        congrArg QPACKHeaderTable.getInsertCount htable
      rw [hcount]
      rcases mem_cons.mp ((Session.emplace_perm _ _ _).mem_iff.mp (hqueue ▸ he)) with rfl | he
      · exact hneed
      · exact hd e he

lemma queue_step (h : r.Sound) (e : QueueEvent) : r.Agrees react e := by
  cases hbroken : r.broken with
  | true =>
    have hperform : r.perform react e = .ok r := if_pos hbroken
    exact step_spec react hperform h.consistent (iff_of_true h.settled (clean_of_broken react hbroken e))
  | false =>
    cases e with
    | decodeStreaming streamID block => exact decodeStreaming_spec react h hbroken streamID block
    | decodeEncoderStream buf => exact encoderStream_spec react h hbroken buf
    | encodeCancelStream streamId => exact cancel_spec react h hbroken streamId

end Steps

lemma initial_sound (tableSize maxUncompressed maxBlocking : ℕ) : (initial tableSize maxUncompressed maxBlocking).Sound where
  consistent :=
    {table := tableSound_init tableSize
     sorted := Pairwise.nil
     nodup := nodup_nil
     keys := nofun
     untold := nofun
     fresh := fun cb _ => ⟨rfl,nofun⟩
     late := fun cb need hneed => by cases hneed
     bytes := le_rfl}
  settled := ⟨nofun,rfl⟩

/-- Every block is answered once its inserts are there exactly in the runs whose events are all clean. -/
theorem blocks_complete_iff (tableSize maxUncompressed maxBlocking : ℕ) (events : List QueueEvent) :
    Run.EveryStep (step react) (Kept react) (initial tableSize maxUncompressed maxBlocking) events ↔
      Run.EveryStep (step react) (Clean react) (initial tableSize maxUncompressed maxBlocking) events :=
  Run.everyStep_congr_while (initial_sound tableSize maxUncompressed maxBlocking)
    fun _ h e _ => queue_step react h e

lemma settled_of_everyStep (events : List QueueEvent) {r : QueueRun}
    (h : Run.EveryStep (step react) (Kept react) r (events++[e])) :
    (Run.run (step react) r (events++[e])).Settled := by
  obtain ⟨t,ht,hs⟩ := Run.everyStep_iff.mp h events e [] rfl
  rw [Run.run_append,Run.run_cons,Run.run_nil,step_eq react ht]
  exact hs

/-- A block without bytes behind its prefix is dropped; a block stays in the queue when the insert it needs is
followed by the start of another instruction, or when the block before it fails; and the bytes of a cancelled
block are still counted. -/
theorem blocks_incomplete :
    (¬Run.EveryStep (step fun _ _ => []) (Kept fun _ _ => []) (initial 4096 65536 100)
      [.decodeStreaming 0 [2,0],.decodeEncoderStream [0x41,97,1,98]]) ∧
    (¬Run.EveryStep (step fun _ _ => []) (Kept fun _ _ => []) (initial 4096 65536 100)
      [.decodeStreaming 0 [2,0,0x80],.decodeEncoderStream [0x41,97,1,98,0x41]]) ∧
    (¬Run.EveryStep (step fun _ _ => []) (Kept fun _ _ => []) (initial 4096 65536 100)
      [.decodeStreaming 0 [2,0,0x85],.decodeStreaming 4 [2,0,0x80],.decodeEncoderStream [0x41,97,1,98]]) ∧
    ¬Run.EveryStep (step fun _ _ => []) (Kept fun _ _ => []) (initial 4096 65536 100)
      [.decodeStreaming 0 [2,0,0x80],.encodeCancelStream 0] := by
  refine ⟨fun h => ?_,fun h => ?_,fun h => ?_,fun h => ?_⟩
  · have hs := settled_of_everyStep _ [.decodeStreaming 0 [2,0]] h
    have hone := ((hs.blocks 0 1 (by decide +kernel) (by decide +kernel)).2 (by decide +kernel) (by decide +kernel)).2
    revert hone
    decide +kernel
  · have hs := settled_of_everyStep _ [.decodeStreaming 0 [2,0,0x80]] h
    have hone := ((hs.blocks 0 1 (by decide +kernel) (by decide +kernel)).2 (by decide +kernel) (by decide +kernel)).2
    revert hone
    decide +kernel
  · have hs := settled_of_everyStep _ [.decodeStreaming 0 [2,0,0x85],.decodeStreaming 4 [2,0,0x80]] h
    have hone := ((hs.blocks 1 1 (by decide +kernel) (by decide +kernel)).2 (by decide +kernel) (by decide +kernel)).2
    revert hone
    decide +kernel
  · have hs := settled_of_everyStep _ [.decodeStreaming 0 [2,0,0x80]] h
    have hbytes := hs.bytes
    revert hbytes
    decide +kernel

end QueueRun

end QuicWestwood.QPACK
