import QuicWestwood.HeaderStatic
import QuicWestwood.HpackLiteral
import QuicWestwood.QpackPrefix
import QuicWestwood.QpackTable

/-! Header blocks refer to entries of the dynamic table by their distance from the base of the block. A block
that needs inserts which have not arrived waits in a queue; the inserts come on the encoder stream, cut
anywhere. -/
namespace QuicWestwood.QPACK
open ByteCodec HPACK

/-! ## Header blocks -/

section Block
variable (table : QPACKHeaderTable) (baseIndex maxUncompressed : ℕ)

def isValid (isStatic : Bool) (index : ℕ) (aboveBase : Bool) : Bool :=
  if index > 2^32-1 then false
  else if isStatic then staticTable.isValid index
  else if aboveBase then
    if baseIndex+index > 2^32-1 then false else table.isValid 1 (baseIndex+index)
  else table.isValid index baseIndex

def getHeader (isStatic : Bool) (index base : ℕ) (aboveBase : Bool) : Except Failure HPACKHeader :=
  if isStatic then staticTable.getHeader index
  else if aboveBase then
    if base ≤ 2^32-1-index then table.getHeader 1 (base+index) else .error .checkFailed
  else table.getHeader index base

/-- The index on the wire starts at 0; it is validated before the entry is read. -/
def lookup (isStatic : Bool) (wire : ℕ) (aboveBase : Bool) : Except Stop HPACKHeader :=
  if isValid table baseIndex isStatic ((wire+1) % 2^64) aboveBase then
    (getHeader table isStatic ((wire+1) % 2^64) baseIndex aboveBase).mapError fun _ => .checkFailed
  else .error (.decodeError .invalidIndex)

def peekBit (nbit : ℕ) : Bytes → Bool
  | [] => false
  | byte::_ => byte.toNat.testBit nbit

def literal (nbit : ℕ) (bytes : Bytes) : Except Stop (Bytes × Bytes) :=
  (decodeLiteral (maxUncompressed % 2^32) nbit bytes).mapError .decodeError

def decodeIndexedHeaderQ (prefixLength : ℕ) (aboveBase : Bool) (bytes : Bytes) : Except Stop (HPACKHeader × Bytes) := do
  let (index,rest) ← integer prefixLength bytes
  if index = 2^64-1 then throw .checkFailed
  let header ← lookup table baseIndex (!aboveBase && peekBit prefixLength bytes) index aboveBase
  return (header,rest)

/-- The first part of `decodeLiteralHeaderQ`. -/
def decodeName (nameIndexed : Bool) (prefixLength : ℕ) (aboveBase : Bool) (bytes : Bytes) :
    Except Stop (Bytes × Bytes) := do
  if nameIndexed then
    let (nameIndex,rest) ← integer prefixLength bytes
    let header ← lookup table baseIndex (!aboveBase && peekBit prefixLength bytes) nameIndex aboveBase
    return (header.name,rest)
  else
    let (name,rest) ← literal maxUncompressed prefixLength bytes
    return (headerName name,rest)

/-- `decodeLiteralHeaderQ` on a request stream. -/
def decodeLiteralHeaderQ (nameIndexed : Bool) (prefixLength : ℕ) (aboveBase : Bool) (bytes : Bytes) :
    Except Stop (HPACKHeader × Bytes) := do
  let (name,rest) ← decodeName table baseIndex maxUncompressed nameIndexed prefixLength aboveBase bytes
  let (value,rest) ← literal maxUncompressed 7 rest
  return (⟨name,value⟩,rest)

def decodeHeaderQ (bytes : Bytes) : Except Stop (HPACKHeader × Bytes) :=
  if peekBit 7 bytes then decodeIndexedHeaderQ table baseIndex 6 false bytes
  else if peekBit 6 bytes then decodeLiteralHeaderQ table baseIndex maxUncompressed true 4 false bytes
  else if peekBit 5 bytes then decodeLiteralHeaderQ table baseIndex maxUncompressed false 3 false bytes
  else if peekBit 4 bytes then decodeIndexedHeaderQ table baseIndex 4 true bytes
  else decodeLiteralHeaderQ table baseIndex maxUncompressed true 3 true bytes

/-- The headers emitted, their size, and why the loop of `decodeStreamingImpl` has ended early. -/
structure Decoded where
  headers : List HPACKHeader
  emittedSize : ℕ
  stop : Option Stop
  deriving DecidableEq

def Decoded.cons (header : HPACKHeader) (r : Decoded) : Decoded := ⟨header::r.headers,r.emittedSize,r.stop⟩

/-- The loop of `decodeStreamingImpl`; each turn takes a byte at least. The size limit is
checked after a failed turn too. -/
def decodeHeaders : ℕ → ℕ → Bytes → Decoded
  | 0, emittedSize, _ => ⟨[],emittedSize,none⟩
  | fuel+1, emittedSize, bytes =>
    if bytes=[] then ⟨[],emittedSize,none⟩
    else
      match decodeHeaderQ table baseIndex maxUncompressed bytes with
      | .error .checkFailed => ⟨[],emittedSize,some .checkFailed⟩
      | .error (.decodeError err) =>
        ⟨[],emittedSize,some (.decodeError (if emittedSize > maxUncompressed then .headersTooLarge else err))⟩
      | .ok (header,rest) =>
        if (emittedSize+header.realBytes) % 2^32 > maxUncompressed then
          ⟨[header],(emittedSize+header.realBytes) % 2^32,some (.decodeError .headersTooLarge)⟩
        else .cons header (decodeHeaders fuel (((emittedSize+header.realBytes) % 2^32+2) % 2^32) rest)

end Block

lemma integer_ne_checkFailed (nbit : ℕ) (bytes : Bytes) : integer nbit bytes≠.error .checkFailed := by
  rw [integer]
  split
  · exact fun hcon => by cases hcon
  · exact fun hcon => by cases hcon

lemma literal_ne_checkFailed (maxUncompressed nbit : ℕ) (bytes : Bytes) :
    literal maxUncompressed nbit bytes≠.error .checkFailed := by
  rw [literal]
  cases decodeLiteral (maxUncompressed % 2^32) nbit bytes with
  | error err => exact nofun
  | ok r => exact nofun

lemma bind_ne_checkFailed {α β : Type} {x : Except Stop α} {f : α → Except Stop β} (hx : x≠.error .checkFailed)
    (hf : ∀ a,x = .ok a → f a≠.error .checkFailed) : (x >>= f)≠.error .checkFailed := by
  cases x with
  | error stop => exact fun hcon => hx (by cases hcon; rfl)
  | ok a => exact hf a rfl

/-! ## The decoder -/

/-- What a block's `StreamingCallback` is told. -/
inductive Callback
  | onHeader (header : HPACKHeader)
  | onHeadersComplete (compressed compressedBlock uncompressed : ℕ) (acknowledge : Bool)
  | onDecodeError (err : DecodeError)
  deriving DecidableEq

structure PendingBlock where
  streamID : ℕ
  baseIndex : ℕ
  consumed : ℕ
  /-- `block`, of `length` bytes. -/
  block : Bytes
  cb : ℕ
  deriving DecidableEq

def PendingBlock.length (p : PendingBlock) : ℕ := p.block.length

structure QPACKDecoder where
  table : QPACKHeaderTable
  maxTableSize : ℕ
  maxUncompressed : ℕ
  maxBlocking : ℕ
  err : Option DecodeError
  baseIndex : ℕ
  lastAcked : ℕ
  holBlockCount : ℕ
  pendingEncoderBytes : ℕ
  queuedBytes : ℕ
  /-- `queue_`, by required insert count, equal ones in the order of their arrival. -/
  queue : List (ℕ × PendingBlock)
  /-- `partial_`: the name of an insert whose value has not arrived. -/
  part : Option Bytes
  ingress : Bytes

namespace QPACKDecoder

def init (tableSize maxUncompressed maxBlocking : ℕ) : QPACKDecoder where
  table := .init tableSize false
  maxTableSize := tableSize
  maxUncompressed := maxUncompressed
  maxBlocking := maxBlocking
  err := none
  baseIndex := 0
  lastAcked := 0
  holBlockCount := 0
  pendingEncoderBytes := 0
  queuedBytes := 0
  queue := []
  part := none
  ingress := []

def getInsertCount (d : QPACKDecoder) : ℕ := d.table.getInsertCount

def failedWith (d : QPACKDecoder) (err : DecodeError) : QPACKDecoder :=
  {d with err := some err, pendingEncoderBytes := 0}

def decodedUpTo (d : QPACKDecoder) (requiredInsertCount : ℕ) : QPACKDecoder :=
  {d with lastAcked := max d.lastAcked requiredInsertCount, pendingEncoderBytes := 0}

/-- The calls of the block's callback, the last of them by `completeDecode`. `consumed` bytes of the
block are in front of `bytes`. -/
def decodeStreamingImpl (d : QPACKDecoder) (requiredInsertCount consumed : ℕ) (bytes : Bytes) :
    Except Failure (List Callback × QPACKDecoder) :=
  match d.err with
  | some err => .ok ([.onDecodeError err],d.failedWith err)
  | none =>
    match decodeHeaders d.table d.baseIndex d.maxUncompressed bytes.length 0 bytes with
    | ⟨headers,emittedSize,none⟩ =>
      .ok (headers.map .onHeader++[.onHeadersComplete (d.pendingEncoderBytes+(consumed+bytes.length))
        (consumed+bytes.length) emittedSize (requiredInsertCount != 0)],d.decodedUpTo requiredInsertCount)
    | ⟨headers,_,some (.decodeError err)⟩ =>
      .ok (headers.map .onHeader++[.onDecodeError err],d.failedWith err)
    | ⟨_,_,some .checkFailed⟩ => .error .checkFailed

/-- A `multimap` puts a new element behind those with the same key. -/
def emplace (key : ℕ) (p : PendingBlock) (queue : List (ℕ × PendingBlock)) : List (ℕ × PendingBlock) :=
  queue.takeWhile (·.1 ≤ key)++(key,p)::queue.dropWhile (·.1 ≤ key)

def enqueueHeaderBlock (d : QPACKDecoder) (requiredInsertCount : ℕ) (p : PendingBlock) :
    Except Failure QPACKDecoder :=
  if requiredInsertCount > d.getInsertCount then
    .ok {d with
      queue := emplace requiredInsertCount p d.queue
      holBlockCount := d.holBlockCount+1
      queuedBytes := d.queuedBytes+p.length}
  else .error .checkFailed

def encodeCancelStream (d : QPACKDecoder) (streamId : ℕ) : QPACKDecoder :=
  {d with queue := d.queue.filter fun e => e.2.streamID≠streamId}

def started (d : QPACKDecoder) : QPACKDecoder := {d with err := none}

def atBase (d : QPACKDecoder) (baseIndex : ℕ) : QPACKDecoder := {d with baseIndex := baseIndex}

/-- A header block, on the stream `streamID` and with the callback `cb`. -/
def decodeStreaming (d : QPACKDecoder) (streamID cb : ℕ) (block : Bytes) :
    Except Failure (List Callback × QPACKDecoder) :=
  match decodePrefix d.maxTableSize d.getInsertCount block with
  | .error .checkFailed => .error .checkFailed
  | .error (.decodeError err) => (d.started.failedWith err).decodeStreamingImpl 0 0 block
  | .ok (p,rest) =>
    if p.requiredInsertCount > d.getInsertCount then
      if d.queue.length ≥ d.maxBlocking then
        .ok ([.onDecodeError .tooManyBlocking],{d.atBase p.baseIndex with err := some .tooManyBlocking})
      else do
        let d' ← (d.started.atBase p.baseIndex).enqueueHeaderBlock p.requiredInsertCount
          ⟨streamID,p.baseIndex,block.length-rest.length,rest,cb⟩
        return ([],d')
    else (d.started.atBase p.baseIndex).decodeStreamingImpl p.requiredInsertCount (block.length-rest.length) rest

def dequeued (d : QPACKDecoder) (queue : List (ℕ × PendingBlock)) : QPACKDecoder := {d with queue := queue}

def decodeBlock (d : QPACKDecoder) (requiredInsertCount : ℕ) (pending : PendingBlock) :
    Except Failure (List Callback × QPACKDecoder) :=
  if 0<pending.length then
    {d with queuedBytes := d.queuedBytes-pending.length, baseIndex := pending.baseIndex}.decodeStreamingImpl
      requiredInsertCount pending.consumed pending.block
  else .ok ([],d)

end QPACKDecoder

/-! ## The encoder stream -/

/-- How an instruction of the encoder stream ends: done, cut off by the end of the data (with
what stays in the buffer), or with an error. -/
inductive Instructed
  | done (table : QPACKHeaderTable) (rest : Bytes)
  | needMore (table : QPACKHeaderTable) (part : Option Bytes) (rest : Bytes)
  | failed (table : QPACKHeaderTable) (err : DecodeError)
  | checkFailed

section Encoder
variable (table : QPACKHeaderTable) (maxTableSize maxUncompressed : ℕ)

def insertHeader (header : HPACKHeader) (rest : Bytes) : Instructed :=
  match table.add header with
  | .error _ => .checkFailed
  | .ok (true,table') => .done table' rest
  | .ok (false,table') => .failed table' .insertTooLarge

/-- The end of `decodeLiteralHeaderQ` on the encoder stream, once the name is there. -/
def insertValue (name bytes : Bytes) : Instructed :=
  match literal maxUncompressed 7 bytes with
  | .error (.decodeError .bufferUnderflow) => .needMore table (some name) bytes
  | .error (.decodeError err) => .failed table err
  | .error .checkFailed => .checkFailed
  | .ok (value,rest) => insertHeader table ⟨name,value⟩ rest

/-- `decodeLiteralHeaderQ` on the encoder stream. -/
def insertLiteral (nameIndexed : Bool) (prefixLength : ℕ) (bytes : Bytes) : Instructed :=
  match decodeName table 0 maxUncompressed nameIndexed prefixLength false bytes with
  | .error (.decodeError .bufferUnderflow) => .needMore table none bytes
  | .error (.decodeError err) => .failed table err
  | .error .checkFailed => .checkFailed
  | .ok (name,rest) => insertValue table maxUncompressed name rest

def handleTableSizeUpdate (bytes : Bytes) : Instructed :=
  match integer 5 bytes with
  | .error (.decodeError .bufferUnderflow) => .needMore table none bytes
  | .error (.decodeError err) => .failed table err
  | .error .checkFailed => .checkFailed
  | .ok (arg,rest) =>
    if arg > maxTableSize then .failed table .invalidTableSize
    else
      match table.setCapacity arg with
      | .error _ => .checkFailed
      | .ok (_,table') => .done table' rest

def duplicate (bytes : Bytes) : Instructed :=
  match decodeIndexedHeaderQ table 0 5 false bytes with
  | .error (.decodeError .bufferUnderflow) => .needMore table none bytes
  | .error (.decodeError err) => .failed table err
  | .error .checkFailed => .checkFailed
  | .ok (header,rest) => insertHeader table header rest

def decodeEncoderStreamInstruction (part : Option Bytes) (bytes : Bytes) : Instructed :=
  match part with
  | some name => insertValue table maxUncompressed name bytes
  | none =>
    if peekBit 7 bytes then insertLiteral table maxUncompressed true 6 bytes
    else if peekBit 6 bytes then insertLiteral table maxUncompressed false 5 bytes
    else if peekBit 5 bytes then handleTableSizeUpdate table maxTableSize bytes
    else duplicate table bytes

/-- The loop of `decodeEncoderStream`; each turn but the last takes a byte at least. -/
def decodeInstructions (maxTableSize maxUncompressed : ℕ) :
    ℕ → QPACKHeaderTable → Option Bytes → Bytes → Instructed
  | 0, table, _, bytes => .done table bytes
  | fuel+1, table, part, bytes =>
    if bytes=[] then .done table []
    else
      match decodeEncoderStreamInstruction table maxTableSize maxUncompressed part bytes with
      | .done table' rest => decodeInstructions maxTableSize maxUncompressed fuel table' none rest
      | .needMore table' part' rest => .needMore table' part' rest
      | .failed table' err => .failed table' err
      | .checkFailed => .checkFailed

end Encoder

namespace QPACKDecoder

/-- The decoder behind the instructions that were complete. -/
def instructed (d : QPACKDecoder) (table : QPACKHeaderTable) (part : Option Bytes) (ingress : Bytes)
    (err : Option DecodeError) (pendingEncoderBytes : ℕ) : QPACKDecoder :=
  {d with
    table := table
    part := part
    ingress := ingress
    err := err
    baseIndex := 0
    pendingEncoderBytes := pendingEncoderBytes}

/-- The decoder before the queue is drained. After an error the connection is closed, and what is left
in the buffer is not looked at again. -/
def decodeInstructionsOf (d : QPACKDecoder) (buf : Bytes) : Except Failure QPACKDecoder :=
  match decodeInstructions d.maxTableSize d.maxUncompressed (d.ingress++buf).length d.table d.part (d.ingress++buf) with
  | .done table rest => .ok (d.instructed table none rest none (d.pendingEncoderBytes+(d.ingress++buf).length))
  | .needMore table part rest => .ok (d.instructed table part rest (some .bufferUnderflow) d.pendingEncoderBytes)
  | .failed table err => .ok (d.instructed table none [] (some err) d.pendingEncoderBytes)
  | .checkFailed => .error .checkFailed

def streamError (d : QPACKDecoder) : Option DecodeError := if d.err = some .bufferUnderflow then none else d.err

end QPACKDecoder

/-! ## The decoder and its callbacks -/

/-- The decoder, what the callbacks have been told, and the blocks that were cancelled. -/
structure Session where
  decoder : QPACKDecoder
  told : List (ℕ × Callback)
  /-- The callbacks of the blocks that were taken from the queue unread. -/
  cancelled : List ℕ

namespace Session

def withDecoder (s : Session) (d : QPACKDecoder) : Session := {s with decoder := d}

def encodeCancelStream (s : Session) (streamId : ℕ) : Session :=
  {s with
    decoder := s.decoder.encodeCancelStream streamId
    cancelled := s.cancelled++(s.decoder.queue.filter fun e => e.2.streamID = streamId).map (·.2.cb)}

def hear (s : Session) (cb : ℕ) (calls : List Callback) : Session :=
  {s with told := s.told++calls.map fun call => (cb,call)}

-- the streams that a callback cancels when it is told something
variable (react : ℕ → Callback → List ℕ)

/-- A callback is called; in answer it may cancel streams. -/
def tell (s : Session) (cb : ℕ) (calls : List Callback) : Session :=
  (calls.flatMap (react cb)).foldl encodeCancelStream (s.hear cb calls)

/-- One turn of the loop of `drainQueue`. -/
def drainOne (s : Session) (id : ℕ) (block : PendingBlock) (queue : List (ℕ × PendingBlock)) :
    Except Failure Session := do
  let (calls,d) ← (s.decoder.dequeued queue).decodeBlock id block
  return (s.withDecoder d).tell react block.cb calls

/-- The loop of `drainQueue`; each turn takes a block from the queue. -/
def drainLoop : ℕ → Session → Except Failure Session
  | 0, s => .ok s
  | fuel+1, s =>
    match s.decoder.queue with
    | [] => .ok s
    | (id,block)::queue =>
      if id ≤ s.decoder.getInsertCount ∧ s.decoder.err=none then
        s.drainOne react id block queue >>= drainLoop fuel
      else .ok s

def drainQueue (s : Session) : Except Failure Session := drainLoop react s.decoder.queue.length s

/-- A header block, on the stream `streamID` and with the callback `cb`. -/
def decodeStreaming (s : Session) (streamID cb : ℕ) (block : Bytes) : Except Failure Session := do
  let (calls,d) ← s.decoder.decodeStreaming streamID cb block
  return (s.withDecoder d).tell react cb calls

/-- The error that is returned, and the session. An instruction that is cut off leaves its error behind while
the queue is drained. -/
def decodeEncoderStream (s : Session) (buf : Bytes) : Except Failure (Option DecodeError × Session) := do
  let d ← s.decoder.decodeInstructionsOf buf
  if d.streamError=none then
    let s' ← (s.withDecoder d).drainQueue react
    return (none,s')
  else return (d.streamError,s.withDecoder d)

end Session

end QuicWestwood.QPACK
