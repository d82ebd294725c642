import QuicWestwood.Huffman
import QuicWestwood.PrefixInteger

/-! A literal is its length, with a flag in front of the length prefix that says whether the bytes that follow
are Huffman coded. -/
namespace QuicWestwood.HPACK
open ByteCodec

def toLowerAscii (byte : UInt8) : UInt8 := if 65≤byte ∧ byte≤90 then byte+32 else byte

/-- `HPACKHeaderName` stores names in lower case. -/
def headerName (name : Bytes) : Bytes := name.map toLowerAscii

/-- `HPACKDecodeBuffer::decodeLiteral`. The limit on the size is a 32-bit number. -/
def decodeLiteral (maxLiteralSize nbit : ℕ) (bytes : Bytes) : Except DecodeError (Bytes × Bytes) :=
  match bytes with
  | [] => .error .bufferUnderflow
  | byte::_ =>
    match decodeInteger nbit bytes with
    | .error err => .error err
    | .ok (size,rest) =>
      if size.toNat > rest.length then .error .bufferUnderflow
      else if size.toNat > maxLiteralSize then .error .literalTooLarge
      else if byte.toNat.testBit nbit then .ok (Huffman.decode (rest.take size.toNat),rest.drop size.toNat)
      else .ok (rest.take size.toNat,rest.drop size.toNat)

/-- Complete codes, then at most seven ones. -/
def ValidEncoding (bytes : Bytes) : Prop :=
  ∃ (literal : Bytes) (padding : ℕ),padding≤7 ∧
    Huffman.byteBits bytes = literal.flatMap Huffman.codeBits++List.replicate padding true

structure HuffmanLimits where
  huffMin : ℕ
  huffMax : ℕ
  deriving DecidableEq

def encodeHuffman (instruction : UInt8) (nbit : ℕ) (literal : Bytes) : Except Failure Bytes := do
  let length ← encodeInteger (.ofNat (Huffman.getEncodeSize literal)) (instruction ||| .ofNat (2^nbit)) nbit
  return length++Huffman.encode literal

def encodeLiteral (limits : HuffmanLimits) (instruction : UInt8) (nbit : ℕ) (literal : Bytes) :
    Except Failure Bytes :=
  if literal.length ≥ limits.huffMin ∧ literal.length≤limits.huffMax then encodeHuffman instruction nbit literal
  else do
    let length ← encodeInteger (.ofNat literal.length) instruction nbit
    return length++literal

end QuicWestwood.HPACK
