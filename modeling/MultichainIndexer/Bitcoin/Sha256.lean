import Mathlib.Data.List.Basic

/-
Module: MultichainIndexer.Bitcoin.Sha256
Purpose: `sha256.Sum256` of Go's `crypto/sha256`, which `IsValidBase58Address` applies twice to
  compute a Base58 checksum: SHA-256 as FIPS 180-4 defines it, on `uint32` words that wrap. The
  message schedule is kept most recent word first, so that each new word reads its four
  predecessors near the head of the list.
Trusted boundary: none
Main exports: Sha256.k, Sha256.initial, Sha256.pad, Sha256.words, Sha256.compress,
  Sha256.blocks, Sha256.sum256
-/

namespace MultichainIndexer

namespace Sha256

/-- The round constants `K0 … K63`. -/
def k : List UInt32 :=
  [0x428a2f98, 0x71374491, 0xb5c0fbcf, 0xe9b5dba5, 0x3956c25b, 0x59f111f1, 0x923f82a4, 0xab1c5ed5,
   0xd807aa98, 0x12835b01, 0x243185be, 0x550c7dc3, 0x72be5d74, 0x80deb1fe, 0x9bdc06a7, 0xc19bf174,
   0xe49b69c1, 0xefbe4786, 0x0fc19dc6, 0x240ca1cc, 0x2de92c6f, 0x4a7484aa, 0x5cb0a9dc, 0x76f988da,
   0x983e5152, 0xa831c66d, 0xb00327c8, 0xbf597fc7, 0xc6e00bf3, 0xd5a79147, 0x06ca6351, 0x14292967,
   0x27b70a85, 0x2e1b2138, 0x4d2c6dfc, 0x53380d13, 0x650a7354, 0x766a0abb, 0x81c2c92e, 0x92722c85,
   0xa2bfe8a1, 0xa81a664b, 0xc24b8b70, 0xc76c51a3, 0xd192e819, 0xd6990624, 0xf40e3585, 0x106aa070,
   0x19a4c116, 0x1e376c08, 0x2748774c, 0x34b0bcb5, 0x391c0cb3, 0x4ed8aa4a, 0x5b9cca4f, 0x682e6ff3,
   0x748f82ee, 0x78a5636f, 0x84c87814, 0x8cc70208, 0x90befffa, 0xa4506ceb, 0xbef9a3f7, 0xc67178f2]

/-- The initial hash value `H(0)`. -/
def initial : List UInt32 :=
  [0x6a09e667, 0xbb67ae85, 0x3c6ef372, 0xa54ff53a, 0x510e527f, 0x9b05688c, 0x1f83d9ab, 0x5be0cd19]

/-- Rotation right by `n` bits. -/
def rotr (n x : UInt32) : UInt32 := (x >>> n) ||| (x <<< (32 - n))

/-- The words of a message, four bytes each, big-endian. -/
def words : List UInt8 → List UInt32
  | b0 :: b1 :: b2 :: b3 :: rest =>
    (b0.toUInt32 <<< 24 ||| b1.toUInt32 <<< 16 ||| b2.toUInt32 <<< 8 ||| b3.toUInt32) :: words rest
  | _ => []

/-- The message schedule, most recent word first: `n` more words, each
`σ1(W[t-2]) + W[t-7] + σ0(W[t-15]) + W[t-16]`. -/
def extend : Nat → List UInt32 → List UInt32
  | n + 1,
    w@(_ :: w2 :: _ :: _ :: _ :: _ :: w7 :: _ :: _ :: _ :: _ :: _ :: _ :: _ :: w15 :: w16 :: _) =>
    extend n (((rotr 17 w2 ^^^ rotr 19 w2 ^^^ w2 >>> 10) + w7 +
      (rotr 7 w15 ^^^ rotr 18 w15 ^^^ w15 >>> 3) + w16) :: w)
  | _, w => w

/-- One round on the working variables `a … h`, with its constant and schedule word. -/
def round (v : List UInt32) (kw : UInt32 × UInt32) : List UInt32 :=
  match v with
  | [a, b, c, d, e, f, g, h] =>
    let t1 := h + (rotr 6 e ^^^ rotr 11 e ^^^ rotr 25 e) + ((e &&& f) ^^^ (~~~e &&& g)) + kw.1 +
      kw.2
    let t2 := (rotr 2 a ^^^ rotr 13 a ^^^ rotr 22 a) + ((a &&& b) ^^^ (a &&& c) ^^^ (b &&& c))
    [t1 + t2, a, b, c, d + t1, e, f, g]
  | _ => v

/-- The compression of one block of sixteen words into the hash value. -/
def compress (hash block : List UInt32) : List UInt32 :=
  let w := (extend 48 block.reverse).reverse
  List.zipWith (· + ·) hash ((k.zip w).foldl round hash)

/-- The loop of `block` over `n` blocks of sixteen words. -/
def blocks : Nat → List UInt32 → List UInt32 → List UInt32
  | 0, _, hash => hash
  | n + 1, w, hash => blocks n (w.drop 16) (compress hash (w.take 16))

/-- The padding: a `1` bit, zeros up to 56 bytes modulo 64, and the bit length on eight bytes,
big-endian. -/
def pad (msg : List UInt8) : List UInt8 :=
  msg ++ [(0x80 : UInt8)] ++ List.replicate ((119 - msg.length % 64) % 64) (0 : UInt8) ++
    ((List.range 8).reverse.map fun i => UInt8.ofNat ((8 * msg.length) >>> (8 * i)))

/-- `Sum256`: the hash value after every block of the padded message, big-endian. -/
def sum256 (msg : List UInt8) : List UInt8 :=
  let padded := pad msg
  (blocks (padded.length / 64) (words padded) initial).flatMap
    fun x => [(x >>> 24).toUInt8, (x >>> 16).toUInt8, (x >>> 8).toUInt8, x.toUInt8]

set_option maxRecDepth 2000 in
/-- The one-block example of FIPS 180-4: the digest of `"abc"`. -/
example : sum256 [0x61, 0x62, 0x63] =
    [0xba, 0x78, 0x16, 0xbf, 0x8f, 0x01, 0xcf, 0xea, 0x41, 0x41, 0x40, 0xde, 0x5d, 0xae, 0x22, 0x23,
     0xb0, 0x03, 0x61, 0xa3, 0x96, 0x17, 0x7a, 0x9c, 0xb4, 0x10, 0xff, 0x61, 0xf2, 0x00, 0x15,
     0xad] := by
  decide

end Sha256

end MultichainIndexer
