import MultichainIndexer.Bitcoin.Types

/-
Module: MultichainIndexer.Bitcoin.Hex
Purpose: `ReverseHex` and `ValidateTxHash` of the `bitcoin` package, and the two functions of
  Go's `encoding/hex` they call, `hex.DecodeString` and `hex.EncodeToString`. A Go string is its
  bytes, so every string here is a `List UInt8` and its `len` is the list's length.
  `DecodeString` also returns the bytes decoded before an error; both callers read only the
  error then, so a failed decoding is an `Except.error` alone.
Trusted boundary: none
Main exports: Hex.fromHexChar, Hex.DecodeError, Hex.decodeString, Hex.hextable,
  Hex.encodeToString, reverseBytes, reverseHex, validateTxHash
-/

namespace MultichainIndexer

namespace Hex

/-- `fromHexChar`: the value of a hex digit of either case, `none` for any other byte. -/
def fromHexChar (c : UInt8) : Option UInt8 :=
  if '0'.toUInt8 ≤ c ∧ c ≤ '9'.toUInt8 then some (c - '0'.toUInt8)
  else if 'a'.toUInt8 ≤ c ∧ c ≤ 'f'.toUInt8 then some (c - 'a'.toUInt8 + 10)
  else if 'A'.toUInt8 ≤ c ∧ c ≤ 'F'.toUInt8 then some (c - 'A'.toUInt8 + 10)
  else none

/-- The errors of `Decode`: `InvalidByteError` names the first byte that is not a hex digit,
`ErrLength` reports an odd length of hex digits. -/
inductive DecodeError where
  | invalidByte (b : UInt8)
  | errLength
  deriving DecidableEq, Repr

/-- `DecodeString`: the loop of `Decode` over the pairs `src[j-1], src[j]`, checking the first
byte of a pair before the second, and, for an odd length, the last byte before the length. -/
def decodeString : List UInt8 → Except DecodeError (List UInt8)
  | [] => .ok []
  | [p] => if (fromHexChar p).isSome then .error .errLength else .error (.invalidByte p)
  | p :: q :: rest =>
    match fromHexChar p, fromHexChar q with
    | none, _ => .error (.invalidByte p)
    | some _, none => .error (.invalidByte q)
    | some a, some b => (decodeString rest).map (((a <<< 4) ||| b) :: ·)

/-- `hextable`: the sixteen lower-case digits. -/
def hextable : List UInt8 := "0123456789abcdef".data.map Char.toUInt8

/-- `EncodeToString`: two digits per byte, `hextable[v>>4]` then `hextable[v&0x0f]`. -/
def encodeToString (src : List UInt8) : List UInt8 :=
  src.flatMap fun v => [hextable.getD (v >>> 4).toNat 0, hextable.getD (v &&& 0x0f).toNat 0]

end Hex

namespace Bitcoin

/-- The swap loop `for i, j := 0, len(data)-1; i < j; i, j = i+1, j-1` of `ReverseHex`, from the
pair `i, j`. For an empty slice Go's `j` is `-1`; here it is `0`, and the loop stops at once in
both. -/
def reverseBytes (data : List UInt8) (i j : Nat) : List UInt8 :=
  if i < j then reverseBytes ((data.set i (data.getD j 0)).set j (data.getD i 0)) (i + 1) (j - 1)
  else data
termination_by j - i

/-- `ReverseHex`: a string that does not decode is returned as it is; otherwise its bytes are
reversed and encoded again, in lower case. -/
def reverseHex (s : List UInt8) : List UInt8 :=
  match Hex.decodeString s with
  | .error _ => s
  | .ok data => Hex.encodeToString (reverseBytes data 0 (data.length - 1))

/-- `ValidateTxHash`: 64 bytes that decode as hex. -/
def validateTxHash (hash : List UInt8) : Bool :=
  hash.length = 64 && (Hex.decodeString hash).isOk

end Bitcoin

end MultichainIndexer
