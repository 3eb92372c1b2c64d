import Mathlib.Data.List.DropRight
import MultichainIndexer.Bitcoin.Types

/-
Module: MultichainIndexer.Bitcoin.Address
Purpose: The address functions of the `bitcoin` package: `ExtractAddresses`, the validators
  `IsValidAddress`, `IsValidBech32Address`, `IsValidBase58Address`, the classifier
  `DetectAddressType`, and `NormalizeAddress` with the `strings.TrimSpace` it calls. The decoders
  they call (`bech32.Decode`, `bech32.ConvertBits`, `base58.Decode`, `sha256.Sum256`) belong to
  libraries, not to this repository; they are the fields of `AddressLibrary`, and every
  definition here takes one.
Trusted boundary: none
Main exports: extractAddresses, AddressType, AddressLibrary, isValidAddress,
  isValidBech32Address, isValidBase58Address, detectAddressType, isSpace, trimSpace,
  normalizeAddress
-/

namespace MultichainIndexer.Bitcoin

/-- `ExtractAddresses`: the single `Address` unless it is empty, then every entry of
`Addresses`, empty ones included. -/
def extractAddresses (spk : ScriptPubKey) : List String :=
  (if spk.address ≠ "" then [spk.address] else []) ++
    (if spk.addresses.length > 0 then spk.addresses else [])

theorem extractAddresses_eq (spk : ScriptPubKey) :
    extractAddresses spk = (if spk.address = "" then [] else [spk.address]) ++ spk.addresses := by
  unfold extractAddresses
  congr 1
  · by_cases empty : spk.address = "" <;> simp [empty]
  · split_ifs with nonEmpty
    · rfl
    · exact (List.eq_nil_of_length_eq_zero (Nat.eq_zero_of_not_pos nonEmpty)).symm

/-- `AddressType`: the string constants `AddressTypeP2PKH` … `AddressTypeWitnessUnknown`, which
are pairwise distinct. -/
inductive AddressType where
  | p2pkh
  | p2sh
  | p2wpkh
  | p2wsh
  | p2tr
  | unknown
  | nonStandard
  | nullData
  | multisig
  | pubkey
  | witnessV1
  | witnessUnknown
deriving DecidableEq, Repr

/-- `MainnetP2PKHPrefix`. -/
def mainnetP2PKHPrefix : UInt8 := 0x00
/-- `MainnetP2SHPrefix`. -/
def mainnetP2SHPrefix : UInt8 := 0x05
/-- `MainnetBech32HRP`. -/
def mainnetBech32HRP : String := "bc"
/-- `TestnetP2PKHPrefix`. -/
def testnetP2PKHPrefix : UInt8 := 0x6f
/-- `TestnetP2SHPrefix`. -/
def testnetP2SHPrefix : UInt8 := 0xc4
/-- `TestnetBech32HRP`. -/
def testnetBech32HRP : String := "tb"

/-- The library functions the address code calls, as their Go signatures have them: `bech32.Decode`
returns the human-readable part and the 5-bit data or an error, `bech32.ConvertBits` regroups bits
or fails, `base58.Decode` returns the decoded bytes (empty on bad input), `sha256.Sum256` hashes. -/
structure AddressLibrary where
  bech32Decode : String → Except String (String × List UInt8)
  convertBits : List UInt8 → UInt8 → UInt8 → Bool → Except String (List UInt8)
  base58Decode : String → List UInt8
  sum256 : List UInt8 → List UInt8

/-- The local `expectedHRP` of `IsValidBech32Address` and of `DetectAddressType`. -/
def expectedHRP (isTestnet : Bool) : String :=
  if isTestnet then testnetBech32HRP else mainnetBech32HRP

variable (lib : AddressLibrary)

/-- `strings.HasPrefix`: `pre` is an initial segment of `s`. -/
def hasPrefix (s pre : String) : Bool := pre.data.isPrefixOf s.data

/-- The prefix test both `IsValidAddress` and `DetectAddressType` route on. -/
def hasBech32Prefix (addr : String) : Bool :=
  hasPrefix addr "bc1" || hasPrefix addr "tb1"

/-- `IsValidBech32Address`. -/
def isValidBech32Address (addr : String) (isTestnet : Bool) : Bool :=
  match lib.bech32Decode addr with
  | .error _ => false
  | .ok (hrp, data) =>
    if hrp ≠ expectedHRP isTestnet then false
    else
      match data with
      | [] => false
      | witnessVersion :: rest =>
        match lib.convertBits rest 5 8 false with
        | .error _ => false
        | .ok witnessProgram =>
          if witnessVersion = 0 ∧ witnessProgram.length ≠ 20 ∧ witnessProgram.length ≠ 32 then
            false
          else if witnessVersion = 1 ∧ witnessProgram.length ≠ 32 then false
          else true

/-- The checksum loop of `IsValidBase58Address`: `checksum[i] == expectedChecksum[i]` for
`i < 4`. -/
def checksumMatches (checksum expectedChecksum : List UInt8) : Bool :=
  (List.range 4).all fun i => checksum[i]? == expectedChecksum[i]?

/-- `IsValidBase58Address`. -/
def isValidBase58Address (addr : String) (isTestnet : Bool) : Bool :=
  match lib.base58Decode addr with
  | [] => false
  | decoded@(version :: _) =>
    if decoded.length ≠ 25 then false
    else
      let payload := decoded.take 21
      let checksum := decoded.drop 21
      let validVersion :=
        if isTestnet then version = testnetP2PKHPrefix || version = testnetP2SHPrefix
        else version = mainnetP2PKHPrefix || version = mainnetP2SHPrefix
      if !validVersion then false
      else checksumMatches checksum ((lib.sum256 (lib.sum256 payload)).take 4)

/-- `IsValidAddress`. -/
def isValidAddress (addr : String) (isTestnet : Bool) : Bool :=
  if addr = "" then false
  else if hasBech32Prefix addr then isValidBech32Address lib addr isTestnet
  else isValidBase58Address lib addr isTestnet

/-- The bech32 block of `DetectAddressType`. `some t` is a `return t`; `none` is a witness
version 0 or 1 whose program length no `case` accepts, which falls out of the `switch` into the
Base58 code below it. -/
def detectBech32Type (addr : String) (isTestnet : Bool) : Option AddressType :=
  match lib.bech32Decode addr with
  | .error _ => some .unknown
  | .ok (_, []) => some .unknown
  | .ok (hrp, witnessVersion :: rest) =>
    if hrp ≠ expectedHRP isTestnet then some .unknown
    else
      match lib.convertBits rest 5 8 false with
      | .error _ => some .unknown
      | .ok converted =>
        if witnessVersion = 0 then
          if converted.length = 20 then some .p2wpkh
          else if converted.length = 32 then some .p2wsh
          else none
        else if witnessVersion = 1 then
          if converted.length = 32 then some .p2tr else none
        else some .witnessUnknown

/-- The Base58 block of `DetectAddressType`. -/
def detectBase58Type (addr : String) (isTestnet : Bool) : AddressType :=
  match lib.base58Decode addr with
  | [] => .unknown
  | decoded@(version :: _) =>
    if decoded.length = 25 then
      if isTestnet then
        if version = testnetP2PKHPrefix then .p2pkh
        else if version = testnetP2SHPrefix then .p2sh
        else .unknown
      else
        if version = mainnetP2PKHPrefix then .p2pkh
        else if version = mainnetP2SHPrefix then .p2sh
        else .unknown
    else .unknown

/-- `DetectAddressType`. -/
def detectAddressType (addr : String) (isTestnet : Bool) : AddressType :=
  if addr = "" then .unknown
  else
    match (if hasBech32Prefix addr then detectBech32Type lib addr isTestnet else none) with
    | some addressType => addressType
    | none => detectBase58Type lib addr isTestnet

/-! ### `NormalizeAddress` -/

/-- `unicode.IsSpace`: in Latin-1, tab, newline, vertical tab, form feed, carriage return, space,
U+0085 and U+00A0; above it, the other characters of the `White_Space` table. -/
def isSpace (r : Char) : Bool :=
  if r.val ≤ 0xFF then
    r.val == 0x09 || r.val == 0x0A || r.val == 0x0B || r.val == 0x0C || r.val == 0x0D ||
      r.val == 0x20 || r.val == 0x85 || r.val == 0xA0
  else
    r.val == 0x1680 || (0x2000 ≤ r.val && r.val ≤ 0x200A) || r.val == 0x2028 ||
      r.val == 0x2029 || r.val == 0x202F || r.val == 0x205F || r.val == 0x3000

/-- `strings.TrimSpace`: the string without its leading and trailing white space. Its ASCII fast
path and its fallback `TrimFunc(s, unicode.IsSpace)` trim the same characters on valid UTF-8,
which every `String` is. -/
def trimSpace (s : String) : String := ⟨(s.data.dropWhile isSpace).rdropWhile isSpace⟩

/-- `NormalizeAddress`: the trimmed address, when it is non-empty and valid on mainnet or on
testnet. -/
def normalizeAddress (addr : String) : Except String String :=
  let cleaned := trimSpace addr
  if cleaned = "" then .error "empty address"
  else if !isValidAddress lib cleaned false && !isValidAddress lib cleaned true then
    .error "invalid bitcoin address"
  else .ok cleaned

end MultichainIndexer.Bitcoin
