import MultichainIndexer.Bitcoin.Address
import MultichainIndexer.Bitcoin.Sha256

/-
Module: MultichainIndexer.Proofs.AddressAgreement
Purpose: The classifier agrees with the validator on every address the validator accepts.
  `IsValidAddress` and `DetectAddressType` route on the same prefix and call the same decoders,
  so an accepted bech32 address has a witness version and program the classifier maps to its
  variant without falling through to Base58, and an accepted Base58 address has a version byte
  the classifier maps to its variant. The converse fails only at the Base58 checksum, which the
  classifier never computes: it names a variant for a 25-byte decoding with a network version
  byte whatever its checksum (`valid_or_unchecked_of_detectAddressType`, for every
  implementation of the library decoders). A bech32 address whose program length falls out of the
  classifier's `switch` reaches the Base58 block too, but `btcutil`'s decoder never reads a
  `bc1`/`tb1` string as 25 bytes with a network version byte: its leading digits put the number
  outside the 25-byte ranges those bytes begin (`btcutilBase58Decode_bech32Prefix`). So with that
  decoder the only disagreement is a bad checksum (`detectAddressType_valid_or_bad_checksum`); one
  of two addresses differing in their last checksum byte is classified P2PKH and rejected, for
  any hash (`zeroHashAddresses_one_misclassified`), and with SHA-256 it is the second
  (`zeroHashAddress_misclassified`).
Trusted boundary: none
Main exports: witnessVariant, base58Variant, isValidBech32Address_inv,
  isValidBase58Address_inv, detectAddressType_of_isValidAddress, btcutilBase58Decode,
  bigEndianBytes_cons, btcutilBase58Decode_bech32Prefix, valid_or_unchecked_of_detectAddressType,
  detectAddressType_valid_or_bad_checksum, zeroHashAddresses_one_misclassified,
  base58Sha256Library, zeroHashAddress_misclassified
-/

namespace MultichainIndexer.Bitcoin

/-- The variant a witness version and program fix: version 0 with 20 or 32 bytes, version 1 with
32 bytes, or any version from 2 on. -/
def witnessVariant (witnessVersion : UInt8) (program : List UInt8) : AddressType :=
  if witnessVersion = 0 ∧ program.length = 20 then .p2wpkh
  else if witnessVersion = 0 ∧ program.length = 32 then .p2wsh
  else if witnessVersion = 1 ∧ program.length = 32 then .p2tr
  else if 2 ≤ witnessVersion.toNat then .witnessUnknown
  else .unknown

/-- The variant a Base58 version byte fixes: `0x00` or `0x6f` for P2PKH, `0x05` or `0xc4` for
P2SH. -/
def base58Variant (version : UInt8) : AddressType :=
  if version = 0x00 ∨ version = 0x6f then .p2pkh
  else if version = 0x05 ∨ version = 0xc4 then .p2sh
  else .unknown

theorem two_le_toNat_of_ne {version : UInt8} (notZero : version ≠ 0) (notOne : version ≠ 1) :
    2 ≤ version.toNat := by
  have zero : version.toNat ≠ 0 := fun h => notZero (UInt8.toNat.inj (h.trans rfl))
  have one : version.toNat ≠ 1 := fun h => notOne (UInt8.toNat.inj (h.trans rfl))
  omega

variable (lib : AddressLibrary) {addr : String} {isTestnet : Bool}

/-- What an accepted bech32 address has shown the validator: the expected human-readable part,
a witness version, and a program whose length the version allows. -/
theorem isValidBech32Address_inv (valid : isValidBech32Address lib addr isTestnet = true) :
    ∃ witnessVersion rest program,
      lib.bech32Decode addr = .ok (expectedHRP isTestnet, witnessVersion :: rest) ∧
      lib.convertBits rest 5 8 false = .ok program ∧
      (witnessVersion = 0 → program.length = 20 ∨ program.length = 32) ∧
      (witnessVersion = 1 → program.length = 32) := by
  unfold isValidBech32Address at valid
  rcases decoded : lib.bech32Decode addr with _ | ⟨hrp, _ | ⟨witnessVersion, rest⟩⟩ <;>
    simp only [decoded] at valid
  · contradiction
  · simp at valid
  · split_ifs at valid with wrongHRP
    rcases converted : lib.convertBits rest 5 8 false with _ | program <;>
      simp only [converted] at valid
    · contradiction
    · split_ifs at valid with versionZero versionOne
      refine ⟨witnessVersion, rest, program, by rw [not_not.mp wrongHRP], converted, ?_, ?_⟩
      · intro zero
        by_contra neither
        exact versionZero ⟨zero, by omega, by omega⟩
      · intro one
        by_contra other
        exact versionOne ⟨one, other⟩

/-- What an accepted Base58 address has shown the validator: 25 bytes and a version byte of the
network. -/
theorem isValidBase58Address_inv (valid : isValidBase58Address lib addr isTestnet = true) :
    ∃ version decoded, lib.base58Decode addr = version :: decoded ∧ decoded.length = 24 ∧
      if isTestnet then version = testnetP2PKHPrefix ∨ version = testnetP2SHPrefix
      else version = mainnetP2PKHPrefix ∨ version = mainnetP2SHPrefix := by
  unfold isValidBase58Address at valid
  rcases found : lib.base58Decode addr with _ | ⟨version, decoded⟩ <;> simp only [found] at valid
  · contradiction
  · refine ⟨version, decoded, rfl, ?_⟩
    cases isTestnet <;> simp at valid ⊢ <;> exact ⟨valid.1, valid.2.1⟩

/-- On an accepted bech32 address the classifier returns from its `switch`, with the variant the
witness version and program fix, which is never `unknown`. -/
theorem detectBech32Type_of_valid {witnessVersion : UInt8} {rest program : List UInt8}
    (decoded : lib.bech32Decode addr = .ok (expectedHRP isTestnet, witnessVersion :: rest))
    (converted : lib.convertBits rest 5 8 false = .ok program)
    (zero : witnessVersion = 0 → program.length = 20 ∨ program.length = 32)
    (one : witnessVersion = 1 → program.length = 32) :
    detectBech32Type lib addr isTestnet = some (witnessVariant witnessVersion program) ∧
      witnessVariant witnessVersion program ≠ .unknown := by
  unfold detectBech32Type
  simp only [decoded, converted, ne_eq, not_true_eq_false, if_false]
  by_cases versionZero : witnessVersion = 0
  · subst versionZero
    rcases zero rfl with length | length <;> simp [witnessVariant, length]
  · by_cases versionOne : witnessVersion = 1
    · subst versionOne
      simp [witnessVariant, one rfl]
    · simp [witnessVariant, versionZero, versionOne, two_le_toNat_of_ne versionZero versionOne]

/-- On an accepted Base58 address the classifier returns the variant of the version byte, which
is never `unknown`. -/
theorem detectBase58Type_of_valid {version : UInt8} {decoded : List UInt8}
    (found : lib.base58Decode addr = version :: decoded) (length : decoded.length = 24)
    (versionOk : if isTestnet then version = testnetP2PKHPrefix ∨ version = testnetP2SHPrefix
      else version = mainnetP2PKHPrefix ∨ version = mainnetP2SHPrefix) :
    detectBase58Type lib addr isTestnet = base58Variant version ∧
      base58Variant version ≠ .unknown := by
  unfold detectBase58Type
  rw [found]
  cases isTestnet <;> simp only [Bool.false_eq_true, if_true, if_false] at versionOk <;>
    rcases versionOk with rfl | rfl <;> simp [length] <;> decide

/-- For every implementation of the library decoders, every address and every network: an
address `IsValidAddress` accepts is never classified `Unknown` by `DetectAddressType`. A bech32
address gets the variant its witness version and program fix (`witnessVariant`), without falling
through to the Base58 code; any other address gets the variant of its Base58 version byte
(`base58Variant`). -/
theorem detectAddressType_of_isValidAddress (valid : isValidAddress lib addr isTestnet = true) :
    detectAddressType lib addr isTestnet ≠ .unknown ∧
      ((hasBech32Prefix addr = true ∧ ∃ hrp witnessVersion rest program,
          lib.bech32Decode addr = .ok (hrp, witnessVersion :: rest) ∧
          lib.convertBits rest 5 8 false = .ok program ∧
          detectAddressType lib addr isTestnet = witnessVariant witnessVersion program) ∨
        (hasBech32Prefix addr = false ∧ ∃ version decoded,
          lib.base58Decode addr = version :: decoded ∧ decoded.length = 24 ∧
          detectAddressType lib addr isTestnet = base58Variant version)) := by
  have nonEmpty : addr ≠ "" := by
    rintro rfl
    simp [isValidAddress] at valid
  unfold isValidAddress at valid
  unfold detectAddressType
  cases prefixed : hasBech32Prefix addr <;>
    simp only [nonEmpty, prefixed, if_false, if_true, Bool.false_eq_true] at valid ⊢
  · obtain ⟨version, decoded, found, length, versionOk⟩ := isValidBase58Address_inv lib valid
    obtain ⟨detected, known⟩ := detectBase58Type_of_valid lib found length versionOk
    exact ⟨detected ▸ known, .inr ⟨trivial, version, decoded, found, length, detected⟩⟩
  · obtain ⟨witnessVersion, rest, program, decoded, converted, zero, one⟩ :=
      isValidBech32Address_inv lib valid
    obtain ⟨detected, known⟩ := detectBech32Type_of_valid lib decoded converted zero one
    rw [detected]
    exact ⟨known, .inl ⟨trivial, _, witnessVersion, rest, program, decoded, converted, rfl⟩⟩

/-- Decoders that read every string as witness version 0 with a program of twenty zero bytes. -/
def zeroProgramLibrary : AddressLibrary where
  bech32Decode _ := .ok ("bc", [0])
  convertBits _ _ _ _ := .ok (List.replicate 20 0)
  base58Decode _ := []
  sum256 bytes := bytes

theorem zeroProgramLibrary_classifies :
    isValidAddress zeroProgramLibrary "bc1q" false = true ∧
      detectAddressType zeroProgramLibrary "bc1q" false ≠ .unknown ∧
      ((hasBech32Prefix "bc1q" = true ∧ ∃ hrp witnessVersion rest program,
          zeroProgramLibrary.bech32Decode "bc1q" = .ok (hrp, witnessVersion :: rest) ∧
          zeroProgramLibrary.convertBits rest 5 8 false = .ok program ∧
          detectAddressType zeroProgramLibrary "bc1q" false =
            witnessVariant witnessVersion program) ∨
        (hasBech32Prefix "bc1q" = false ∧ ∃ version decoded,
          zeroProgramLibrary.base58Decode "bc1q" = version :: decoded ∧ decoded.length = 24 ∧
          detectAddressType zeroProgramLibrary "bc1q" false = base58Variant version)) :=
  ⟨by decide, detectAddressType_of_isValidAddress zeroProgramLibrary (by decide)⟩

/-! ### Where the classifier and the validator part -/

/-- The alphabet of `btcutil/base58`. -/
def base58Alphabet : List Char := "123456789ABCDEFGHJKLMNPQRSTUVWXYZabcdefghijkmnopqrstuvwxyz".data

/-- One digit of the decoding loop: the number so far times 58 plus the digit's index in the
alphabet, or `none` once a character is outside it. -/
def base58Step (acc : Option Nat) (c : Char) : Option Nat :=
  acc.bind fun n => (base58Alphabet.indexOf? c).map (n * 58 + ·)

/-- The number a Base58 string denotes, most significant digit first, or `none` when a character
is outside the alphabet. -/
def base58Value (digits : List Char) : Option Nat := digits.foldl base58Step (some 0)

/-- `big.Int.Bytes`: the big-endian bytes of `n` without leading zeros, given room for `fuel`
bytes. -/
def bigEndianBytes : Nat → Nat → List UInt8
  | 0, _ => []
  | fuel + 1, n => if n = 0 then [] else bigEndianBytes fuel (n / 256) ++ [UInt8.ofNat (n % 256)]

/-- `base58.Decode` of `btcutil`: one zero byte per leading `'1'`, then the bytes of the number
the string denotes, or nothing when a character is outside the alphabet. A string of `k`
characters denotes less than `58 ^ k < 256 ^ k`, so `k` bytes are room enough. -/
def btcutilBase58Decode (s : String) : List UInt8 :=
  match base58Value s.data with
  | none => []
  | some n => List.replicate (s.data.takeWhile (· = '1')).length 0 ++ bigEndianBytes s.length n

/-- The Base58 decoder of `btcutil`, no bech32 decoding, and a hash that returns its input. -/
def btcutilBase58Library : AddressLibrary where
  bech32Decode _ := .error "invalid"
  convertBits _ _ _ _ := .error "invalid"
  base58Decode := btcutilBase58Decode
  sum256 bytes := bytes

/-! ### `btcutil` never reads a bech32 address as a Base58 one -/

/-- Once a character is outside the alphabet, the decoding loop stays at `none`. -/
theorem foldl_base58Step_none : ∀ digits : List Char, digits.foldl base58Step none = none
  | [] => rfl
  | _ :: digits => foldl_base58Step_none digits

/-- After leading digits worth `a`, `k` more digits put the number in `[a * 58^k, (a+1) * 58^k)`. -/
theorem foldl_base58Step_bounds : ∀ (digits : List Char) (a n : Nat),
    digits.foldl base58Step (some a) = some n →
      a * 58 ^ digits.length ≤ n ∧ n < (a + 1) * 58 ^ digits.length
  | [], a, n, value => by
    cases Option.some_inj.mp value
    rw [List.length_nil, pow_zero, Nat.mul_one, Nat.mul_one]
    exact ⟨le_rfl, Nat.lt_succ_self a⟩
  | c :: digits, a, n, value => by
    rw [List.foldl_cons] at value
    cases found : base58Alphabet.indexOf? c with
    | none =>
      rw [base58Step, Option.some_bind, found, Option.map_none', foldl_base58Step_none] at value
      cases value
    | some d =>
      have digit : d < base58Alphabet.length := (List.findIdx?_eq_some_iff_getElem.mp found).1
      rw [base58Step, Option.some_bind, found, Option.map_some'] at value
      obtain ⟨low, high⟩ := foldl_base58Step_bounds digits (a * 58 + d) n value
      rw [List.length_cons, pow_succ]
      change d < 58 at digit
      constructor
      · calc a * (58 ^ digits.length * 58) = a * 58 * 58 ^ digits.length := by
              rw [Nat.mul_comm (58 ^ _), Nat.mul_assoc]
          _ ≤ (a * 58 + d) * 58 ^ digits.length := Nat.mul_le_mul_right _ (Nat.le_add_right _ _)
          _ ≤ n := low
      · calc n < (a * 58 + d + 1) * 58 ^ digits.length := high
          _ ≤ (a + 1) * 58 * 58 ^ digits.length := Nat.mul_le_mul_right _ (by omega)
          _ = (a + 1) * (58 ^ digits.length * 58) := by rw [Nat.mul_assoc, Nat.mul_comm 58]

/-- `big.Int.Bytes` of a number it has room for is empty only for zero. -/
theorem bigEndianBytes_eq_nil : ∀ {fuel n : Nat}, n < 256 ^ fuel → bigEndianBytes fuel n = [] →
    n = 0
  | 0, _, fits, _ => by simpa using fits
  | fuel + 1, n, _, empty => by
    rw [bigEndianBytes] at empty
    split_ifs at empty with zero
    · exact zero
    · simp at empty

/-- The first byte of `big.Int.Bytes` is not zero and fixes the number up to the bytes after it:
`b * 256^k ≤ n < (b+1) * 256^k` for `k` bytes after `b`. -/
theorem bigEndianBytes_cons : ∀ {fuel n : Nat} {b : UInt8} {bs : List UInt8},
    n < 256 ^ fuel → bigEndianBytes fuel n = b :: bs →
      0 < b.toNat ∧ b.toNat * 256 ^ bs.length ≤ n ∧ n < (b.toNat + 1) * 256 ^ bs.length
  | 0, _, _, _, _, bytes => nomatch bytes
  | fuel + 1, n, b, bs, fits, bytes => by
    rw [bigEndianBytes] at bytes
    split_ifs at bytes with zero
    have higher : n / 256 < 256 ^ fuel := Nat.div_lt_of_lt_mul (by rwa [pow_succ, mul_comm] at fits)
    have split := Nat.div_add_mod n 256
    have last := Nat.mod_lt n (show 256 > 0 by decide)
    cases rest : bigEndianBytes fuel (n / 256) with
    | nil =>
      rw [rest, List.nil_append, List.cons.injEq] at bytes
      obtain ⟨rfl, rfl⟩ := bytes
      have := bigEndianBytes_eq_nil higher rest
      rw [UInt8.toNat_ofNat_of_lt last, List.length_nil, pow_zero]
      omega
    | cons b' bs' =>
      rw [rest, List.cons_append, List.cons.injEq] at bytes
      obtain ⟨rfl, rfl⟩ := bytes
      obtain ⟨pos, low, high⟩ := bigEndianBytes_cons higher rest
      rw [List.length_append, List.length_singleton, pow_succ]
      refine ⟨pos, ?_, ?_⟩
      · calc b'.toNat * (256 ^ bs'.length * 256) = b'.toNat * 256 ^ bs'.length * 256 :=
              (Nat.mul_assoc _ _ _).symm
          _ ≤ n / 256 * 256 := Nat.mul_le_mul_right _ low
          _ ≤ n := Nat.div_mul_le_self n 256
      · calc n < (n / 256 + 1) * 256 := by omega
          _ ≤ (b'.toNat + 1) * 256 ^ bs'.length * 256 := Nat.mul_le_mul_right _ high
          _ = (b'.toNat + 1) * (256 ^ bs'.length * 256) := Nat.mul_assoc _ _ _

/-- A decoding that does not start with `'1'` has no zero bytes in front: its first byte fixes the
number the string denotes up to the bytes after it. -/
theorem btcutilBase58Decode_cons {s : String} {version : UInt8} {decoded : List UInt8}
    (found : btcutilBase58Decode s = version :: decoded) (lead : s.data.head? ≠ some '1') :
    ∃ n, base58Value s.data = some n ∧ 0 < version.toNat ∧
      version.toNat * 256 ^ decoded.length ≤ n ∧ n < (version.toNat + 1) * 256 ^ decoded.length := by
  unfold btcutilBase58Decode at found
  cases value : base58Value s.data with
  | none => rw [value] at found; cases found
  | some n =>
    have noZeros : s.data.takeWhile (· = '1') = [] := by
      cases data : s.data with
      | nil => rfl
      | cons c _ => simp_all [List.takeWhile_cons]
    simp only [value, noZeros, List.length_nil, List.replicate_zero, List.nil_append] at found
    have digits := (foldl_base58Step_bounds s.data 0 n value).2
    have room : n < 256 ^ s.length :=
      calc n < 58 ^ s.data.length := by simpa using digits
        _ ≤ 256 ^ s.length := Nat.pow_le_pow_left (by decide) _
    exact ⟨n, rfl, bigEndianBytes_cons room found⟩

/-- The arithmetic of the two prefixes: a number whose Base58 digits start with `bc1` (worth
`116406`) or `tb1` (worth `173536`) never has 25 bytes with first byte `0x05`, `0x6f` or `0xc4`. -/
theorem bech32Prefix_not_version {A k n b : Nat} (prefixes : A = 116406 ∨ A = 173536)
    (low : A * 58 ^ k ≤ n) (high : n < (A + 1) * 58 ^ k) (byteLow : b * 256 ^ 24 ≤ n)
    (byteHigh : n < (b + 1) * 256 ^ 24) (byte : b < 256) :
    b ≠ 5 ∧ b ≠ 111 ∧ b ≠ 196 := by
  rcases Nat.lt_or_ge k 30 with few | many
  · have := Nat.pow_le_pow_right (show 0 < 58 by decide) (show k ≤ 29 by omega)
    rcases prefixes with rfl | rfl <;> omega
  rcases Nat.lt_or_ge k 32 with middle | more
  · obtain rfl | rfl : k = 30 ∨ k = 31 := by omega
    all_goals rcases prefixes with rfl | rfl <;> omega
  · have := Nat.pow_le_pow_right (show 0 < 58 by decide) more
    rcases prefixes with rfl | rfl <;> omega

/-- `btcutil` never decodes a string with the `bc1` or `tb1` prefix to 25 bytes with a network
version byte, on either network. -/
theorem btcutilBase58Decode_bech32Prefix {addr : String} {isTestnet : Bool} {version : UInt8}
    {decoded : List UInt8} (prefixed : hasBech32Prefix addr = true)
    (found : btcutilBase58Decode addr = version :: decoded) (length : decoded.length = 24) :
    ¬ (if isTestnet then version = testnetP2PKHPrefix ∨ version = testnetP2SHPrefix
      else version = mainnetP2PKHPrefix ∨ version = mainnetP2SHPrefix) := by
  obtain ⟨A, rest, prefixes, lead, start⟩ : ∃ (A : Nat) (rest : List Char), (A = 116406 ∨ A = 173536) ∧
      addr.data.head? ≠ some '1' ∧ base58Value addr.data = rest.foldl base58Step (some A) := by
    simp only [hasBech32Prefix, hasPrefix, Bool.or_eq_true, List.isPrefixOf_iff_prefix] at prefixed
    rcases prefixed with ⟨rest, data⟩ | ⟨rest, data⟩ <;> rw [← data]
    exacts [⟨116406, rest, .inl rfl, by simp, rfl⟩, ⟨173536, rest, .inr rfl, by simp, rfl⟩]
  obtain ⟨n, value, pos, byteLow, byteHigh⟩ := btcutilBase58Decode_cons found lead
  rw [start] at value
  obtain ⟨low, high⟩ := foldl_base58Step_bounds rest A n value
  rw [length] at byteLow byteHigh
  obtain ⟨not5, not111, not196⟩ :=
    bech32Prefix_not_version prefixes low high byteLow byteHigh version.toNat_lt_size
  cases isTestnet <;> rintro (rfl | rfl)
  exacts [pos.ne rfl, not5 rfl, not111 rfl, not196 rfl]

section Part

variable (lib : AddressLibrary) {addr : String} {isTestnet : Bool}

/-- The Base58 block of the classifier answers with a variant only on a 25-byte decoding whose
version byte is one of the network's. -/
theorem detectBase58Type_known (known : detectBase58Type lib addr isTestnet ≠ .unknown) :
    ∃ version decoded, lib.base58Decode addr = version :: decoded ∧ decoded.length = 24 ∧
      if isTestnet then version = testnetP2PKHPrefix ∨ version = testnetP2SHPrefix
      else version = mainnetP2PKHPrefix ∨ version = mainnetP2SHPrefix := by
  unfold detectBase58Type at known
  rcases found : lib.base58Decode addr with _ | ⟨version, decoded⟩ <;> simp only [found] at known
  · exact absurd rfl known
  · have length : decoded.length = 24 := by
      by_contra other
      exact known (if_neg (by simpa using other))
    rw [if_pos (by simpa using length)] at known
    refine ⟨version, decoded, rfl, length, ?_⟩
    cases isTestnet <;> simp only [Bool.false_eq_true, if_true, if_false] at known ⊢ <;>
      by_contra neither <;>
      exact known (by rw [if_neg fun first => neither (.inl first),
        if_neg fun second => neither (.inr second)])

/-- On a 25-byte decoding with a network version byte, what the Base58 validator has left to
check is the checksum. -/
theorem isValidBase58Address_eq {version : UInt8} {decoded : List UInt8}
    (found : lib.base58Decode addr = version :: decoded) (length : decoded.length = 24)
    (versionOk : if isTestnet then version = testnetP2PKHPrefix ∨ version = testnetP2SHPrefix
      else version = mainnetP2PKHPrefix ∨ version = mainnetP2SHPrefix) :
    isValidBase58Address lib addr isTestnet =
      checksumMatches (decoded.drop 20)
        ((lib.sum256 (lib.sum256 ((version :: decoded).take 21))).take 4) := by
  unfold isValidBase58Address
  rw [found]
  cases isTestnet <;> simp only [Bool.false_eq_true, if_true, if_false] at versionOk <;>
    rcases versionOk with rfl | rfl <;> simp [length]

/-- A witness version and program the classifier names a variant other than `unknown` are ones
the bech32 validator accepts. -/
theorem isValidBech32Address_of_detectBech32Type {addressType : AddressType}
    (detected : detectBech32Type lib addr isTestnet = some addressType)
    (known : addressType ≠ .unknown) : isValidBech32Address lib addr isTestnet = true := by
  unfold detectBech32Type at detected
  unfold isValidBech32Address
  rcases decoded : lib.bech32Decode addr with _ | ⟨hrp, _ | ⟨witnessVersion, rest⟩⟩ <;>
    simp only [decoded] at detected ⊢
  · exact absurd (Option.some_inj.mp detected).symm known
  · exact absurd (Option.some_inj.mp detected).symm known
  · by_cases wrongHRP : hrp ≠ expectedHRP isTestnet
    · rw [if_pos wrongHRP] at detected
      exact absurd (Option.some_inj.mp detected).symm known
    rw [if_neg wrongHRP] at detected ⊢
    rcases converted : lib.convertBits rest 5 8 false with _ | program <;>
      simp only [converted] at detected ⊢
    · exact absurd (Option.some_inj.mp detected).symm known
    · rw [if_neg, if_neg]
      · rintro ⟨rfl, not32⟩
        simp [not32] at detected
      · rintro ⟨rfl, not20, not32⟩
        simp [not20, not32] at detected

/-- For every implementation of the library decoders, every address and every network: when
`DetectAddressType` names a variant, either `IsValidAddress` accepts the address, or the variant
came from the Base58 block on a 25-byte decoding with a network version byte whose checksum no
one compared: the checksum does not match, or the address carries the bech32 prefix, so the
validator never reached its Base58 check. -/
theorem valid_or_unchecked_of_detectAddressType
    (known : detectAddressType lib addr isTestnet ≠ .unknown) :
    isValidAddress lib addr isTestnet = true ∨
      ∃ version decoded, lib.base58Decode addr = version :: decoded ∧ decoded.length = 24 ∧
        (if isTestnet then version = testnetP2PKHPrefix ∨ version = testnetP2SHPrefix
          else version = mainnetP2PKHPrefix ∨ version = mainnetP2SHPrefix) ∧
        (hasBech32Prefix addr = true ∨
          checksumMatches (decoded.drop 20)
            ((lib.sum256 (lib.sum256 ((version :: decoded).take 21))).take 4) = false) := by
  have nonEmpty : addr ≠ "" := by
    rintro rfl
    exact known (if_pos rfl)
  unfold detectAddressType at known
  unfold isValidAddress
  rw [if_neg nonEmpty] at known ⊢
  cases prefixed : hasBech32Prefix addr <;>
    simp only [prefixed, Bool.false_eq_true, if_true, if_false] at known ⊢
  case false =>
    obtain ⟨version, decoded, found, length, versionOk⟩ := detectBase58Type_known lib known
    rw [isValidBase58Address_eq lib found length versionOk]
    cases checks : checksumMatches (decoded.drop 20)
      ((lib.sum256 (lib.sum256 ((version :: decoded).take 21))).take 4)
    · exact .inr ⟨version, decoded, found, length, versionOk, .inr checks⟩
    · exact .inl rfl
  case true =>
    rcases detected : detectBech32Type lib addr isTestnet with _ | addressType <;>
      simp only [detected] at known
    · obtain ⟨version, decoded, found, length, versionOk⟩ := detectBase58Type_known lib known
      exact .inr ⟨version, decoded, found, length, versionOk, .inl trivial⟩
    · exact .inl (isValidBech32Address_of_detectBech32Type lib detected known)

/-- With the Base58 decoder of `btcutil`, for every bech32 decoder, bit regrouping and hash, every
address and every network: when `DetectAddressType` names a variant, `IsValidAddress` accepts the
address, or the address lacks the `bc1`/`tb1` prefix and decodes to 25 bytes with a network
version byte and a checksum that does not match. A bech32 address whose program length falls out
of the classifier's `switch` is never given a variant by the Base58 block. -/
theorem detectAddressType_valid_or_bad_checksum
    (bech32Decode : String → Except String (String × List UInt8))
    (convertBits : List UInt8 → UInt8 → UInt8 → Bool → Except String (List UInt8))
    (sum256 : List UInt8 → List UInt8) {addr : String} {isTestnet : Bool}
    (known : detectAddressType ⟨bech32Decode, convertBits, btcutilBase58Decode, sum256⟩ addr
      isTestnet ≠ .unknown) :
    isValidAddress ⟨bech32Decode, convertBits, btcutilBase58Decode, sum256⟩ addr isTestnet = true ∨
      hasBech32Prefix addr = false ∧
        ∃ version decoded, btcutilBase58Decode addr = version :: decoded ∧ decoded.length = 24 ∧
          (if isTestnet then version = testnetP2PKHPrefix ∨ version = testnetP2SHPrefix
            else version = mainnetP2PKHPrefix ∨ version = mainnetP2SHPrefix) ∧
          checksumMatches (decoded.drop 20)
            ((sum256 (sum256 ((version :: decoded).take 21))).take 4) = false := by
  rcases valid_or_unchecked_of_detectAddressType _ known with valid |
    ⟨version, decoded, found, length, versionOk, unchecked⟩
  · exact .inl valid
  have unprefixed : hasBech32Prefix addr = false :=
    Bool.eq_false_iff.mpr fun prefixed =>
      btcutilBase58Decode_bech32Prefix prefixed found length versionOk
  exact .inr ⟨unprefixed, version, decoded, found, length, versionOk,
    unchecked.resolve_left (by rw [unprefixed]; decide)⟩

/-- The all-zero hash with its last checksum byte off by one is classified, and falls under the
checksum case. -/
theorem zeroHashT3_valid_or_bad_checksum :
    detectAddressType btcutilBase58Library "1111111111111111111114oLvT3" false ≠ .unknown ∧
      (isValidAddress btcutilBase58Library "1111111111111111111114oLvT3" false = true ∨
        hasBech32Prefix "1111111111111111111114oLvT3" = false ∧
          ∃ version decoded,
            btcutilBase58Decode "1111111111111111111114oLvT3" = version :: decoded ∧
            decoded.length = 24 ∧
            (if false = true then version = testnetP2PKHPrefix ∨ version = testnetP2SHPrefix
              else version = mainnetP2PKHPrefix ∨ version = mainnetP2SHPrefix) ∧
            checksumMatches (decoded.drop 20)
              ((btcutilBase58Library.sum256 (btcutilBase58Library.sum256
                ((version :: decoded).take 21))).take 4) = false) :=
  ⟨by decide, detectAddressType_valid_or_bad_checksum btcutilBase58Library.bech32Decode
    btcutilBase58Library.convertBits btcutilBase58Library.sum256 (by decide)⟩

/-- An address without the bech32 prefix whose Base58 decoding has 25 bytes and a network version
byte: the classifier names the variant of the version byte, and the validator's answer is the
checksum comparison. -/
theorem base58Address_classified {version : UInt8} {decoded : List UInt8} (nonEmpty : addr ≠ "")
    (unprefixed : hasBech32Prefix addr = false)
    (found : lib.base58Decode addr = version :: decoded) (length : decoded.length = 24)
    (versionOk : if isTestnet then version = testnetP2PKHPrefix ∨ version = testnetP2SHPrefix
      else version = mainnetP2PKHPrefix ∨ version = mainnetP2SHPrefix) :
    detectAddressType lib addr isTestnet = base58Variant version ∧
      isValidAddress lib addr isTestnet =
        checksumMatches (decoded.drop 20)
          ((lib.sum256 (lib.sum256 ((version :: decoded).take 21))).take 4) := by
  unfold detectAddressType isValidAddress
  simp only [nonEmpty, unprefixed, Bool.false_eq_true, if_false]
  exact ⟨(detectBase58Type_of_valid lib found length versionOk).1,
    isValidBase58Address_eq lib found length versionOk⟩

end Part

/-- A checksum the loop accepts agrees with the expected one at each of the four positions. -/
theorem checksumMatches_getElem? {checksum expected : List UInt8}
    (agrees : checksumMatches checksum expected = true) {i : Nat} (small : i < 4) :
    checksum[i]? = expected[i]? := by
  unfold checksumMatches at agrees
  simpa using List.all_eq_true.mp agrees i (List.mem_range.mpr small)

/-- Two addresses `base58.Decode` reads as version `0x00` and the all-zero 20-byte hash, with
checksums that differ in their last byte. -/
def zeroHashAddresses : List String :=
  ["1111111111111111111114oLvT2", "1111111111111111111114oLvT3"]

theorem btcutilBase58Decode_zeroHashT2 : btcutilBase58Decode "1111111111111111111114oLvT2" =
    0 :: (List.replicate 20 0 ++ [148, 160, 9, 17]) := by
  decide

theorem btcutilBase58Decode_zeroHashT3 : btcutilBase58Decode "1111111111111111111114oLvT3" =
    0 :: (List.replicate 20 0 ++ [148, 160, 9, 18]) := by
  decide

/-- With the Base58 decoder of `btcutil`, whatever the bech32 decoder and whatever the hash
function, one of the two `zeroHashAddresses` is classified P2PKH on mainnet and rejected by
`IsValidAddress`: at most one of two different checksums matches the hash. -/
theorem zeroHashAddresses_one_misclassified
    (bech32Decode : String → Except String (String × List UInt8))
    (convertBits : List UInt8 → UInt8 → UInt8 → Bool → Except String (List UInt8))
    (sum256 : List UInt8 → List UInt8) :
    ∃ addr ∈ zeroHashAddresses,
      detectAddressType ⟨bech32Decode, convertBits, btcutilBase58Decode, sum256⟩ addr false =
          .p2pkh ∧
        isValidAddress ⟨bech32Decode, convertBits, btcutilBase58Decode, sum256⟩ addr false =
          false := by
  let lib : AddressLibrary := ⟨bech32Decode, convertBits, btcutilBase58Decode, sum256⟩
  let expected := (sum256 (sum256 (0 :: List.replicate 20 0))).take 4
  obtain ⟨detectedT2, validT2⟩ := @base58Address_classified lib "1111111111111111111114oLvT2"
    false 0 _ (by decide) (by decide) btcutilBase58Decode_zeroHashT2 (by decide) (by decide)
  obtain ⟨detectedT3, validT3⟩ := @base58Address_classified lib "1111111111111111111114oLvT3"
    false 0 _ (by decide) (by decide) btcutilBase58Decode_zeroHashT3 (by decide) (by decide)
  change _ = checksumMatches [148, 160, 9, 17] expected at validT2
  change _ = checksumMatches [148, 160, 9, 18] expected at validT3
  cases acceptedT2 : checksumMatches [148, 160, 9, 17] expected
  · exact ⟨_, List.mem_cons_self _ _, detectedT2, validT2.trans acceptedT2⟩
  · refine ⟨_, List.mem_cons_of_mem _ (List.mem_cons_self _ _), detectedT3, ?_⟩
    rw [validT3]
    cases acceptedT3 : checksumMatches [148, 160, 9, 18] expected
    · rfl
    · have lastT2 := checksumMatches_getElem? acceptedT2 (show 3 < 4 by decide)
      have lastT3 := checksumMatches_getElem? acceptedT3 (show 3 < 4 by decide)
      exact absurd (lastT2.trans lastT3.symm) (by decide)

/-- The decoders of the address functions: `base58.Decode` of `btcutil` and `sha256.Sum256` of
`crypto/sha256`. Its bech32 functions reject every input; `DetectAddressType` and
`IsValidAddress` call them only on an address with the `bc1` or `tb1` prefix. -/
def base58Sha256Library : AddressLibrary where
  bech32Decode _ := .error "invalid"
  convertBits _ _ _ _ := .error "invalid"
  base58Decode := btcutilBase58Decode
  sum256 := Sha256.sum256

set_option maxRecDepth 2000 in
/-- `1111111111111111111114oLvT3` (the all-zero hash with the last checksum byte off by one) is
classified P2PKH on mainnet and rejected by `IsValidAddress`: its checksum is `94a00912` where
double SHA-256 gives `94a00911`. -/
theorem zeroHashAddress_misclassified :
    detectAddressType base58Sha256Library "1111111111111111111114oLvT3" false = .p2pkh ∧
      isValidAddress base58Sha256Library "1111111111111111111114oLvT3" false = false := by
  obtain ⟨detected, valid⟩ := @base58Address_classified base58Sha256Library
    "1111111111111111111114oLvT3" false 0 _ (by decide) (by decide)
    btcutilBase58Decode_zeroHashT3 (by decide) (by decide)
  exact ⟨detected, valid.trans (by decide)⟩

end MultichainIndexer.Bitcoin
