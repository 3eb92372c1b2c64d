import MultichainIndexer.Bitcoin.Hex

/-
Module: MultichainIndexer.Proofs.HexReversal
Purpose: What `ReverseHex` does to every Go string. `DecodeString` accepts exactly the strings of
  even length made of hex digits (`isOk_decodeString_iff`), its errors name the byte or the length
  they report (`DecodeError.Explains`), and it reads back whatever `EncodeToString` wrote
  (`decodeString_encodeToString`); for lower-case hex the converse holds
  (`encodeToString_of_lowerHex`). The swap loop reverses a byte slice of every length
  (`reverseBytes_eq_reverse`). So `ReverseHex` returns a string it cannot decode unchanged, and a
  hex string as the lower-case hex of its reversed bytes; applied twice it gives back every
  string that does not decode and every lower-case hex string, and the lower-case form of every
  other hex string (`reverseHex_reverseHex_of_ok`).
Trusted boundary: none
Main exports: isOk_decodeString_iff, DecodeError.Explains, explains_of_decodeString,
  decodeString_encodeToString, encodeToString_of_lowerHex, getElem?_reverseBytes,
  reverseBytes_eq_reverse, reverseHex_of_ok, reverseHex_reverseHex_of_ok,
  reverseHex_involutive_and_reverses, validateTxHash_iff
-/

namespace MultichainIndexer

namespace Hex

/-! ### Decoding -/

theorem decodeString_cons_cons {p q a b : UInt8} (rest : List UInt8) (high : fromHexChar p = some a)
    (low : fromHexChar q = some b) :
    decodeString (p :: q :: rest) = (decodeString rest).map (((a <<< 4) ||| b) :: ·) := by
  rw [decodeString, high, low]

/-- `DecodeString` succeeds exactly on an even number of hex digits. -/
theorem isOk_decodeString_iff : ∀ s : List UInt8,
    (decodeString s).isOk = true ↔ s.length % 2 = 0 ∧ ∀ c ∈ s, (fromHexChar c).isSome = true
  | [] => by simp [decodeString, Except.isOk, Except.toBool]
  | [p] => by
    simp only [decodeString, List.length_singleton]
    split <;> simp [Except.isOk, Except.toBool]
  | p :: q :: rest => by
    have even : (rest.length + 1 + 1) % 2 = rest.length % 2 := by omega
    simp only [List.length_cons, even, List.mem_cons, forall_eq_or_imp]
    cases high : fromHexChar p with
    | none => simp [decodeString, high, Except.isOk, Except.toBool]
    | some a =>
      cases low : fromHexChar q with
      | none => simp [decodeString, high, low, Except.isOk, Except.toBool]
      | some b =>
        rw [decodeString_cons_cons rest high low]
        simp only [Option.isSome_some, true_and]
        rw [← isOk_decodeString_iff rest]
        cases decodeString rest <;> rfl

/-- What an error of `Decode` reports about the string: `InvalidByteError` a byte of it that is
not a hex digit, `ErrLength` that its length is odd. -/
def DecodeError.Explains (s : List UInt8) : DecodeError → Prop
  | .invalidByte b => b ∈ s ∧ fromHexChar b = none
  | .errLength => s.length % 2 = 1

theorem DecodeError.Explains.cons_cons {s : List UInt8} {e : DecodeError} (p q : UInt8)
    (explains : e.Explains s) : e.Explains (p :: q :: s) := by
  cases e with
  | invalidByte b => exact ⟨.tail _ (.tail _ explains.1), explains.2⟩
  | errLength =>
    show (s.length + 2) % 2 = 1
    exact (Nat.add_mod_right _ _).trans explains

/-- Every error `DecodeString` returns names what is wrong with its input. -/
theorem explains_of_decodeString : ∀ {s : List UInt8} {e : DecodeError},
    decodeString s = .error e → e.Explains s
  | [], _, failed => nomatch failed
  | [p], e, failed => by
    unfold decodeString at failed
    split at failed <;> cases failed
    · rfl
    · exact ⟨List.mem_singleton_self p, Option.not_isSome_iff_eq_none.mp ‹_›⟩
  | p :: q :: rest, e, failed => by
    cases high : fromHexChar p with
    | none =>
      rw [decodeString, high] at failed
      cases failed
      exact ⟨.head _, high⟩
    | some a =>
      cases low : fromHexChar q with
      | none =>
        rw [decodeString, high, low] at failed
        cases failed
        exact ⟨.tail _ (.head _), low⟩
      | some b =>
        rw [decodeString_cons_cons rest high low] at failed
        cases decoded : decodeString rest with
        | error e' =>
          rw [decoded] at failed
          cases failed
          exact (explains_of_decodeString decoded).cons_cons p q
        | ok data => rw [decoded] at failed; cases failed

/-- A decoded string has two digits per byte. -/
theorem length_of_decodeString : ∀ {s data : List UInt8},
    decodeString s = .ok data → s.length = 2 * data.length
  | [], _, decoded => by cases decoded; rfl
  | [p], _, decoded => by
    unfold decodeString at decoded
    split at decoded <;> cases decoded
  | p :: q :: rest, data, decoded => by
    cases high : fromHexChar p with
    | none => rw [decodeString, high] at decoded; cases decoded
    | some a =>
      cases low : fromHexChar q with
      | none => rw [decodeString, high, low] at decoded; cases decoded
      | some b =>
        rw [decodeString_cons_cons rest high low] at decoded
        cases restDecoded : decodeString rest with
        | error e => rw [restDecoded] at decoded; cases decoded
        | ok restData =>
          rw [restDecoded] at decoded
          cases decoded
          simp only [List.length_cons, length_of_decodeString restDecoded]
          omega

/-! ### The digits of a byte -/

theorem fromHexChar_hextable :
    ∀ k < 16, fromHexChar (hextable.getD k 0) = some (UInt8.ofNat k) := by
  decide

theorem high_toNat_lt (v : UInt8) : (v >>> 4).toNat < 16 := by
  show (v.toBitVec >>> ((4 : BitVec 8) % 8)).toNat < 16
  have := v.toBitVec.isLt
  simp [Nat.shiftRight_eq_div_pow]
  omega

theorem low_toNat_lt (v : UInt8) : (v &&& 0x0f).toNat < 16 :=
  Nat.lt_succ_of_le (UInt8.and_toNat v 0x0f ▸ Nat.and_le_right)

theorem uint8_ofNat_toNat (v : UInt8) : UInt8.ofNat v.toNat = v :=
  UInt8.toNat.inj (UInt8.toNat_ofNat_of_lt v.toNat_lt_size)

/-- A byte is its high half shifted back over its low half: shifting right then left masks the
high half, and the two masks cover the byte. -/
theorem high_or_low (v : UInt8) : (v >>> 4) <<< 4 ||| (v &&& 0x0f) = v := by
  apply UInt8.eq_of_toBitVec_eq
  show v.toBitVec >>> 4 <<< 4 ||| (v.toBitVec &&& 15) = v.toBitVec
  rw [BitVec.shiftLeft_ushiftRight]
  have covers : ∀ i : Fin 8,
      ((BitVec.allOnes 8 <<< 4).getLsbD i || (15 : BitVec 8).getLsbD i) = true := by
    decide
  ext i
  simp only [BitVec.getLsbD_or, BitVec.getLsbD_and, ← Bool.and_or_distrib_left, covers i,
    Bool.and_true]

/-- Each digit `EncodeToString` writes reads back as the half of the byte it was written from. -/
theorem fromHexChar_digit {k : UInt8} (small : k.toNat < 16) :
    fromHexChar (hextable.getD k.toNat 0) = some k := by
  rw [fromHexChar_hextable _ small, uint8_ofNat_toNat]

/-- `DecodeString` reads back every string `EncodeToString` writes. -/
theorem decodeString_encodeToString : ∀ data : List UInt8,
    decodeString (encodeToString data) = .ok data
  | [] => rfl
  | v :: rest => by
    show decodeString (_ :: _ :: encodeToString rest) = _
    rw [decodeString_cons_cons _ (fromHexChar_digit (high_toNat_lt v))
      (fromHexChar_digit (low_toNat_lt v)), decodeString_encodeToString rest, high_or_low]
    rfl

theorem length_encodeToString : ∀ data : List UInt8,
    (encodeToString data).length = 2 * data.length
  | [] => rfl
  | _ :: rest => by
    show (encodeToString rest).length + 2 = _
    rw [length_encodeToString rest, List.length_cons]
    omega

/-! ### Lower-case hex -/

/-- An even number of lower-case hex digits. -/
def IsLowerHex (s : List UInt8) : Prop :=
  s.length % 2 = 0 ∧ ∀ c ∈ s, c ∈ hextable

instance : DecidablePred IsLowerHex := fun s => by
  unfold IsLowerHex
  infer_instance

/-- A lower-case digit is the digit of its position in `hextable`. -/
theorem lower_digit : ∀ p ∈ hextable, ∃ k < 16, fromHexChar p = some (UInt8.ofNat k) ∧
    hextable.getD k 0 = p := by
  intro p digit
  obtain ⟨k, small, rfl⟩ := List.getElem_of_mem digit
  have atK : hextable.getD k 0 = hextable[k] := by
    rw [List.getD_eq_getElem?_getD, List.getElem?_eq_getElem small, Option.getD_some]
  exact ⟨k, small, atK ▸ fromHexChar_hextable k small, atK⟩

theorem halves_of_or : ∀ a < 16, ∀ b < 16,
    ((UInt8.ofNat a <<< 4 ||| UInt8.ofNat b) >>> 4).toNat = a ∧
      ((UInt8.ofNat a <<< 4 ||| UInt8.ofNat b) &&& 0x0f).toNat = b := by
  decide

/-- `EncodeToString` writes back every lower-case hex string from its decoding. -/
theorem encodeToString_of_lowerHex : ∀ {s : List UInt8}, IsLowerHex s →
    ∃ data, decodeString s = .ok data ∧ encodeToString data = s
  | [], _ => ⟨[], rfl, rfl⟩
  | [_], ⟨odd, _⟩ => by simp at odd
  | p :: q :: rest, ⟨even, digits⟩ => by
    obtain ⟨a, smallA, high, digitP⟩ := lower_digit p (digits p (.head _))
    obtain ⟨b, smallB, low, digitQ⟩ := lower_digit q (digits q (.tail _ (.head _)))
    obtain ⟨data, decoded, encoded⟩ := @encodeToString_of_lowerHex rest
      ⟨by simp only [List.length_cons] at even; omega,
        fun c mem => digits c (.tail _ (.tail _ mem))⟩
    obtain ⟨halfA, halfB⟩ := halves_of_or a smallA b smallB
    refine ⟨_, by rw [decodeString_cons_cons rest high low, decoded]; rfl, ?_⟩
    show _ :: _ :: encodeToString data = _
    rw [halfA, halfB, digitP, digitQ, encoded]

end Hex

namespace Bitcoin

open Hex

/-! ### The swap loop -/

theorem some_getD {data : List UInt8} {i : Nat} (inRange : i < data.length) :
    some (data.getD i 0) = data[i]? := by
  rw [List.getD_eq_getElem?_getD, List.getElem?_eq_getElem inRange, Option.getD_some]

/-- One swap of the loop exchanges the bytes at `i` and `j` and keeps the others. -/
theorem getElem?_swap {data : List UInt8} {i j : Nat} (before : i < j) (inRange : j < data.length)
    (k : Nat) :
    ((data.set i (data.getD j 0)).set j (data.getD i 0))[k]? =
      if k = j then data[i]? else if k = i then data[j]? else data[k]? := by
  rw [List.getElem?_set, List.getElem?_set, List.length_set]
  by_cases atJ : k = j
  · rw [if_pos atJ.symm, if_pos inRange, if_pos atJ, some_getD (by omega)]
  · rw [if_neg (Ne.symm atJ), if_neg atJ]
    by_cases atI : k = i
    · rw [if_pos atI.symm, if_pos (by omega), if_pos atI, some_getD inRange]
    · rw [if_neg (Ne.symm atI), if_neg atI]

/-- From the pair `i, j`, the loop reverses the bytes from `i` to `j` and keeps the others. -/
theorem getElem?_reverseBytes (data : List UInt8) (i j : Nat) (inRange : i < j → j < data.length)
    (k : Nat) :
    (reverseBytes data i j)[k]? = if i ≤ k ∧ k ≤ j then data[i + j - k]? else data[k]? := by
  induction data, i, j using reverseBytes.induct generalizing k with
  | case1 data i j before ih =>
    have swapped := getElem?_swap before (inRange before)
    have stillInRange : j - 1 < ((data.set i (data.getD j 0)).set j (data.getD i 0)).length := by
      rw [List.length_set, List.length_set]
      exact Nat.lt_of_le_of_lt (Nat.sub_le j 1) (inRange before)
    rw [reverseBytes, if_pos before, ih fun _ => stillInRange]
    by_cases inside : i < k ∧ k < j
    · rw [if_pos (by omega), if_pos (by omega), swapped, if_neg (by omega), if_neg (by omega),
        show i + 1 + (j - 1) - k = i + j - k by omega]
    · rw [if_neg (by omega), swapped]
      by_cases atJ : k = j
      · rw [if_pos atJ, if_pos (by omega), atJ, Nat.add_sub_cancel]
      · by_cases atI : k = i
        · rw [if_neg atJ, if_pos atI, if_pos (by omega), atI, Nat.add_sub_cancel_left]
        · rw [if_neg atJ, if_neg atI, if_neg (by omega)]
  | case2 data i j stop =>
    rw [reverseBytes, if_neg stop]
    by_cases inside : i ≤ k ∧ k ≤ j
    · rw [if_pos inside, show i + j - k = k by omega]
    · rw [if_neg inside]

/-- For every byte slice, the loop of `ReverseHex` from `0, len(data)-1` reverses it. -/
theorem reverseBytes_eq_reverse (data : List UInt8) :
    reverseBytes data 0 (data.length - 1) = data.reverse := by
  apply List.ext_getElem?
  intro k
  rw [getElem?_reverseBytes data 0 _ (fun _ => by omega), Nat.zero_add]
  by_cases inRange : k < data.length
  · rw [if_pos ⟨Nat.zero_le k, by omega⟩, List.getElem?_reverse inRange]
  · have past : data.length ≤ k := Nat.le_of_not_lt inRange
    rw [show data.reverse[k]? = none from List.getElem?_eq_none (by simpa using past)]
    split
    · exact List.getElem?_eq_none (by omega)
    · exact List.getElem?_eq_none past

/-! ### `ReverseHex` -/

theorem reverseHex_of_error {s : List UInt8} {e : DecodeError}
    (failed : decodeString s = .error e) :
    reverseHex s = s := by
  rw [reverseHex, failed]

/-- A string that decodes is returned as the lower-case hex of its bytes reversed. -/
theorem reverseHex_of_ok {s data : List UInt8} (decoded : decodeString s = .ok data) :
    reverseHex s = encodeToString data.reverse := by
  rw [reverseHex, decoded]
  exact congrArg encodeToString (reverseBytes_eq_reverse data)

/-- Applied twice, `ReverseHex` turns every hex string into the lower-case hex of its bytes. -/
theorem reverseHex_reverseHex_of_ok {s data : List UInt8} (decoded : decodeString s = .ok data) :
    reverseHex (reverseHex s) = encodeToString data := by
  rw [reverseHex_of_ok decoded, reverseHex_of_ok (decodeString_encodeToString _),
    List.reverse_reverse]

/-- For every string `s`: `ReverseHex(ReverseHex(s)) = s` when `s` does not decode or is
lower-case hex; and when `s` decodes, `ReverseHex(s)` has the length of `s` and decodes, with
byte `k` of its decoding byte `n-1-k` of the decoding of `s`, for `n` the decoded length. -/
theorem reverseHex_involutive_and_reverses (s : List UInt8) :
    ((∃ e, decodeString s = .error e) ∨ IsLowerHex s → reverseHex (reverseHex s) = s) ∧
      ∀ data, decodeString s = .ok data →
        (reverseHex s).length = s.length ∧
          ∃ reversed, decodeString (reverseHex s) = .ok reversed ∧
            reversed.length = data.length ∧
            ∀ k < data.length, reversed[k]? = data[data.length - 1 - k]? := by
  refine ⟨?_, fun data decoded => ?_⟩
  · rintro (⟨e, failed⟩ | lower)
    · rw [reverseHex_of_error failed, reverseHex_of_error failed]
    · obtain ⟨data, decoded, encoded⟩ := encodeToString_of_lowerHex lower
      rw [reverseHex_reverseHex_of_ok decoded, encoded]
  · rw [reverseHex_of_ok decoded, length_encodeToString, List.length_reverse,
      length_of_decodeString decoded, decodeString_encodeToString]
    exact ⟨rfl, _, rfl, List.length_reverse _, fun k inRange => List.getElem?_reverse inRange⟩

/-- `"0aff"` is lower-case hex; its bytes are `0x0a, 0xff`. -/
theorem lowerHex_0aff_reversed :
    reverseHex (reverseHex [48, 97, 102, 102]) = [48, 97, 102, 102] ∧
      (reverseHex [48, 97, 102, 102]).length = 4 ∧
        ∃ reversed, decodeString (reverseHex [48, 97, 102, 102]) = .ok reversed ∧
          reversed.length = 2 ∧ ∀ k < 2, reversed[k]? = [10, 255][2 - 1 - k]? :=
  let ⟨twice, reversing⟩ := reverseHex_involutive_and_reverses [48, 97, 102, 102]
  ⟨twice (.inr (by decide)), reversing [10, 255] rfl⟩

/-! ### `ValidateTxHash` -/

/-- `ValidateTxHash` accepts exactly the strings of 64 hex digits, of either case. -/
theorem validateTxHash_iff (hash : List UInt8) :
    validateTxHash hash = true ↔
      hash.length = 64 ∧ ∀ c ∈ hash, (fromHexChar c).isSome = true := by
  rw [validateTxHash, Bool.and_eq_true, isOk_decodeString_iff, decide_eq_true_iff]
  constructor
  · exact fun ⟨length, _, digits⟩ => ⟨length, digits⟩
  · exact fun ⟨length, digits⟩ => ⟨length, by rw [length], digits⟩

end Bitcoin

end MultichainIndexer
