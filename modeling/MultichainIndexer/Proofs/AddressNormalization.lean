import MultichainIndexer.Bitcoin.Address

/-
Module: MultichainIndexer.Proofs.AddressNormalization
Purpose: What `NormalizeAddress` accepts. `strings.TrimSpace` keeps exactly the part of a string
  between its leading and its trailing white space (`trimSpace_eq_iff`): a part that neither
  begins nor ends with white space, and the only one. So an accepted address is the input with
  its surrounding Unicode white space removed, non-empty and valid on mainnet or on testnet
  (`normalizeAddress_eq_ok_iff`); normalizing it again returns it unchanged
  (`normalizeAddress_idempotent`); and an input is reported as `"empty address"` exactly when it
  is white space only (`normalizeAddress_empty_iff`).
Trusted boundary: none
Main exports: TrimmedOf, trimSpace_eq_iff, trimSpace_trimSpace, normalizeAddress_ok_iff,
  normalizeAddress_eq_ok_iff, normalizeAddress_idempotent, normalizeAddress_empty_iff
-/

namespace MultichainIndexer.Bitcoin

/-- `kept` is `s` without its surrounding white space: `s` is `kept` between two runs of white
space, and `kept` neither begins nor ends with white space. -/
def TrimmedOf (s kept : List Char) : Prop :=
  ∃ pre suf, s = pre ++ kept ++ suf ∧ (∀ x ∈ pre, isSpace x) ∧
    (∀ x ∈ suf, isSpace x) ∧ (∀ x ∈ kept.head?, isSpace x = false) ∧
    ∀ x ∈ kept.getLast?, isSpace x = false

/-- A string without surrounding white space is its own trimmed part. -/
theorem TrimmedOf.self {s kept : List Char} (trimmed : TrimmedOf s kept) :
    TrimmedOf kept kept :=
  let ⟨_, _, _, _, _, head, last⟩ := trimmed
  ⟨[], [], by rw [List.nil_append, List.append_nil], nofun, nofun, head, last⟩

section Lists

variable {α : Type} {p : α → Bool}

theorem dropWhile_of_head {l : List α} (head : ∀ x ∈ l.head?, p x = false) :
    l.dropWhile p = l := by
  cases l with
  | nil => rfl
  | cons x rest => simp [List.dropWhile_cons, head x rfl]

theorem rdropWhile_of_getLast {l : List α} (last : ∀ x ∈ l.getLast?, p x = false) :
    l.rdropWhile p = l := by
  rw [List.rdropWhile, dropWhile_of_head (by simpa using last), List.reverse_reverse]

theorem rdropWhile_append_of_pos {l suf : List α} (all : ∀ x ∈ suf, p x) :
    (l ++ suf).rdropWhile p = l.rdropWhile p := by
  rw [List.rdropWhile, List.reverse_append, List.dropWhile_append_of_pos (by simpa using all),
    ← List.rdropWhile]

theorem rdropWhile_append_rtakeWhile (l : List α) : l.rdropWhile p ++ l.rtakeWhile p = l := by
  rw [List.rdropWhile, List.rtakeWhile, ← List.reverse_append, List.takeWhile_append_dropWhile,
    List.reverse_reverse]

end Lists

/-- `TrimSpace` keeps a part between two runs of white space that neither begins nor ends with
white space. -/
theorem trimmedOf_trimSpace (s : String) : TrimmedOf s.data (trimSpace s).data := by
  show TrimmedOf s.data ((s.data.dropWhile isSpace).rdropWhile isSpace)
  obtain ⟨after, prefixOf⟩ := List.rdropWhile_prefix isSpace (s.data.dropWhile isSpace)
  refine ⟨s.data.takeWhile isSpace, (s.data.dropWhile isSpace).rtakeWhile isSpace, ?_,
    fun _ mem => List.mem_takeWhile_imp mem, fun _ mem => List.mem_rtakeWhile_imp mem,
    fun x first => ?_, fun x last => ?_⟩
  · rw [List.append_assoc, rdropWhile_append_rtakeWhile, List.takeWhile_append_dropWhile]
  · have head := List.head?_dropWhile_not isSpace s.data
    rw [← prefixOf, List.head?_append, Option.mem_def.mp first] at head
    exact head
  · obtain ⟨nonEmpty, rfl⟩ := List.mem_getLast?_eq_getLast last
    exact Bool.eq_false_iff.mpr (List.rdropWhile_last_not _ _ nonEmpty)

/-- Any part between two runs of white space that neither begins nor ends with white space is
what `TrimSpace` keeps. -/
theorem trimSpace_of_trimmedOf {s : String} {kept : List Char} (trimmed : TrimmedOf s.data kept) :
    (trimSpace s).data = kept := by
  obtain ⟨pre, suf, split, leading, trailing, head, last⟩ := trimmed
  show (s.data.dropWhile isSpace).rdropWhile isSpace = kept
  rw [split, List.append_assoc, List.dropWhile_append_of_pos leading]
  cases kept with
  | nil =>
    rw [List.nil_append, List.dropWhile_eq_nil_iff.mpr trailing]
    rfl
  | cons x rest =>
    rw [dropWhile_of_head (by simpa using head), rdropWhile_append_of_pos trailing,
      rdropWhile_of_getLast last]

theorem trimSpace_eq_iff (s c : String) : trimSpace s = c ↔ TrimmedOf s.data c.data := by
  rw [String.ext_iff]
  exact ⟨fun kept => kept ▸ trimmedOf_trimSpace s, trimSpace_of_trimmedOf⟩

theorem trimSpace_trimSpace (s : String) : trimSpace (trimSpace s) = trimSpace s :=
  (trimSpace_eq_iff _ _).mpr (trimmedOf_trimSpace s).self

/-- `TrimSpace` leaves nothing exactly of a string of white space. -/
theorem trimSpace_eq_empty_iff (s : String) : trimSpace s = "" ↔ ∀ x ∈ s.data, isSpace x := by
  rw [String.ext_iff]
  show (s.data.dropWhile isSpace).rdropWhile isSpace = [] ↔ _
  rw [List.rdropWhile_eq_nil_iff, ← List.dropWhile_eq_nil_iff, List.dropWhile_idempotent,
    List.dropWhile_eq_nil_iff]

variable (lib : AddressLibrary)

/-- `NormalizeAddress` returns the trimmed address when it is non-empty and valid on one of the
two networks. -/
theorem normalizeAddress_ok_iff (addr c : String) :
    normalizeAddress lib addr = .ok c ↔
      trimSpace addr = c ∧ c ≠ "" ∧
        (isValidAddress lib c false = true ∨ isValidAddress lib c true = true) := by
  simp only [normalizeAddress]
  split_ifs with empty invalid
  · simp only [reduceCtorEq, false_iff, not_and]
    rintro rfl nonEmpty
    exact absurd empty nonEmpty
  · simp only [reduceCtorEq, false_iff, not_and]
    rintro rfl -
    simpa using invalid
  · simp only [Except.ok.injEq]
    constructor
    · rintro rfl
      exact ⟨rfl, empty, by simpa [or_iff_not_imp_left] using invalid⟩
    · exact And.left

/-- For every address library and every input, `NormalizeAddress` accepts `c` exactly when `c` is
the input without its surrounding Unicode white space (leading and trailing runs of white space
removed, `c` neither beginning nor ending with white space), `c` is non-empty, and `c` is a valid
address on mainnet or on testnet. -/
theorem normalizeAddress_eq_ok_iff (addr c : String) :
    normalizeAddress lib addr = .ok c ↔
      TrimmedOf addr.data c.data ∧ c ≠ "" ∧
        (isValidAddress lib c false = true ∨ isValidAddress lib c true = true) := by
  rw [normalizeAddress_ok_iff, trimSpace_eq_iff]

/-- For every address library, an address `NormalizeAddress` accepts is accepted again,
unchanged. -/
theorem normalizeAddress_idempotent {addr c : String}
    (accepted : normalizeAddress lib addr = .ok c) :
    normalizeAddress lib c = .ok c := by
  obtain ⟨rfl, valid⟩ := (normalizeAddress_ok_iff lib addr c).mp accepted
  exact (normalizeAddress_ok_iff lib _ _).mpr ⟨trimSpace_trimSpace addr, valid⟩

/-- For every address library, `NormalizeAddress` fails with `"empty address"` exactly on the
inputs made of white space only, the empty string included. -/
theorem normalizeAddress_empty_iff (addr : String) :
    normalizeAddress lib addr = .error "empty address" ↔ ∀ x ∈ addr.data, isSpace x := by
  rw [← trimSpace_eq_empty_iff]
  simp only [normalizeAddress]
  split_ifs with empty invalid
  · simp only [empty]
  · simp only [Except.error.injEq, empty, iff_false]
    decide
  · simp only [reduceCtorEq, empty]

/-- A library under which every Base58 string decodes to 25 zero bytes: version `0x00` and a
checksum that matches the all-zero hash. -/
def zeroBase58Library : AddressLibrary where
  bech32Decode _ := .error "invalid"
  convertBits _ _ _ _ := .error "invalid"
  base58Decode _ := List.replicate 25 0
  sum256 _ := List.replicate 32 0

/-- An address padded with a space and a newline is accepted trimmed, and again unchanged. -/
theorem paddedAddress_idempotent :
    normalizeAddress zeroBase58Library " 1A\n" = .ok "1A" ∧
      normalizeAddress zeroBase58Library "1A" = .ok "1A" :=
  ⟨rfl, @normalizeAddress_idempotent zeroBase58Library " 1A\n" "1A" rfl⟩

end MultichainIndexer.Bitcoin
