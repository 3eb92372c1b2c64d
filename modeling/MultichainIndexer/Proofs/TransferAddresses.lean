import MultichainIndexer.Proofs.TransferExtraction

/-
Module: MultichainIndexer.Proofs.TransferAddresses
Purpose: The addresses the extractor works with. `ExtractInputAddresses` keeps its `addressSet`
  equal to the addresses of its slice (`InputAddressScan.Marked`), so its loop appends exactly
  the addresses not yet seen: the result is `List.eraseDups` of the addresses of the spent
  outputs, in input order, and has no duplicates (`extractInputAddresses_eq_eraseDups`).
  `ExtractAddresses` skips an empty `Address` but passes an empty entry of `Addresses` through,
  so a record's `ToAddress` is `""` exactly for such an entry of a positive output
  (`toAddress_eq_empty`), and off the coinbase path its `FromAddress` is `""` both for no input
  address and for the single input address `""` (`fromAddress_eq_empty_iff`); one transaction
  shows both (`emptyAddressTx_empty_addresses`).
Trusted boundary: none
Main exports: InputAddressScan.Marked, foldl_add, foldl_visit, nodup_eraseDups,
  extractInputAddresses_eq_eraseDups, mem_toAddresses, toAddress_eq_empty, fromAddress_of_mem,
  fromAddress_eq_empty_iff, emptyAddressTx_empty_addresses
-/

namespace MultichainIndexer.Bitcoin.Transaction

/-! ### The input-address scan -/

/-- The `addressSet` of a scan marks exactly the addresses of its `addresses` slice. -/
def InputAddressScan.Marked (scan : InputAddressScan) : Prop :=
  ∀ a, scan.addressSet a = true ↔ a ∈ scan.addresses

/-- The inner loop's body appends an address exactly when it is not in the slice yet, and keeps
the set in step with the slice. -/
theorem InputAddressScan.add_marked {scan : InputAddressScan} (marked : scan.Marked)
    (addr : String) :
    (scan.add addr).Marked ∧
      (scan.add addr).addresses =
        if addr ∈ scan.addresses then scan.addresses else scan.addresses ++ [addr] := by
  unfold InputAddressScan.add
  by_cases seen : addr ∈ scan.addresses
  · rw [if_neg (by simp [(marked addr).mpr seen]), if_pos seen]
    exact ⟨marked, rfl⟩
  · rw [if_pos (by simpa using mt (marked addr).mp seen), if_neg seen]
    refine ⟨fun a => ?_, rfl⟩
    simp [InputAddressScan.Marked, marked a, or_comm]

/-- The inner loop over a list of addresses is the loop of `List.eraseDups`, started from the
slice so far. -/
theorem foldl_add :
    ∀ (addrs : List String) {scan : InputAddressScan}, scan.Marked →
      (addrs.foldl InputAddressScan.add scan).Marked ∧
        (addrs.foldl InputAddressScan.add scan).addresses =
          List.eraseDups.loop addrs scan.addresses.reverse
  | [], scan, marked => ⟨marked, (List.reverse_reverse _).symm⟩
  | addr :: rest, scan, marked => by
    obtain ⟨marked', added⟩ := scan.add_marked marked addr
    obtain ⟨markedRest, restEq⟩ := foldl_add rest marked'
    refine ⟨markedRest, ?_⟩
    rw [List.foldl_cons, restEq, added, List.eraseDups.loop]
    by_cases seen : addr ∈ scan.addresses
    · rw [if_pos seen, List.elem_iff.mpr (List.mem_reverse.mpr seen)]
    · rw [if_neg seen, List.reverse_concat,
        show scan.addresses.reverse.elem addr = false from
          Bool.eq_false_iff.mpr fun found => seen (List.mem_reverse.mp (List.elem_iff.mp found))]

/-- The outer loop over the inputs runs the inner loop over the addresses of each spent output
in turn. -/
theorem foldl_visit (scan : InputAddressScan) :
    ∀ vins : List Vin,
      vins.foldl InputAddressScan.visit scan =
        ((vins.filterMap fun vin => if vin.coinbase = "" then vin.prevOut else none).flatMap
          fun prevOut => extractAddresses prevOut.scriptPubKey).foldl InputAddressScan.add scan
  | [] => rfl
  | vin :: rest => by
    rw [List.foldl_cons, foldl_visit _ rest, List.filterMap_cons]
    unfold InputAddressScan.visit
    by_cases script : vin.coinbase = ""
    · rw [if_pos script, if_neg (not_not.mpr script)]
      cases vin.prevOut <;> simp only [List.flatMap_cons, List.foldl_append]
    · rw [if_neg script, if_pos script]

theorem nodup_eraseDups_loop :
    ∀ (addrs : List String) {seen : List String}, seen.Nodup →
      (List.eraseDups.loop addrs seen).Nodup
  | [], _, nodup => List.nodup_reverse.mpr nodup
  | addr :: rest, seen, nodup => by
    rw [List.eraseDups.loop]
    cases found : seen.elem addr
    · exact nodup_eraseDups_loop rest
        (nodup.cons fun mem => Bool.false_ne_true (found ▸ List.elem_iff.mpr mem))
    · exact nodup_eraseDups_loop rest nodup

theorem nodup_eraseDups (addrs : List String) : addrs.eraseDups.Nodup :=
  nodup_eraseDups_loop addrs List.nodup_nil

/-- For every transaction, `ExtractInputAddresses` has no duplicates, and it is the list of
distinct addresses, each at its first occurrence (`List.eraseDups`), of the concatenation of
`ExtractAddresses(vin.PrevOut.ScriptPubKey)` over the inputs, in order, that have no coinbase
script and a `PrevOut`. -/
theorem extractInputAddresses_eq_eraseDups (tx : Transaction) :
    tx.extractInputAddresses.Nodup ∧
      tx.extractInputAddresses =
        ((tx.vin.filterMap fun vin => if vin.coinbase = "" then vin.prevOut else none).flatMap
          fun prevOut => extractAddresses prevOut.scriptPubKey).eraseDups := by
  refine (fun scanned => ⟨by rw [scanned]; exact nodup_eraseDups _, scanned⟩) ?_
  unfold extractInputAddresses
  rw [foldl_visit]
  exact (foldl_add _ fun _ => by simp).2

/-! ### The addresses of the records -/

/-- `ExtractAddresses` yields the empty string exactly when `Addresses` holds it: an empty
`Address` is skipped, an empty entry of `Addresses` is not. -/
theorem empty_mem_extractAddresses (spk : ScriptPubKey) :
    "" ∈ extractAddresses spk ↔ "" ∈ spk.addresses := by
  rw [extractAddresses_eq]
  by_cases empty : spk.address = ""
  · simp [empty]
  · simp [empty, Ne.symm empty]

section Records

variable (tx : Transaction) (networkID : String) (blockNum timestamp : UInt64) (fee : Decimal)
  (order : MapOrder DecimalEntry)

/-- On both paths the records pay exactly the addresses of the positive outputs. -/
theorem mem_toAddresses (a : String) :
    a ∈ (tx.extractTransfers networkID blockNum timestamp fee order).map (·.toAddress) ↔
      ∃ v ∈ tx.vout, 0 < v.value ∧ a ∈ extractAddresses v.scriptPubKey := by
  cases coinbase : tx.isCoinbase
  · exact mem_toAddresses_extractTransfers tx networkID blockNum timestamp fee order coinbase a
  · simp only [extractTransfers, coinbase, if_true, coinbaseTransfers_eq, List.map_flatMap,
      List.map_map, List.mem_flatMap, List.mem_filter, decide_eq_true_eq, and_assoc]
    simp [Function.comp_def, transferRecord]

/-- Off the coinbase path every record is sent from `fromAddressOf` of the input addresses, which
is `""` when there are none. -/
theorem fromAddress_of_mem (regular : tx.isCoinbase = false) {t : Types.Transaction}
    (mem : t ∈ tx.extractTransfers networkID blockNum timestamp fee order) :
    t.fromAddress = fromAddressOf tx.extractInputAddresses := by
  rw [extractTransfers_of_not_coinbase tx networkID blockNum timestamp fee order regular] at mem
  have sources := rangeOutputs_map_of_withoutFee tx networkID blockNum timestamp
    (fromAddressOf tx.extractInputAddresses) (fun addr => tx.extractInputAddresses.contains addr)
    fee (·.fromAddress) (fun _ => rfl) false (order.arrange tx.groupOutputsByAddress.entries)
  have named := List.mem_map_of_mem (fun t : Types.Transaction => t.fromAddress) mem
  rw [sources] at named
  obtain ⟨_, _, same⟩ := List.mem_map.mp named
  exact same.symm

/-- The sender the regular path names is empty exactly for no input address or for the single
input address `""`. -/
theorem fromAddressOf_eq_empty_iff : ∀ addrs : List String,
    fromAddressOf addrs = "" ↔ addrs = [] ∨ addrs = [""]
  | [] => by simp [fromAddressOf]
  | [a] => by simp [fromAddressOf_single]
  | a :: b :: rest => by
    rw [fromAddressOf_several a (b :: rest) (List.cons_ne_nil _ _)]
    simp only [List.cons_ne_nil, false_or, List.cons.injEq, List.cons_ne_nil, and_false,
      iff_false]
    intro empty
    have lengths := congrArg String.length empty
    rw [String.length_append, String.length_append, String.length_append,
      show "+".length = 1 from rfl, show "".length = 0 from rfl] at lengths
    omega

/-- A record pays `""` only to a positive output whose `Addresses` holds `""`. -/
theorem toAddress_eq_empty {t : Types.Transaction}
    (mem : t ∈ tx.extractTransfers networkID blockNum timestamp fee order)
    (empty : t.toAddress = "") :
    ∃ v ∈ tx.vout, 0 < v.value ∧ "" ∈ v.scriptPubKey.addresses := by
  obtain ⟨v, out, positive, named⟩ := (mem_toAddresses tx networkID blockNum timestamp fee order
    t.toAddress).mp (List.mem_map_of_mem _ mem)
  exact ⟨v, out, positive, (empty_mem_extractAddresses _).mp (empty ▸ named)⟩

/-- Off the coinbase path a record is sent from `""` exactly when the transaction has no input
address or its only input address is `""`. -/
theorem fromAddress_eq_empty_iff (regular : tx.isCoinbase = false) {t : Types.Transaction}
    (mem : t ∈ tx.extractTransfers networkID blockNum timestamp fee order) :
    t.fromAddress = "" ↔ tx.extractInputAddresses = [] ∨ tx.extractInputAddresses = [""] := by
  rw [fromAddress_of_mem tx networkID blockNum timestamp fee order regular mem,
    fromAddressOf_eq_empty_iff]

/-- A transaction that spends an output whose `Addresses` is `[""]` and pays one to an output
whose `Addresses` is `[""]`. -/
def emptyAddressTx : Transaction :=
  { txid := "e"
    vin := [{ txid := "p", vout := 0, coinbase := "", prevOut := some ⟨⟨1⟩, ⟨"", [""]⟩⟩ }]
    vout := [⟨⟨1⟩, ⟨"", [""]⟩⟩] }

/-- For every network id, block, time, fee and iteration order: `emptyAddressTx` has the input
address `""`, so `ExtractInputAddresses` is not empty, and it emits a transfer with an empty
`ToAddress` and an empty `FromAddress`. -/
theorem emptyAddressTx_empty_addresses :
    emptyAddressTx.extractInputAddresses = [""] ∧
      ∃ t ∈ emptyAddressTx.extractTransfers networkID blockNum timestamp fee order,
        t.toAddress = "" ∧ t.fromAddress = "" := by
  have inputs : emptyAddressTx.extractInputAddresses = [""] := by decide
  have paid : "" ∈ (emptyAddressTx.extractTransfers networkID blockNum timestamp fee order).map
      (·.toAddress) :=
    (mem_toAddresses _ _ _ _ _ _ "").mpr
      ⟨_, List.mem_singleton_self _, by simp [Float64.lt_iff], by decide⟩
  obtain ⟨t, mem, named⟩ := List.mem_map.mp paid
  refine ⟨inputs, t, mem, named, ?_⟩
  rw [fromAddress_of_mem emptyAddressTx _ _ _ _ _ rfl mem, inputs]
  rfl

end Records

end MultichainIndexer.Bitcoin.Transaction
