import MultichainIndexer.Proofs.OutputGrouping

/-
Module: MultichainIndexer.Proofs.TransferExtraction
Purpose: What `ExtractTransfers` emits, for every transaction and every order of the `range`
  over `outputsByAddress`. The loop `rangeOutputs` is described once: with its fee cleared, each
  record is the plain record of the entry it visits (`rangeOutputs_withoutFee`), and its fee
  column is the shape `FeeOnFirst` (`rangeOutputs_feeOnFirst`). The coinbase path is a
  `flatMap` over the positive outputs (`coinbaseTransfers_eq`). Everything about the emitted
  list follows from these three and from the grouping facts of `OutputGrouping`.
Trusted boundary: none
Main exports: extractTransfers_fee_attribution, extractTransfers_regular_records,
  extractTransfers_coinbase_records, extractTransfers_amount_sum
-/

namespace MultichainIndexer.Bitcoin.Transaction

/-- A record with its fee cleared. -/
def withoutFee (t : Types.Transaction) : Types.Transaction := { t with txFee := 0 }

/-- The fee column the extractor promises for a list `L`, where `qualifies` marks the records
that may carry the fee. Either no record carries one, and then the fee is zero or no record
qualifies; or `L` splits at the first record that qualifies, which carries `fee ≠ 0`, and no
other record carries a fee. -/
def FeeOnFirst (qualifies : Types.Transaction → Bool) (fee : Decimal)
    (L : List Types.Transaction) : Prop :=
  ((∀ t ∈ L, t.txFee = 0) ∧ (fee = 0 ∨ ∀ t ∈ L, qualifies t = false)) ∨
    ∃ front t back, L = front ++ t :: back ∧
      (∀ x ∈ front, qualifies x = false ∧ x.txFee = 0) ∧
      qualifies t = true ∧ t.txFee = fee ∧ fee ≠ 0 ∧ ∀ x ∈ back, x.txFee = 0

section Loop

variable (tx : Transaction) (networkID : String) (blockNum timestamp : UInt64)
  (fromAddr : String) (isChange : String → Bool) (fee : Decimal)

/-- The plain record the loop builds for an entry, before any fee. -/
abbrev entryRecord (entry : DecimalEntry) : Types.Transaction :=
  transferRecord tx networkID blockNum timestamp fromAddr entry.1 entry.2 .transfer

/-- One iteration of the loop: the record of the entry, carrying the fee exactly when the flag
is down, the entry is not change and the fee is non-zero; that raises the flag. -/
theorem rangeOutputs_cons (feeAssigned : Bool) (entry : DecimalEntry) (rest : List DecimalEntry) :
    rangeOutputs tx networkID blockNum timestamp fromAddr isChange fee feeAssigned
        (entry :: rest) =
      if !feeAssigned && !isChange entry.1 && fee ≠ 0 then
        { entryRecord tx networkID blockNum timestamp fromAddr entry with txFee := fee } ::
          rangeOutputs tx networkID blockNum timestamp fromAddr isChange fee true rest
      else
        entryRecord tx networkID blockNum timestamp fromAddr entry ::
          rangeOutputs tx networkID blockNum timestamp fromAddr isChange fee feeAssigned rest := by
  simp [rangeOutputs]

/-- With the fee cleared, the loop emits the plain record of every entry, in the order visited. -/
theorem rangeOutputs_withoutFee :
    ∀ (feeAssigned : Bool) (entries : List DecimalEntry),
      (rangeOutputs tx networkID blockNum timestamp fromAddr isChange fee feeAssigned
          entries).map withoutFee =
        entries.map (entryRecord tx networkID blockNum timestamp fromAddr)
  | _, [] => rfl
  | feeAssigned, entry :: rest => by
    rw [rangeOutputs_cons]
    split_ifs <;>
      simp [withoutFee, transferRecord, rangeOutputs_withoutFee _ rest]

/-- Once the flag is up, no later record carries a fee. -/
theorem rangeOutputs_assigned_txFee :
    ∀ (entries : List DecimalEntry),
      ∀ t ∈ rangeOutputs tx networkID blockNum timestamp fromAddr isChange fee true entries,
        t.txFee = 0
  | [] => by simp [rangeOutputs]
  | entry :: rest => by
    rw [rangeOutputs_cons, if_neg (by simp), List.forall_mem_cons]
    exact ⟨rfl, rangeOutputs_assigned_txFee rest⟩

/-- The loop started with the flag down attaches the fee as `FeeOnFirst` says, the records that
qualify being those whose address `isChange` does not flag. -/
theorem rangeOutputs_feeOnFirst :
    ∀ (entries : List DecimalEntry),
      FeeOnFirst (fun t => !isChange t.toAddress) fee
        (rangeOutputs tx networkID blockNum timestamp fromAddr isChange fee false entries)
  | [] => .inl ⟨by simp [rangeOutputs], .inr (by simp [rangeOutputs])⟩
  | entry :: rest => by
    rw [rangeOutputs_cons]
    by_cases fires : isChange entry.1 = false ∧ fee ≠ 0
    · simp only [fires, Bool.not_false, Bool.and_self, ne_eq, not_false_eq_true, decide_True,
        if_true]
      exact .inr ⟨[], _, _, rfl, by simp, by simp [transferRecord, fires.1], rfl, fires.2,
        rangeOutputs_assigned_txFee tx networkID blockNum timestamp fromAddr isChange fee rest⟩
    · have quiet : ¬ (!false && !isChange entry.1 && decide (fee ≠ 0)) = true := by
        simpa using fires
      rw [if_neg quiet]
      rcases rangeOutputs_feeOnFirst rest with
        ⟨zero, noneQualify⟩ | ⟨front, t, back, split, beforeFirst, atFirst⟩
      · refine .inl ⟨List.forall_mem_cons.mpr ⟨rfl, zero⟩, ?_⟩
        by_cases feeZero : fee = 0
        · exact .inl feeZero
        · have change : isChange entry.1 = true := by simpa [feeZero] using fires
          exact .inr (List.forall_mem_cons.mpr
            ⟨congrArg not change, noneQualify.resolve_left feeZero⟩)
      · have change : isChange entry.1 = true := by simpa [atFirst.2.2.1] using fires
        exact .inr ⟨entryRecord tx networkID blockNum timestamp fromAddr entry :: front, t, back,
          by rw [split]; rfl, List.forall_mem_cons.mpr ⟨⟨congrArg not change, rfl⟩, beforeFirst⟩,
          atFirst⟩

/-- Any field the fee does not touch reads, along the loop's output, as along the plain records
of the visited entries. -/
theorem rangeOutputs_map_of_withoutFee {β : Type} (field : Types.Transaction → β)
    (blind : ∀ t, field (withoutFee t) = field t) (feeAssigned : Bool)
    (entries : List DecimalEntry) :
    (rangeOutputs tx networkID blockNum timestamp fromAddr isChange fee feeAssigned
        entries).map field =
      entries.map (field ∘ entryRecord tx networkID blockNum timestamp fromAddr) := by
  rw [← List.map_map, ← rangeOutputs_withoutFee, List.map_map]
  exact List.map_congr_left fun t _ => (blind t).symm

end Loop

/-- What `FeeOnFirst` says record by record: at most one record carries a fee, that record
carries `fee` and is the first one that qualifies, and some record carries a fee exactly when the
fee is non-zero and some record qualifies. -/
theorem FeeOnFirst.attribution {qualifies : Types.Transaction → Bool} {fee : Decimal}
    {L : List Types.Transaction} (shape : FeeOnFirst qualifies fee L) :
    (L.filter fun t => t.txFee ≠ 0).length ≤ 1 ∧
      (∀ t ∈ L, t.txFee ≠ 0 → t.txFee = fee ∧ L.find? qualifies = some t) ∧
      ((∃ t ∈ L, t.txFee ≠ 0) ↔ fee ≠ 0 ∧ ∃ t ∈ L, qualifies t = true) := by
  rcases shape with ⟨zero, noFee⟩ | ⟨front, t, back, rfl, beforeFirst, first, carries, feeNe, after⟩
  · have nothing : L.filter (fun t => t.txFee ≠ 0) = [] :=
      List.filter_eq_nil_iff.mpr fun t mem => by simp [zero t mem]
    refine ⟨by rw [nothing]; simp, fun t mem ne => absurd (zero t mem) ne, ?_⟩
    constructor
    · rintro ⟨t, mem, ne⟩
      exact absurd (zero t mem) ne
    · rintro ⟨feeNe, t, mem, qualified⟩
      rcases noFee with feeZero | noneQualify
      · exact absurd feeZero feeNe
      · simp [noneQualify t mem] at qualified
  · have onlyFirst : ∀ x ∈ front ++ t :: back, x.txFee ≠ 0 → x = t := by
      intro x mem ne
      simp only [List.mem_append, List.mem_cons] at mem
      rcases mem with inFront | rfl | inBack
      · exact absurd (beforeFirst x inFront).2 ne
      · rfl
      · exact absurd (after x inBack) ne
    have found : (front ++ t :: back).find? qualifies = some t := by
      rw [List.find?_append, List.find?_eq_none.mpr fun x mem => by simp [(beforeFirst x mem).1],
        List.find?_cons_of_pos _ first]
      rfl
    refine ⟨?_, fun x mem ne => by obtain rfl := onlyFirst x mem ne; exact ⟨carries, found⟩,
      ⟨fun _ => ⟨feeNe, t, by simp, first⟩, fun _ => ⟨t, by simp, carries ▸ feeNe⟩⟩⟩
    have frontQuiet : front.filter (fun x => x.txFee ≠ 0) = [] :=
      List.filter_eq_nil_iff.mpr fun x mem => by simp [(beforeFirst x mem).2]
    have backQuiet : back.filter (fun x => x.txFee ≠ 0) = [] :=
      List.filter_eq_nil_iff.mpr fun x mem => by simp [after x mem]
    rw [List.filter_append, List.filter_cons, frontQuiet, backQuiet]
    simp [carries, feeNe]

section Extract

variable (tx : Transaction) (networkID : String) (blockNum timestamp : UInt64) (fee : Decimal)
  (order : MapOrder DecimalEntry)

/-- The coinbase path emits, for each positive output in order, one mining record per address in
order. -/
theorem coinbaseTransfers_eq (vouts : List Vout) :
    coinbaseTransfers tx networkID blockNum timestamp vouts =
      (vouts.filter fun v => 0 < v.value).flatMap fun v =>
        (extractAddresses v.scriptPubKey).map fun a =>
          transferRecord tx networkID blockNum timestamp "coinbase" a
            (Decimal.newFromFloat v.value) .mining := by
  induction vouts with
  | nil => rfl
  | cons vout rest ih =>
    by_cases positive : 0 < vout.value
    · simp only [coinbaseTransfers, not_le_zero_iff.mpr positive, if_false, List.filter_cons,
        positive, decide_True, if_true, List.flatMap_cons, ih]
      split_ifs with noAddresses
      · simp [List.length_eq_zero.mp noAddresses]
      · rfl
    · have nonPositive : vout.value ≤ 0 := not_not.mp (mt not_le_zero_iff.mp positive)
      simp [coinbaseTransfers, nonPositive, List.filter_cons, positive, ih]

/-- Off the coinbase path both branches run one loop: with no input addresses the change test
never fires and `fromAddr` is `""`, which is what the fallback does. -/
theorem extractTransfers_of_not_coinbase (regular : tx.isCoinbase = false) :
    tx.extractTransfers networkID blockNum timestamp fee order =
      rangeOutputs tx networkID blockNum timestamp (fromAddressOf tx.extractInputAddresses)
        (fun addr => tx.extractInputAddresses.contains addr) fee false
        (order.arrange tx.groupOutputsByAddress.entries) := by
  unfold extractTransfers
  simp only [regular, Bool.false_eq_true, if_false]
  split_ifs with hasInputs
  · rfl
  · have noInputs : tx.extractInputAddresses = [] :=
      List.eq_nil_of_length_eq_zero (by omega)
    simp [noInputs, fromAddressOf]

/-- Off the coinbase path, the records pay the grouped addresses in the order the loop visits
them. -/
theorem extractTransfers_toAddresses (regular : tx.isCoinbase = false) :
    (tx.extractTransfers networkID blockNum timestamp fee order).map (·.toAddress) =
      (order.arrange tx.groupOutputsByAddress.entries).map Sigma.fst := by
  simp only [extractTransfers_of_not_coinbase tx networkID blockNum timestamp fee order regular,
    rangeOutputs_map_of_withoutFee _ _ _ _ _ _ _ (·.toAddress) (fun _ => rfl)]
  rfl

/-- Off the coinbase path, the records pay exactly the addresses of the positive outputs. -/
theorem mem_toAddresses_extractTransfers (regular : tx.isCoinbase = false) (a : String) :
    a ∈ (tx.extractTransfers networkID blockNum timestamp fee order).map (·.toAddress) ↔
      ∃ v ∈ tx.vout, 0 < v.value ∧ a ∈ extractAddresses v.scriptPubKey := by
  rw [extractTransfers_toAddresses tx networkID blockNum timestamp fee order regular,
    ((order.arrange_perm _).map Sigma.fst).mem_iff, ← mem_groupOutputsByAddress]
  rfl

theorem fromAddressOf_single (a : String) : fromAddressOf [a] = a := rfl

theorem fromAddressOf_several (a : String) (rest : List String) (several : rest ≠ []) :
    fromAddressOf (a :: rest) = a ++ "+" ++ toString rest.length ++ "_more" := by
  exact if_pos (Nat.succ_lt_succ (List.length_pos.mpr several))

end Extract

/-! ### Fee attribution -/

/-- For every transaction, fee and order of the `range` over the grouped outputs: a coinbase
transaction emits no fee; otherwise at most one transfer carries a non-zero fee, that transfer
carries exactly the fee and is the first transfer whose `ToAddress` is not an input address, and
such a transfer exists exactly when the fee is non-zero and some transfer pays a non-input
address. -/
theorem extractTransfers_fee_attribution (tx : Transaction) (networkID : String)
    (blockNum timestamp : UInt64) (fee : Decimal) (order : MapOrder DecimalEntry) :
    let L := tx.extractTransfers networkID blockNum timestamp fee order
    let notInput := fun t : Types.Transaction => !tx.extractInputAddresses.contains t.toAddress
    (tx.isCoinbase = true → ∀ t ∈ L, t.txFee = 0) ∧
      (tx.isCoinbase = false →
        (L.filter fun t => t.txFee ≠ 0).length ≤ 1 ∧
          (∀ t ∈ L, t.txFee ≠ 0 → t.txFee = fee ∧ L.find? notInput = some t) ∧
          ((∃ t ∈ L, t.txFee ≠ 0) ↔ fee ≠ 0 ∧ ∃ t ∈ L, notInput t = true)) := by
  refine ⟨fun coinbase t mem => ?_, fun regular => ?_⟩
  · simp only [extractTransfers, coinbase, if_true, coinbaseTransfers_eq, List.mem_flatMap,
      List.mem_map] at mem
    obtain ⟨_, _, _, _, rfl⟩ := mem
    rfl
  · simp only [extractTransfers_of_not_coinbase tx networkID blockNum timestamp fee order regular]
    exact FeeOnFirst.attribution (rangeOutputs_feeOnFirst ..)

/-- The order of the `range` changes nothing but which record carries the fee: with fees cleared,
any two orders emit the same records. -/
theorem extractTransfers_withoutFee_perm (tx : Transaction) (networkID : String)
    (blockNum timestamp : UInt64) (fee : Decimal) (first second : MapOrder DecimalEntry) :
    List.Perm ((tx.extractTransfers networkID blockNum timestamp fee first).map withoutFee)
      ((tx.extractTransfers networkID blockNum timestamp fee second).map withoutFee) := by
  cases coinbase : tx.isCoinbase
  · simp only [extractTransfers_of_not_coinbase tx networkID blockNum timestamp fee _ coinbase,
      rangeOutputs_withoutFee]
    exact ((first.arrange_perm _).trans (second.arrange_perm _).symm).map _
  · simp [extractTransfers, coinbase]

/-- A spend of three to `A` paying one each to `B` and `C`. -/
def twoPayeeTx : Transaction :=
  { txid := "t"
    vin := [{ txid := "p", vout := 0, coinbase := "", prevOut := some ⟨⟨3⟩, ⟨"A", []⟩⟩ }]
    vout := [⟨⟨1⟩, ⟨"B", []⟩⟩, ⟨⟨1⟩, ⟨"C", []⟩⟩] }

/-- Under the two orders of its grouped outputs, `twoPayeeTx` with fee one emits different
multisets of records: the fee goes to whichever payee the loop visits first. -/
theorem twoPayeeTx_fee_depends_on_order :
    ¬ List.Perm (twoPayeeTx.extractTransfers "" 0 0 1 (MapOrder.stored _))
      (twoPayeeTx.extractTransfers "" 0 0 1 (MapOrder.reversed _)) := by
  decide

/-! ### The records -/

/-- A coinbase transaction emits, whatever the fee and the order, one mining transfer from
`"coinbase"` per pair of a positive output and one of its addresses, ordered by output and then
by address, each carrying the output's full value and no fee. -/
theorem extractTransfers_coinbase_records (tx : Transaction) (networkID : String)
    (blockNum timestamp : UInt64) (fee : Decimal) (order : MapOrder DecimalEntry)
    (coinbase : tx.isCoinbase = true) :
    tx.extractTransfers networkID blockNum timestamp fee order =
      (tx.vout.filter fun v => 0 < v.value).flatMap fun v =>
        (extractAddresses v.scriptPubKey).map fun a =>
          { txHash := tx.txid, networkId := networkID, blockNumber := blockNum
            fromAddress := "coinbase", toAddress := a, assetAddress := ""
            amount := Decimal.newFromFloat v.value, type := .mining, txFee := 0
            timestamp := timestamp } := by
  simp only [extractTransfers, coinbase, if_true]
  exact coinbaseTransfers_eq tx networkID blockNum timestamp tx.vout

/-- A transaction whose first input is a coinbase input. -/
def coinbaseTx : Transaction :=
  { txid := "c"
    vin := [{ txid := "", vout := 0, coinbase := "03", prevOut := none }]
    vout := [⟨⟨6⟩, ⟨"M", []⟩⟩] }

theorem coinbaseTx_records :
    coinbaseTx.isCoinbase = true ∧
      coinbaseTx.extractTransfers "" 0 0 1 (MapOrder.stored _) =
        (coinbaseTx.vout.filter fun v => 0 < v.value).flatMap fun v =>
          (extractAddresses v.scriptPubKey).map fun a =>
            { txHash := coinbaseTx.txid, networkId := "", blockNumber := 0
              fromAddress := "coinbase", toAddress := a, assetAddress := ""
              amount := Decimal.newFromFloat v.value, type := .mining, txFee := 0
              timestamp := 0 } :=
  ⟨rfl, extractTransfers_coinbase_records coinbaseTx "" 0 0 1 _ rfl⟩

/-- A transaction that is not coinbase emits, whatever the fee and the order, exactly one
transfer per distinct address of its positive outputs and no other, each carrying the sum of the
values of the positive outputs, once per occurrence of its address among their addresses, typed
`transfer`, under the transaction's hash, from `""`, the one input address, or
`first+(n-1)_more`, as the input addresses are none, one or `n ≥ 2`. -/
theorem extractTransfers_regular_records (tx : Transaction) (networkID : String)
    (blockNum timestamp : UInt64) (fee : Decimal) (order : MapOrder DecimalEntry)
    (regular : tx.isCoinbase = false) :
    let L := tx.extractTransfers networkID blockNum timestamp fee order
    let inputs := tx.extractInputAddresses
    (L.map (·.toAddress)).Nodup ∧
      (∀ a, a ∈ L.map (·.toAddress) ↔
        ∃ v ∈ tx.vout, 0 < v.value ∧ a ∈ extractAddresses v.scriptPubKey) ∧
      ∀ t ∈ L, t.amount = addressOutputTotal tx.vout t.toAddress ∧ t.type = .transfer ∧
        t.txHash = tx.txid ∧ (inputs = [] → t.fromAddress = "") ∧
        (∀ a, inputs = [a] → t.fromAddress = a) ∧
        (∀ a rest, inputs = a :: rest → rest ≠ [] →
          t.fromAddress = a ++ "+" ++ toString rest.length ++ "_more") := by
  intro L inputs
  have loop := extractTransfers_of_not_coinbase tx networkID blockNum timestamp fee order regular
  have visited := order.arrange_perm tx.groupOutputsByAddress.entries
  refine ⟨?_, mem_toAddresses_extractTransfers tx networkID blockNum timestamp fee order regular,
    fun t mem => ?_⟩
  · rw [extractTransfers_toAddresses tx networkID blockNum timestamp fee order regular,
      (visited.map Sigma.fst).nodup_iff]
    exact tx.groupOutputsByAddress.keys_nodup
  · rw [show L = _ from loop] at mem
    obtain ⟨entry, visits, record⟩ := List.mem_map.mp
      ((rangeOutputs_withoutFee ..).symm ▸ List.mem_map_of_mem withoutFee mem :
        withoutFee t ∈ _)
    have stored : tx.groupOutputsByAddress.lookup entry.1 = some entry.2 :=
      AList.mem_lookup_iff.mpr (visited.mem_iff.mp visits)
    have total := amountAt_groupOutputsByAddress tx entry.1
    simp only [amountAt, stored, Option.getD_some] at total
    have fields := congrArg (fun r => (r.toAddress, r.amount, r.type, r.txHash, r.fromAddress))
      record
    simp only [withoutFee, transferRecord, Prod.mk.injEq] at fields
    obtain ⟨address, amount, type, hash, source⟩ := fields
    refine ⟨by rw [← amount, ← address, total], type.symm, hash.symm, ?_, ?_, ?_⟩
    · intro none
      rw [← source, show tx.extractInputAddresses = [] from none]
      rfl
    · intro a single
      rw [← source, show tx.extractInputAddresses = [a] from single]
      rfl
    · intro a rest several more
      rw [← source, show tx.extractInputAddresses = a :: rest from several,
        fromAddressOf_several a rest more]

theorem twoPayeeTx_records :
    twoPayeeTx.isCoinbase = false ∧
      let L := twoPayeeTx.extractTransfers "" 0 0 1 (MapOrder.stored _)
      let inputs := twoPayeeTx.extractInputAddresses
      (L.map (·.toAddress)).Nodup ∧
        (∀ a, a ∈ L.map (·.toAddress) ↔
          ∃ v ∈ twoPayeeTx.vout, 0 < v.value ∧ a ∈ extractAddresses v.scriptPubKey) ∧
        ∀ t ∈ L, t.amount = addressOutputTotal twoPayeeTx.vout t.toAddress ∧
          t.type = .transfer ∧ t.txHash = twoPayeeTx.txid ∧
          (inputs = [] → t.fromAddress = "") ∧ (∀ a, inputs = [a] → t.fromAddress = a) ∧
          (∀ a rest, inputs = a :: rest → rest ≠ [] →
            t.fromAddress = a ++ "+" ++ toString rest.length ++ "_more") :=
  ⟨rfl, extractTransfers_regular_records twoPayeeTx "" 0 0 1 _ rfl⟩

/-! ### Amounts -/

/-- The amount of a plain coinbase record sums, over a list of outputs, to each output once per
address. -/
theorem coinbase_amount_sum (tx : Transaction) (networkID : String) (blockNum timestamp : UInt64)
    (vouts : List Vout) :
    ((vouts.flatMap fun v => (extractAddresses v.scriptPubKey).map fun a =>
        transferRecord tx networkID blockNum timestamp "coinbase" a
          (Decimal.newFromFloat v.value) .mining).map (·.amount)).sum =
      (vouts.map fun v =>
        ((extractAddresses v.scriptPubKey).length : ℚ) * Decimal.newFromFloat v.value).sum := by
  induction vouts with
  | nil => rfl
  | cons vout rest ih =>
    rw [List.flatMap_cons, List.map_append, List.sum_append, ih, List.map_cons, List.sum_cons]
    simp [transferRecord, Function.comp_def, List.map_const', List.sum_replicate, nsmul_eq_mul]

/-- For every transaction, fee and order, the amounts of the emitted transfers add up to the
value of each positive output once per address it carries. An output naming several addresses
is counted once for each of them, on the coinbase path and through the grouping alike. -/
theorem extractTransfers_amount_sum (tx : Transaction) (networkID : String)
    (blockNum timestamp : UInt64) (fee : Decimal) (order : MapOrder DecimalEntry) :
    ((tx.extractTransfers networkID blockNum timestamp fee order).map (·.amount)).sum =
      ((tx.vout.filter fun v => 0 < v.value).map fun v =>
        ((extractAddresses v.scriptPubKey).length : ℚ) * Decimal.newFromFloat v.value).sum := by
  cases coinbase : tx.isCoinbase
  · rw [extractTransfers_of_not_coinbase tx networkID blockNum timestamp fee order coinbase,
      rangeOutputs_map_of_withoutFee _ _ _ _ _ _ _ (·.amount) (fun _ => rfl)]
    change _ = addressedOutputSum tx.vout
    rw [← entrySum_groupOutputsByAddress tx, entrySum]
    exact ((order.arrange_perm _).map _).sum_eq
  · simp only [extractTransfers, coinbase, if_true, coinbaseTransfers_eq]
    exact coinbase_amount_sum tx networkID blockNum timestamp _

/-- A transaction without inputs whose one output, of value one, names `A` and `B`. -/
def twoAddressOutputTx : Transaction :=
  { txid := "m", vin := [], vout := [⟨⟨1⟩, ⟨"A", ["B"]⟩⟩] }

/-- The amounts `twoAddressOutputTx` emits add up to two, not to the one its address-bearing
output pays. -/
theorem twoAddressOutputTx_amount_sum :
    ((twoAddressOutputTx.extractTransfers "" 0 0 0 (MapOrder.stored _)).map (·.amount)).sum ≠
      ((twoAddressOutputTx.vout.filter fun v =>
        0 < v.value ∧ extractAddresses v.scriptPubKey ≠ []).map fun v =>
          Decimal.newFromFloat v.value).sum := by
  have emitted : (twoAddressOutputTx.extractTransfers "" 0 0 0 (MapOrder.stored _)).map
      (·.amount) = [1, 1] := by
    decide
  rw [emitted]
  norm_num [twoAddressOutputTx, extractAddresses, Decimal.newFromFloat, Float64.lt_iff]

end MultichainIndexer.Bitcoin.Transaction
