import MultichainIndexer.Indexer.Bitcoin
import MultichainIndexer.Proofs.TransferExtraction
import MultichainIndexer.Proofs.EnrichProgress

/-
Module: MultichainIndexer.Proofs.BlockProcessing
Purpose: What `GetBlock` returns. The fees a block's records carry add up to the fee of each
  transaction that is not a coinbase, has a non-zero fee and pays some address that is not one
  of its input addresses, once per such transaction, whatever order each `range` draws
  (`processBlock_txFee_sum`). `GetBlock` returns the block the enrichment's sequential reference
  builds, processed, whatever the interleaving of the enrichment, and it does return
  (`getBlockReturns_iff`).
Trusted boundary: none
Main exports: FeeOnFirst.txFee_sum, extractTransfers_txFee_sum, processTransactions_txFee_sum,
  processBlock_txFee_sum, getBlockReturns_iff
-/

namespace MultichainIndexer.Bitcoin.Transaction

/-- The fees of a record list with the `FeeOnFirst` shape add up to the fee when it is non-zero
and some record qualifies, and to zero otherwise. -/
theorem FeeOnFirst.txFee_sum {qualifies : Types.Transaction → Bool} {fee : Decimal}
    {L : List Types.Transaction} (shape : FeeOnFirst qualifies fee L) :
    (L.map (·.txFee)).sum = if fee ≠ 0 ∧ ∃ t ∈ L, qualifies t = true then fee else 0 := by
  rcases shape with ⟨zero, noFee⟩ | ⟨front, t, back, rfl, beforeFirst, first, carries, feeNe, after⟩
  · rw [if_neg, List.sum_eq_zero (List.forall_mem_map.mpr zero)]
    rintro ⟨feeNe, t, mem, qualified⟩
    rcases noFee with feeZero | noneQualify
    · exact feeNe feeZero
    · exact Bool.false_ne_true (noneQualify t mem ▸ qualified)
  · rw [if_pos ⟨feeNe, t, List.mem_append_right _ (List.mem_cons_self _ _), first⟩,
      List.map_append, List.sum_append, List.map_cons, List.sum_cons,
      List.sum_eq_zero (List.forall_mem_map.mpr fun x mem => (beforeFirst x mem).2),
      List.sum_eq_zero (List.forall_mem_map.mpr after), carries, zero_add, add_zero]

/-- The fees of a transaction's records add up to the fee once when the transaction is not a
coinbase, the fee is non-zero and some positive output pays an address that is not an input
address; otherwise to zero. The order of the `range` does not matter. -/
theorem extractTransfers_txFee_sum (tx : Transaction) (networkID : String)
    (blockNum timestamp : UInt64) (fee : Decimal) (order : MapOrder DecimalEntry) :
    ((tx.extractTransfers networkID blockNum timestamp fee order).map (·.txFee)).sum =
      if tx.isCoinbase = false ∧ fee ≠ 0 ∧ ∃ v ∈ tx.vout, 0 < v.value ∧
          ∃ a ∈ extractAddresses v.scriptPubKey, a ∉ tx.extractInputAddresses then fee
      else 0 := by
  cases coinbase : tx.isCoinbase
  · have pays : (∃ t ∈ tx.extractTransfers networkID blockNum timestamp fee order,
          (!tx.extractInputAddresses.contains t.toAddress) = true) ↔
        ∃ v ∈ tx.vout, 0 < v.value ∧
          ∃ a ∈ extractAddresses v.scriptPubKey, a ∉ tx.extractInputAddresses := by
      have paid := mem_toAddresses_extractTransfers tx networkID blockNum timestamp fee order
        coinbase
      simp only [List.mem_map] at paid
      constructor
      · rintro ⟨t, mem, notInput⟩
        obtain ⟨v, output, positive, named⟩ := (paid t.toAddress).mp ⟨t, mem, rfl⟩
        exact ⟨v, output, positive, t.toAddress, named, by simpa using notInput⟩
      · rintro ⟨v, output, positive, a, named, notInput⟩
        obtain ⟨t, mem, rfl⟩ := (paid a).mpr ⟨v, output, positive, named⟩
        exact ⟨t, mem, by simpa using notInput⟩
    rw [extractTransfers_of_not_coinbase tx networkID blockNum timestamp fee order coinbase]
      at pays ⊢
    rw [FeeOnFirst.txFee_sum (rangeOutputs_feeOnFirst ..)]
    simp only [pays, true_and]
  · rw [if_neg fun ⟨notCoinbase, _⟩ => nomatch notCoinbase]
    refine List.sum_eq_zero fun x mem => ?_
    simp only [extractTransfers, coinbase, if_true, coinbaseTransfers_eq, List.map_flatMap,
      List.mem_flatMap, List.map_map, List.mem_map] at mem
    obtain ⟨_, _, _, _, rfl⟩ := mem
    rfl

end MultichainIndexer.Bitcoin.Transaction

namespace MultichainIndexer.Indexer

open Bitcoin Bitcoin.Transaction Relation

/-- The fee `processBlock` charges a transaction: its `CalculateFee` when it is not a coinbase,
that fee is non-zero and some positive output pays an address that is not an input address. -/
def chargedFee (tx : Bitcoin.Transaction) : Decimal :=
  if tx.isCoinbase = false ∧ tx.calculateFee ≠ 0 ∧ ∃ v ∈ tx.vout, 0 < v.value ∧
      ∃ a ∈ extractAddresses v.scriptPubKey, a ∉ tx.extractInputAddresses then tx.calculateFee
  else 0

/-- The loop of `processBlock` appends the records of each transaction in turn, so the fees of
its output add up to the fee charged to each transaction. -/
theorem processTransactions_txFee_sum (networkID : String) (height time : UInt64)
    (order : Nat → MapOrder DecimalEntry) :
    ∀ (i : Nat) (txs : List Bitcoin.Transaction),
      ((processTransactions networkID height time order i txs).map (·.txFee)).sum =
        (txs.map chargedFee).sum
  | _, [] => rfl
  | i, tx :: rest => by
    rw [processTransactions, List.map_append, List.sum_append, extractTransfers_txFee_sum,
      processTransactions_txFee_sum networkID height time order (i + 1) rest, List.map_cons,
      List.sum_cons]
    rfl

/-- For every block and every order the extractor's loops draw, the fees of the records
`processBlock` emits add up to the fee charged to each transaction, once per transaction. -/
theorem processBlock_txFee_sum (networkID : String) (order : Nat → MapOrder DecimalEntry)
    (blk : Bitcoin.Block) :
    (processBlock networkID order (some blk)).map (fun block =>
        (block.transactions.map (·.txFee)).sum) =
      some (blk.tx.map chargedFee).sum := by
  simp only [processBlock, Option.map_some', processTransactions_txFee_sum]

/-- For every block `GetBlock` fetched, every result of the enrichment's calls and every order
the extractor's loops draw: `GetBlock` can return exactly one value, the block processed after the
enrichment's sequential reference when the flag is set and no transaction has `PrevOut` data, and
the fetched block processed otherwise. Every interleaving of the enrichment ends with that
block, and some interleaving ends. -/
theorem getBlockReturns_iff {networkID : String} {enrichPrevOuts : Bool}
    {results : Nat → Nat → Except String Bitcoin.Transaction}
    {order : Nat → MapOrder DecimalEntry} {blk : Bitcoin.Block}
    {result : Except String (Option Types.Block)} :
    GetBlockReturns networkID enrichPrevOuts results order (.ok blk) result ↔
      result = .ok (processBlock networkID order (some
        (if enrichPrevOuts && !blockHasPrevOutData (some blk) then enrichSequentially results blk
        else blk))) := by
  simp only [GetBlockReturns]
  by_cases enriches : (enrichPrevOuts && !blockHasPrevOutData (some blk)) = true
  · simp only [if_pos enriches, enrichBlockWithPrevOuts_iff, exists_eq_left]
  · rw [if_neg enriches, if_neg enriches]

end MultichainIndexer.Indexer
