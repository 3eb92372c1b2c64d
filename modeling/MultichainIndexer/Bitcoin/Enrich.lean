import Mathlib.Logic.Relation
import Mathlib.Logic.Function.Basic
import MultichainIndexer.Bitcoin.Tx

/-
Module: MultichainIndexer.Bitcoin.Enrich
Purpose: `EnrichBlockWithPrevOuts` of the bitcoin RPC client. The main loop walks the block's
  transactions and starts one goroutine per transaction it does not skip; each goroutine takes
  a slot of a 10-slot semaphore, walks its transaction's inputs, calls `GetRawTransaction` for
  each input it does not skip, and writes the referenced output into the input's `PrevOut` in
  place. The call is modelled as a step relation over the main loop, the goroutines and the
  semaphore, so a run is any interleaving of their steps. The sequential reference is the same
  code with the goroutine bodies run inline, one transaction after another.
Trusted boundary: `GetRawTransaction` is a call whose result, a transaction or an error, is
  fixed per transaction index and input index by `results`.
Main exports: fetchedPrevOut, applyFetched, skipsInput, skipsTransaction, Block.modifyVin,
  EnrichTask, EnrichState, EnrichStep, enrichStart, EnrichBlockWithPrevOutsReturns,
  enrichSequentially
-/

namespace MultichainIndexer.Bitcoin

/-- The referenced output of a successful call, `prevTx.Vout[vin.Vout]` as a `PrevOut`, when
`int(vin.Vout) < len(prevTx.Vout)`. -/
def fetchedPrevOut (fetched : Except String Transaction) (vout : UInt32) : Option PrevOut :=
  match fetched with
  | .error _ => none
  | .ok prevTx =>
    if h : vout.toNat < prevTx.vout.length then
      some ⟨prevTx.vout[vout.toNat].value, prevTx.vout[vout.toNat].scriptPubKey⟩
    else none

/-- The loop body once the call has returned: `vin.PrevOut` is set to the referenced output, or
the input is left as it is (`continue` on an error, or an index out of range). -/
def applyFetched (fetched : Except String Transaction) (vin : Vin) : Vin :=
  match fetchedPrevOut fetched vin.vout with
  | some prevOut => { vin with prevOut := some prevOut }
  | none => vin

/-- `vin.Txid == "" || vin.Coinbase != ""`: the inputs the goroutine skips without a call. -/
def skipsInput (vin : Vin) : Bool := vin.txid == "" || vin.coinbase != ""

/-- The main loop's tests `tx.IsCoinbase()` and `tx.HasPrevOutData()`: the transactions it
starts no goroutine for. -/
def skipsTransaction (tx : Transaction) : Bool := tx.isCoinbase || tx.hasPrevOutData

/-- An assignment through `&block.Tx[i]` and `&transaction.Vin[j]`: input `j` of transaction `i`
replaced by `f` of itself. -/
def Block.modifyVin (block : Block) (i j : Nat) (f : Vin → Vin) : Block :=
  { block with tx := block.tx.modify (fun tx => { tx with vin := tx.vin.modify f j }) i }

/-! ### The concurrent call -/

/-- A goroutine started for one transaction. -/
inductive EnrichTask where
  /-- Blocked on `semaphore <- struct{}{}`. -/
  | acquiring
  /-- Holding a semaphore slot, at input `j` of its loop. -/
  | scanning (j : Nat)
  /-- Holding a semaphore slot, with its `GetRawTransaction` call for input `j` in flight. -/
  | calling (j : Nat)
  /-- It released its slot and `wg.Done()` ran. -/
  | done
deriving DecidableEq, Repr

/-- The state of one call: the shared block, the main loop's index, the goroutine started for
each transaction (`none` if none was), and the number of filled semaphore slots. -/
structure EnrichState where
  block : Block
  next : Nat
  tasks : Nat → Option EnrichTask
  held : Nat

/-- The capacity of `semaphore := make(chan struct{}, 10)`. -/
def semaphoreCapacity : Nat := 10

/-- The atomic steps of a call whose `GetRawTransaction` calls get `results i j` for input `j`
of transaction `i`. -/
inductive EnrichStep (results : Nat → Nat → Except String Transaction) :
    EnrichState → EnrichState → Prop
  /-- The main loop skips a coinbase transaction or one with `PrevOut` data. -/
  | skip {s : EnrichState} {tx : Transaction} (found : s.block.tx[s.next]? = some tx)
      (skips : skipsTransaction tx = true) :
      EnrichStep results s { s with next := s.next + 1 }
  /-- The main loop starts a goroutine for its transaction. -/
  | spawn {s : EnrichState} {tx : Transaction} (found : s.block.tx[s.next]? = some tx)
      (enriches : skipsTransaction tx = false) :
      EnrichStep results s
        { s with next := s.next + 1, tasks := Function.update s.tasks s.next (some .acquiring) }
  /-- A goroutine fills a free semaphore slot. -/
  | acquire {s : EnrichState} {i : Nat} (waiting : s.tasks i = some .acquiring)
      (room : s.held < semaphoreCapacity) :
      EnrichStep results s
        { s with held := s.held + 1, tasks := Function.update s.tasks i (some (.scanning 0)) }
  /-- A goroutine skips an input with no `Txid` or with a coinbase script. -/
  | skipInput {s : EnrichState} {i j : Nat} {tx : Transaction} {vin : Vin}
      (scanning : s.tasks i = some (.scanning j)) (found : s.block.tx[i]? = some tx)
      (input : tx.vin[j]? = some vin) (skips : skipsInput vin = true) :
      EnrichStep results s { s with tasks := Function.update s.tasks i (some (.scanning (j + 1))) }
  /-- A goroutine calls `GetRawTransaction` for an input. -/
  | call {s : EnrichState} {i j : Nat} {tx : Transaction} {vin : Vin}
      (scanning : s.tasks i = some (.scanning j)) (found : s.block.tx[i]? = some tx)
      (input : tx.vin[j]? = some vin) (fetches : skipsInput vin = false) :
      EnrichStep results s { s with tasks := Function.update s.tasks i (some (.calling j)) }
  /-- The call returns and the goroutine writes its result into the input. -/
  | answer {s : EnrichState} {i j : Nat} (calling : s.tasks i = some (.calling j)) :
      EnrichStep results s
        { s with
          block := s.block.modifyVin i j (applyFetched (results i j))
          tasks := Function.update s.tasks i (some (.scanning (j + 1))) }
  /-- A goroutine past its last input releases its slot and ends. -/
  | release {s : EnrichState} {i j : Nat} {tx : Transaction}
      (scanning : s.tasks i = some (.scanning j)) (found : s.block.tx[i]? = some tx)
      (finished : tx.vin.length ≤ j) :
      EnrichStep results s
        { s with held := s.held - 1, tasks := Function.update s.tasks i (some .done) }

/-- The state when the call is entered with a non-nil block. -/
def enrichStart (block : Block) : EnrichState :=
  { block := block, next := 0, tasks := fun _ => none, held := 0 }

/-- `EnrichBlockWithPrevOuts` can end with `result`, the error it returns or the block it
enriched in place: `"block is nil"` for a nil block; otherwise some interleaving runs until the
main loop has passed every transaction and `wg.Wait()` returns, every started goroutine done. -/
def EnrichBlockWithPrevOutsReturns (results : Nat → Nat → Except String Transaction) :
    Option Block → Except String Block → Prop
  | none, result => result = .error "block is nil"
  | some block, result =>
    ∃ s, Relation.ReflTransGen (EnrichStep results) (enrichStart block) s ∧
      s.next = block.tx.length ∧ (∀ i, s.tasks i = none ∨ s.tasks i = some .done) ∧
      result = .ok s.block

/-! ### The sequential reference -/

/-- The goroutine body's loop body for input `j` of transaction `i`, run inline on the block. -/
def enrichInputSequentially (results : Nat → Nat → Except String Transaction) (i : Nat)
    (block : Block) (j : Nat) : Block :=
  match block.tx[i]? with
  | some tx =>
    match tx.vin[j]? with
    | some vin => if skipsInput vin then block else block.modifyVin i j (applyFetched (results i j))
    | none => block
  | none => block

/-- The main loop's body for transaction `i` with the goroutine body run inline. -/
def enrichTransactionSequentially (results : Nat → Nat → Except String Transaction)
    (block : Block) (i : Nat) : Block :=
  match block.tx[i]? with
  | some tx =>
    if skipsTransaction tx then block
    else (List.range tx.vin.length).foldl (enrichInputSequentially results i) block
  | none => block

/-- The block enriched one transaction after another, in order, with the same call results. -/
def enrichSequentially (results : Nat → Nat → Except String Transaction) (block : Block) :
    Block :=
  (List.range block.tx.length).foldl (enrichTransactionSequentially results) block

end MultichainIndexer.Bitcoin
