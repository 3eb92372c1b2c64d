import Mathlib.Logic.Relation
import Mathlib.Logic.Function.Basic
import MultichainIndexer.Bitcoin.Enrich

/-
Module: MultichainIndexer.Indexer.Bitcoin
Purpose: The block fetches of `internal/indexer/bitcoin.go`. `GetBlock` processes one block:
  the enrichment runs when no transaction has `PrevOut` data, then `processBlock` appends each
  transaction's transfers, with its fee, in block order. `GetBlocks` reserves a slice with
  `make`, which panics past the runtime's largest allocation, and builds the list of heights
  with a `uint64` loop, modelled with a fuel bound so that a loop that never stops is a result
  (`none` at every fuel). `GetBlocksByNumbers` is a worker pool: a producer goroutine
  feeding a bounded channel, `workers` goroutines draining it and writing result slots, and a
  context that may be cancelled at any moment. It is modelled as a step relation over the
  parties' states, so a run is any interleaving of their steps. The ghost fields record, per
  job index, which workers received the job and which writes its slot received.
Trusted boundary: `BlockResult`, `Error` and `ErrorType` are modelled from the spec; `GetBlock`
  is a call whose outcome every step may choose.
Main exports: uint64OfInt, blockHasPrevOutData, processTransactions, processBlock,
  GetBlockReturns, collectHeights, maxAlloc, makeSlicePanics, GetBlocksReturns, PoolState, PoolStep, poolStart, poolResult,
  GetBlocksByNumbersReturns
-/

namespace MultichainIndexer.Indexer

/-- Modelled from the spec: the error kinds of a `BlockResult`; the modelled code only sets
`ErrorTypeUnknown`. -/
inductive ErrorType where
  | unknown
deriving DecidableEq, Repr

/-- Modelled from the spec: the error record of a `BlockResult`. -/
structure Error where
  errorType : ErrorType
  message : String
deriving DecidableEq, Repr

/-- Modelled from the spec: `BlockResult {Number, Block, Error}`, over the block type `β` that
`GetBlock` returns. `none` is a nil pointer. -/
structure BlockResult (β : Type) where
  number : UInt64
  block : Option β
  error : Option Error
deriving DecidableEq, Repr

/-- The zero value `make([]BlockResult, n)` fills the slots with. -/
def BlockResult.zero {β : Type} : BlockResult β := ⟨0, none, none⟩

/-- The errors the fetch returns: `ctx.Err()`, or an error built from a message. -/
inductive CallError where
  | contextErr
  | message (text : String)
deriving DecidableEq, Repr

/-- The loop over the slots after `wg.Wait()`: the error of the first slot whose `Error` is set,
as `fmt.Errorf("block %d: %s", r.Number, r.Error.Message)`. -/
def firstError {β : Type} : List (BlockResult β) → Option CallError
  | [] => none
  | r :: rest =>
    match r.error with
    | some e => some (.message ("block " ++ toString r.number ++ ": " ++ e.message))
    | none => firstError rest

/-! ### `GetBlock` -/

/-- Go's conversion `uint64(n)` of an `int64`: `n` modulo `2^64`. -/
def uint64OfInt (n : Int) : UInt64 := UInt64.ofNat (n % 18446744073709551616).toNat

/-- `blockHasPrevOutData`: some transaction of a non-nil block has `PrevOut` data. -/
def blockHasPrevOutData : Option Bitcoin.Block → Bool
  | none => false
  | some blk => blk.tx.any (·.hasPrevOutData)

/-- The loop of `processBlock` from transaction `i` on: each transaction's fee, then its
transfers, appended in block order. The `range` inside `ExtractTransfers` draws its order afresh
for each transaction; `order i` is the one drawn for transaction `i`. -/
def processTransactions (networkID : String) (height time : UInt64)
    (order : Nat → MapOrder DecimalEntry) : Nat → List Bitcoin.Transaction → List Types.Transaction
  | _, [] => []
  | i, tx :: rest =>
    tx.extractTransfers networkID height time tx.calculateFee (order i) ++
      processTransactions networkID height time order (i + 1) rest

/-- `processBlock`, for the network id `GetNetworkId` returns. -/
def processBlock (networkID : String) (order : Nat → MapOrder DecimalEntry) :
    Option Bitcoin.Block → Option Types.Block
  | none => none
  | some blk =>
    some
      { number := uint64OfInt blk.height
        hash := blk.hash
        parentHash := blk.previousBlockHash
        timestamp := uint64OfInt blk.time
        transactions :=
          processTransactions networkID (uint64OfInt blk.height) (uint64OfInt blk.time) order 0
            blk.tx }

/-- `GetBlock` can return `result` once its failover attempt has `fetched` the block (from
`getblock` at verbosity 3, or from the fallback at verbosity 2) or the last error: with the
`enrichPrevOuts` flag set and no transaction with `PrevOut` data, the enrichment runs, and its
error is only logged; then the block is processed. -/
def GetBlockReturns (networkID : String) (enrichPrevOuts : Bool)
    (results : Nat → Nat → Except String Bitcoin.Transaction)
    (order : Nat → MapOrder DecimalEntry) (fetched : Except String Bitcoin.Block)
    (result : Except String (Option Types.Block)) : Prop :=
  match fetched with
  | .error err => result = .error err
  | .ok blk =>
    if enrichPrevOuts && !blockHasPrevOutData (some blk) then
      ∃ enriched, Bitcoin.EnrichBlockWithPrevOutsReturns results (some blk) enriched ∧
        result = .ok (processBlock networkID order (some (match enriched with
          | .ok enrichedBlock => enrichedBlock
          | .error _ => blk)))
    else result = .ok (processBlock networkID order (some blk))

/-! ### `GetBlocks` -/

/-- The loop `for n := from; n <= to; n++ { nums = append(nums, n) }` of `GetBlocks`, over
`uint64` counters, run for at most `fuel` iterations: `some nums` when the condition fails,
`none` when the fuel runs out first. -/
def collectHeights : Nat → UInt64 → UInt64 → List UInt64 → Option (List UInt64)
  | 0, _, _, _ => none
  | fuel + 1, n, toHeight, nums =>
    if n ≤ toHeight then collectHeights fuel (n + 1) toHeight (nums ++ [n]) else some nums

/-! ### `GetBlocksByNumbers` -/

/-- The local `job` struct sent on the channel. -/
structure Job where
  num : UInt64
  index : Nat
deriving DecidableEq, Repr

/-- What one `b.GetBlock(ctx, j.num)` call returned: a block pointer and an error, each possibly
nil. -/
structure Fetched (β : Type) where
  block : Option β
  err : Option String
deriving DecidableEq, Repr

/-- The slot a worker writes for a job and the outcome of its call. -/
def slotOf {β : Type} (job : Job) (fetched : Fetched β) : BlockResult β :=
  { number := job.num
    block := fetched.block
    error := fetched.err.map fun message => ⟨.unknown, message⟩ }

/-- `workers`: one per height, capped by a positive `Throttle.Concurrency`. -/
def poolSize (numsLength : Nat) (concurrency : Int) : Nat :=
  if concurrency > 0 ∧ (numsLength : Int) > concurrency then concurrency.toNat else numsLength

/-- A worker goroutine: blocked in `for j := range jobs`, running the call for a received job,
or gone after its range ended and `wg.Done()` ran. -/
inductive WorkerState where
  | receiving
  | fetching (job : Job)
  | exited
deriving DecidableEq, Repr

/-- The state of one `GetBlocksByNumbers` call: the context, the producer's loop index and
whether it has closed the channel, the channel's contents (oldest first), the workers, and the
`blocks` slice. `receivers` and `writes` are ghost: per job index, the workers that received the
job and the (worker, outcome) of every write to its slot. -/
structure PoolState (β : Type) where
  cancelled : Bool
  sent : Nat
  closed : Bool
  jobs : List Job
  workers : Nat → WorkerState
  blocks : List (BlockResult β)
  receivers : Nat → List Nat
  writes : Nat → List (Nat × Fetched β)

variable {β : Type}

/-- The atomic steps of a call on `nums` with `workers` workers and a channel of capacity
`workers*2`. -/
inductive PoolStep (nums : List UInt64) (workers : Nat) : PoolState β → PoolState β → Prop
  /-- The producer sends the next job; the channel has room. -/
  | send {s : PoolState β} (isOpen : s.closed = false) (more : s.sent < nums.length)
      (room : s.jobs.length < 2 * workers) :
      PoolStep nums workers s
        { s with sent := s.sent + 1, jobs := s.jobs ++ [⟨nums[s.sent], s.sent⟩] }
  /-- The producer returns and `defer close(jobs)` runs: it sent every job, or its `select`
  took the `ctx.Done()` case. -/
  | close {s : PoolState β} (isOpen : s.closed = false)
      (stop : s.sent = nums.length ∨ s.cancelled = true) :
      PoolStep nums workers s { s with closed := true }
  /-- An idle worker receives the oldest job. -/
  | receive {s : PoolState β} {w : Nat} {job : Job} {rest : List Job} (isWorker : w < workers)
      (idle : s.workers w = .receiving) (oldest : s.jobs = job :: rest) :
      PoolStep nums workers s
        { s with
          jobs := rest
          workers := Function.update s.workers w (.fetching job)
          receivers := Function.update s.receivers job.index (s.receivers job.index ++ [w]) }
  /-- A worker's `GetBlock` call returns `fetched`; it writes the job's slot and goes back to the
  channel. -/
  | complete {s : PoolState β} {w : Nat} {job : Job} (fetched : Fetched β)
      (isWorker : w < workers) (busy : s.workers w = .fetching job) :
      PoolStep nums workers s
        { s with
          blocks := s.blocks.set job.index (slotOf job fetched)
          workers := Function.update s.workers w .receiving
          writes := Function.update s.writes job.index (s.writes job.index ++ [(w, fetched)]) }
  /-- An idle worker finds the channel closed and drained: its range ends. -/
  | exit {s : PoolState β} {w : Nat} (isWorker : w < workers) (idle : s.workers w = .receiving)
      (drained : s.jobs = []) (isClosed : s.closed = true) :
      PoolStep nums workers s { s with workers := Function.update s.workers w .exited }
  /-- The context is cancelled, or its deadline passes. -/
  | cancel {s : PoolState β} : PoolStep nums workers s { s with cancelled := true }

/-- The state once the slice is made and the workers and the producer are started. -/
def poolStart (nums : List UInt64) : PoolState β :=
  { cancelled := false
    sent := 0
    closed := false
    jobs := []
    workers := fun _ => .receiving
    blocks := List.replicate nums.length .zero
    receivers := fun _ => []
    writes := fun _ => [] }

/-- What the call returns once `wg.Wait()` has returned: `nil, ctx.Err()` if the context is
done, else the slice and the first slot error. -/
def poolResult (s : PoolState β) : Option (List (BlockResult β)) × Option CallError :=
  if s.cancelled then (none, some .contextErr) else (some s.blocks, firstError s.blocks)

/-- `GetBlocksByNumbers` can return `result`: `nil, nil` for no heights; otherwise some
interleaving runs from the start until every worker has exited, and the call returns from
there. -/
def GetBlocksByNumbersReturns (concurrency : Int) (nums : List UInt64)
    (result : Option (List (BlockResult β)) × Option CallError) : Prop :=
  if nums = [] then result = (none, none)
  else
    ∃ s, Relation.ReflTransGen (PoolStep nums (poolSize nums.length concurrency)) (poolStart nums)
        s ∧
      (∀ w < poolSize nums.length concurrency, s.workers w = .exited) ∧ result = poolResult s

/-! ### `GetBlocks`, with its `make` -/

/-- `maxAlloc` of the Go runtime on a 64-bit platform (`heapAddrBits = 48`): the largest
allocation, in bytes, that `makeslice` accepts. -/
def maxAlloc : Nat := 2 ^ 48

/-- Whether `make([]uint64, 0, c)` panics with `"makeslice: cap out of range"`. The `uint64`
capacity is passed to `makeslice` as `int(c)`, which panics when `uintptr(int(c)) * 8` overflows
or exceeds `maxAlloc`, or when `int(c)` is below the length `0`; on a 64-bit platform each case
is `8 * c > maxAlloc`. -/
def makeSlicePanics (c : UInt64) : Bool := maxAlloc < 8 * c.toNat

/-- `GetBlocks` can return `result` when its loop stops within `fuel` iterations: an inverted
range is an error; otherwise `make([]uint64, 0, to-from+1)`, whose capacity wraps as a `uint64`,
either panics, and nothing is returned, or the loop runs and `GetBlocksByNumbers` runs on the
collected heights. -/
def GetBlocksReturns (concurrency : Int) (fuel : Nat) (fromHeight toHeight : UInt64)
    (result : Option (List (BlockResult β)) × Option CallError) : Prop :=
  if toHeight < fromHeight then result = (none, some (.message "invalid range"))
  else if makeSlicePanics (toHeight - fromHeight + 1) then False
  else
    ∃ nums, collectHeights fuel fromHeight toHeight [] = some nums ∧
      GetBlocksByNumbersReturns concurrency nums result

end MultichainIndexer.Indexer
