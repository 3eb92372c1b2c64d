import MultichainIndexer.Bitcoin.Enrich

/-
Module: MultichainIndexer.Proofs.EnrichSequential
Purpose: Every interleaving of `EnrichBlockWithPrevOuts` ends with the block the sequential
  reference builds. Each goroutine writes only its own transaction, and each of its writes is
  fixed by the input's position, so the shared block is always the entry block with a prefix of
  each transaction's inputs put through the goroutine body (`enrichedUpTo`). One input step
  moves one prefix by one (`enrichedUpTo_skip`, `modifyVin_enrichedUpTo`); the concurrent steps
  (`EnrichInv.step`) and the sequential loops (`enrichSequentially_eq`) are both built from
  these two facts. At the end every transaction the main loop did not skip has all its inputs
  through the body (`enrichedBlock`).
Trusted boundary: none
Main exports: enrichInputsBelow, enrichedUpTo, enrichedBlock, EnrichInv, EnrichInv.run,
  enrichSequentially_eq, enrichBlockWithPrevOuts_sequential
-/

namespace MultichainIndexer.Bitcoin

open Relation

variable (results : Nat → Nat → Except String Transaction)

/-- Transaction `i` with its first `k` inputs put through the goroutine body. -/
def enrichInputsBelow (i k : Nat) (tx : Transaction) : Transaction :=
  { tx with
    vin := tx.vin.mapIdx fun j vin =>
      if j < k ∧ skipsInput vin = false then applyFetched (results i j) vin else vin }

/-- The block with the first `progress i` inputs of each transaction `i` through the goroutine
body. -/
def enrichedUpTo (block : Block) (progress : Nat → Nat) : Block :=
  { block with tx := block.tx.mapIdx fun i tx => enrichInputsBelow results i (progress i) tx }

/-- The block with every input of every transaction the main loop does not skip through the
goroutine body. -/
def enrichedBlock (block : Block) : Block :=
  { block with
    tx := block.tx.mapIdx fun i tx =>
      if skipsTransaction tx then tx else enrichInputsBelow results i tx.vin.length tx }

variable {results}

section Prefix

variable {block : Block} {progress : Nat → Nat} {i j k : Nat} {tx : Transaction} {vin : Vin}

@[simp] theorem enrichInputsBelow_vin_getElem? (tx : Transaction) (j : Nat) :
    (enrichInputsBelow results i k tx).vin[j]? = tx.vin[j]?.map fun vin =>
      if j < k ∧ skipsInput vin = false then applyFetched (results i j) vin else vin := by
  simp [enrichInputsBelow]

@[simp] theorem enrichInputsBelow_vin_length (tx : Transaction) :
    (enrichInputsBelow results i k tx).vin.length = tx.vin.length := by
  simp [enrichInputsBelow]

@[simp] theorem enrichedUpTo_tx_getElem? (block : Block) (i : Nat) :
    (enrichedUpTo results block progress).tx[i]? =
      block.tx[i]?.map (enrichInputsBelow results i (progress i)) := by
  simp [enrichedUpTo]

theorem mapIdx_keep {α : Type} (l : List α) : l.mapIdx (fun _ a => a) = l :=
  List.mapIdx_eq_iff.mpr fun _ => by simp

theorem enrichInputsBelow_zero (tx : Transaction) : enrichInputsBelow results i 0 tx = tx := by
  cases tx
  simp [enrichInputsBelow, mapIdx_keep]

theorem enrichedUpTo_zero (block : Block) : enrichedUpTo results block (fun _ => 0) = block := by
  cases block
  simp [enrichedUpTo, enrichInputsBelow_zero, mapIdx_keep]

/-- Two prefix maps that agree on every transaction of the block give the same block. -/
theorem enrichedUpTo_congr {progress' : Nat → Nat}
    (agree : ∀ i tx, block.tx[i]? = some tx →
      enrichInputsBelow results i (progress i) tx = enrichInputsBelow results i (progress' i) tx) :
    enrichedUpTo results block progress = enrichedUpTo results block progress' := by
  simp only [enrichedUpTo]
  congr 1
  exact List.mapIdx_eq_mapIdx_iff.mpr fun i inRange => agree i _ (List.getElem?_eq_getElem inRange)

/-- An input the body skips extends the prefix without changing the transaction. -/
theorem enrichInputsBelow_skip (input : tx.vin[j]? = some vin) (skips : skipsInput vin = true) :
    enrichInputsBelow results i (j + 1) tx = enrichInputsBelow results i j tx := by
  simp only [enrichInputsBelow]
  congr 1
  refine List.mapIdx_eq_mapIdx_iff.mpr fun j' inRange => ?_
  by_cases same : j' = j
  · subst same
    simp only [(List.getElem?_eq_some_iff.mp input).2, skips, Bool.true_eq_false, and_false,
      if_false]
  · have : j' < j + 1 ↔ j' < j := by omega
    simp only [this]

/-- An input the body does not skip: writing its call's result into it extends the prefix. -/
theorem enrichInputsBelow_call (input : tx.vin[j]? = some vin) (fetches : skipsInput vin = false) :
    enrichInputsBelow results i (j + 1) tx =
      { enrichInputsBelow results i j tx with
        vin := (enrichInputsBelow results i j tx).vin.modify (applyFetched (results i j)) j } := by
  simp only [enrichInputsBelow]
  congr 1
  refine List.ext_getElem? fun j' => ?_
  simp only [List.getElem?_modify, List.getElem?_mapIdx]
  by_cases same : j = j'
  · subst same
    simp only [input, fetches, Nat.lt_succ_self, lt_irrefl, true_and, false_and, if_true,
      if_false, Option.map_some', Option.map_eq_map]
  · have : j' < j + 1 ↔ j' < j := by omega
    cases tx.vin[j']? <;> simp [same, this]

/-- The block-level form of `enrichInputsBelow_skip`. -/
theorem enrichedUpTo_skip (now : progress i = j) (found : block.tx[i]? = some tx)
    (input : tx.vin[j]? = some vin) (skips : skipsInput vin = true) :
    enrichedUpTo results block (Function.update progress i (j + 1)) =
      enrichedUpTo results block progress :=
  enrichedUpTo_congr fun i' tx' found' => by
    by_cases same : i' = i
    · subst same
      obtain rfl : tx = tx' := Option.some_inj.mp (found.symm.trans found')
      simp [now, enrichInputsBelow_skip input skips]
    · simp [Function.update_noteq same]

/-- The block-level form of `enrichInputsBelow_call`: the write of a goroutine for its input `j`
moves its transaction's prefix from `j` to `j + 1`. -/
theorem modifyVin_enrichedUpTo (now : progress i = j) (found : block.tx[i]? = some tx)
    (input : tx.vin[j]? = some vin) (fetches : skipsInput vin = false) :
    (enrichedUpTo results block progress).modifyVin i j (applyFetched (results i j)) =
      enrichedUpTo results block (Function.update progress i (j + 1)) := by
  simp only [enrichedUpTo, Block.modifyVin]
  congr 1
  refine List.ext_getElem? fun i' => ?_
  simp only [List.getElem?_modify, List.getElem?_mapIdx]
  by_cases same : i = i'
  · subst same
    simp [found, now, enrichInputsBelow_call input fetches]
  · cases block.tx[i']? <;> simp [same, Function.update_noteq (Ne.symm same)]

end Prefix

/-! ### The sequential reference -/

section Sequential

/-- What the sequential main loop leaves of transaction `i`: no input through the body if it
skips the transaction, all of them otherwise. -/
def finalProgress (block : Block) (i : Nat) : Nat :=
  (block.tx[i]?.map fun tx => if skipsTransaction tx then 0 else tx.vin.length).getD 0

variable {block : Block} {progress : Nat → Nat} {i : Nat} {tx : Transaction}

/-- The goroutine body run inline over the first `k` inputs of transaction `i`. -/
theorem foldl_enrichInputSequentially (found : block.tx[i]? = some tx) (fresh : progress i = 0) :
    ∀ k ≤ tx.vin.length,
      (List.range k).foldl (enrichInputSequentially results i) (enrichedUpTo results block progress) =
        enrichedUpTo results block (Function.update progress i k)
  | 0, _ => by rw [List.range_zero, List.foldl_nil, Function.update_eq_self_iff.mpr fresh.symm]
  | k + 1, inRange => by
    obtain ⟨vin, input⟩ : ∃ vin, tx.vin[k]? = some vin :=
      ⟨tx.vin[k], List.getElem?_eq_getElem (by omega)⟩
    have now : Function.update progress i k i = k := Function.update_same _ _ _
    rw [List.range_succ, List.foldl_append,
      foldl_enrichInputSequentially found fresh k (by omega), List.foldl_cons, List.foldl_nil,
      enrichInputSequentially]
    cases skips : skipsInput vin <;>
      simp only [enrichedUpTo_tx_getElem?, found, Option.map_some', now,
        enrichInputsBelow_vin_getElem?, input, lt_irrefl, false_and, if_false, skips, if_true,
        Bool.false_eq_true]
    · rw [modifyVin_enrichedUpTo now found input skips, Function.update_idem]
    · rw [← enrichedUpTo_skip now found input skips, Function.update_idem]

/-- The main loop's body for a transaction no goroutine has touched. -/
theorem enrichTransactionSequentially_enrichedUpTo (found : block.tx[i]? = some tx)
    (fresh : progress i = 0) :
    enrichTransactionSequentially results (enrichedUpTo results block progress) i =
      enrichedUpTo results block
        (Function.update progress i (if skipsTransaction tx then 0 else tx.vin.length)) := by
  unfold enrichTransactionSequentially
  cases skips : skipsTransaction tx
  · simp only [enrichedUpTo_tx_getElem?, found, fresh, Option.map_some', enrichInputsBelow_zero,
      skips, if_false, Bool.false_eq_true]
    exact foldl_enrichInputSequentially found fresh _ le_rfl
  · simp only [enrichedUpTo_tx_getElem?, found, fresh, Option.map_some', enrichInputsBelow_zero,
      skips, if_true]
    rw [Function.update_eq_self_iff.mpr fresh.symm]

/-- The prefix map once the main loop has passed the first `k` transactions. -/
def passedProgress (block : Block) (k i : Nat) : Nat :=
  if i < k then finalProgress block i else 0

theorem passedProgress_zero (block : Block) : passedProgress block 0 = fun _ => 0 :=
  funext fun i => if_neg (Nat.not_lt_zero i)

theorem passedProgress_self (block : Block) (k : Nat) : passedProgress block k k = 0 :=
  if_neg (lt_irrefl k)

theorem update_passedProgress_self (block : Block) (k : Nat) :
    Function.update (passedProgress block k) k 0 = passedProgress block k :=
  Function.update_eq_self_iff.mpr (passedProgress_self block k).symm

/-- Passing transaction `k` sets its prefix to what the main loop leaves of it. -/
theorem passedProgress_succ {k : Nat} (found : block.tx[k]? = some tx) :
    passedProgress block (k + 1) =
      Function.update (passedProgress block k) k
        (if skipsTransaction tx then 0 else tx.vin.length) := by
  funext i
  by_cases same : i = k
  · subst same
    simp only [passedProgress, Function.update_same, Nat.lt_succ_self, if_true, finalProgress,
      found, Option.map_some', Option.getD_some]
  · have : i < k + 1 ↔ i < k := by omega
    simp only [passedProgress, Function.update_noteq same, this]

/-- Past every transaction, the prefix map gives `enrichedBlock`. -/
theorem enrichedUpTo_passedProgress (block : Block) :
    enrichedUpTo results block (passedProgress block block.tx.length) =
      enrichedBlock results block := by
  rw [enrichedBlock, enrichedUpTo]
  congr 1
  refine List.mapIdx_eq_mapIdx_iff.mpr fun i inRange => ?_
  cases skips : skipsTransaction block.tx[i] <;>
    simp [inRange, passedProgress, finalProgress, skips, enrichInputsBelow_zero]

/-- The sequential main loop over the first `k` transactions. -/
theorem foldl_enrichTransactionSequentially (block : Block) :
    ∀ k ≤ block.tx.length,
      (List.range k).foldl (enrichTransactionSequentially results) block =
        enrichedUpTo results block (passedProgress block k)
  | 0, _ => by rw [List.range_zero, List.foldl_nil, passedProgress_zero, enrichedUpTo_zero]
  | k + 1, inRange => by
    obtain ⟨tx, found⟩ : ∃ tx, block.tx[k]? = some tx :=
      ⟨block.tx[k], List.getElem?_eq_getElem (by omega)⟩
    rw [List.range_succ, List.foldl_append, foldl_enrichTransactionSequentially block k (by omega),
      List.foldl_cons, List.foldl_nil,
      enrichTransactionSequentially_enrichedUpTo found (passedProgress_self block k),
      passedProgress_succ found]

/-- The closed form of the sequential reference. -/
theorem enrichSequentially_eq (block : Block) :
    enrichSequentially results block = enrichedBlock results block := by
  rw [enrichSequentially, foldl_enrichTransactionSequentially block _ le_rfl,
    enrichedUpTo_passedProgress]

end Sequential

/-! ### Every interleaving -/

section Concurrent

/-- How far the goroutine of a transaction, in state `task`, has come through its inputs: `k`
of them are through the body. A goroutine with a call in flight is at an input the body does not
skip. -/
def TaskProgress (tx : Transaction) : Option EnrichTask → Nat → Prop
  | none, k => k = 0
  | some .acquiring, k => k = 0
  | some (.scanning j), k => k = j ∧ j ≤ tx.vin.length
  | some (.calling j), k => k = j ∧ ∃ vin, tx.vin[j]? = some vin ∧ skipsInput vin = false
  | some .done, k => k = tx.vin.length

/-- The invariant of a call on `block`. -/
structure EnrichInv (results : Nat → Nat → Except String Transaction) (block : Block)
    (s : EnrichState) : Prop where
  next_le : s.next ≤ block.tx.length
  /-- The shared block is the entry block with a prefix of each transaction's inputs through
  the goroutine body, as long as its goroutine has come. -/
  shared : ∃ progress, s.block = enrichedUpTo results block progress ∧
    ∀ i tx, block.tx[i]? = some tx → TaskProgress tx (s.tasks i) (progress i)
  started : ∀ i, s.tasks i ≠ none →
    i < s.next ∧ ∃ tx, block.tx[i]? = some tx ∧ skipsTransaction tx = false
  passed : ∀ i < s.next, s.tasks i = none →
    ∃ tx, block.tx[i]? = some tx ∧ skipsTransaction tx = true

variable {block : Block} {s : EnrichState}

theorem enrichInv_start : EnrichInv results block (enrichStart block) where
  next_le := Nat.zero_le _
  shared := ⟨fun _ => 0, (enrichedUpTo_zero block).symm, fun _ _ _ => rfl⟩
  started _ idle := absurd rfl idle
  passed _ before := absurd before (Nat.not_lt_zero _)

/-- The transaction the main loop reads at its index is the entry one: no goroutine has touched
it. -/
theorem EnrichInv.next_found (inv : EnrichInv results block s) {tx : Transaction}
    (found : s.block.tx[s.next]? = some tx) :
    block.tx[s.next]? = some tx ∧ s.tasks s.next = none := by
  obtain ⟨progress, shared, tasks⟩ := inv.shared
  have idle : s.tasks s.next = none := by
    by_contra started
    exact lt_irrefl _ (inv.started _ started).1
  rw [shared, enrichedUpTo_tx_getElem?] at found
  obtain ⟨tx₀, found₀, rfl⟩ := Option.map_eq_some'.mp found
  have fresh : progress s.next = 0 := by simpa [idle, TaskProgress] using tasks _ _ found₀
  exact ⟨by rw [found₀, fresh, enrichInputsBelow_zero], idle⟩

/-- What a goroutine whose transaction has `j` inputs through the body reads: the entry
transaction's input `j`, and as many inputs. -/
theorem current_of_progress {progress : Nat → Nat} {i j : Nat} {tx : Transaction}
    (now : progress i = j) (found : (enrichedUpTo results block progress).tx[i]? = some tx) :
    ∃ tx₀, block.tx[i]? = some tx₀ ∧ tx.vin[j]? = tx₀.vin[j]? ∧
      tx.vin.length = tx₀.vin.length := by
  rw [enrichedUpTo_tx_getElem?] at found
  obtain ⟨tx₀, found₀, rfl⟩ := Option.map_eq_some'.mp found
  exact ⟨tx₀, found₀, by simp [now], by simp⟩

/-- A started goroutine that changes state keeps the started and passed transactions. -/
theorem EnrichInv.update_started (inv : EnrichInv results block s) (i : Nat)
    (task : EnrichTask) (active : s.tasks i ≠ none) :
    (∀ i', Function.update s.tasks i (some task) i' ≠ none →
        i' < s.next ∧ ∃ tx, block.tx[i']? = some tx ∧ skipsTransaction tx = false) ∧
      ∀ i' < s.next, Function.update s.tasks i (some task) i' = none →
        ∃ tx, block.tx[i']? = some tx ∧ skipsTransaction tx = true := by
  refine ⟨fun i' started => ?_, fun i' before idle => ?_⟩ <;> by_cases same : i' = i
  · exact same ▸ inv.started i active
  · exact inv.started i' (by rwa [Function.update_noteq same] at started)
  · subst same
    simp at idle
  · exact inv.passed i' before (by rwa [Function.update_noteq same] at idle)

/-- A goroutine that changes state without writing keeps the invariant, when its new state
allows the progress its old state had. -/
theorem EnrichInv.retask (inv : EnrichInv results block s) {i : Nat} {task task' : EnrichTask}
    (current : s.tasks i = some task)
    (keeps : ∀ tx k, block.tx[i]? = some tx → TaskProgress tx (some task) k →
      TaskProgress tx (some task') k) (held : Nat) :
    EnrichInv results block
      { s with held := held, tasks := Function.update s.tasks i (some task') } := by
  obtain ⟨progress, shared, tasks⟩ := inv.shared
  obtain ⟨started, passed⟩ := inv.update_started i task' (by simp [current])
  refine ⟨inv.next_le, ⟨progress, shared, fun i' tx found => ?_⟩, started, passed⟩
  by_cases same : i' = i
  · subst same
    simp only [Function.update_same]
    exact keeps tx _ found (current ▸ tasks i' tx found)
  · simp only [Function.update_noteq same]
    exact tasks i' tx found

/-- A goroutine at an input of its transaction that moves to the next input, with the shared
block extended by that input, keeps the invariant. -/
theorem EnrichInv.advance (inv : EnrichInv results block s) {i j : Nat} {tx₀ : Transaction}
    {vin : Vin} {progress : Nat → Nat} (active : s.tasks i ≠ none)
    (tasks : ∀ i tx, block.tx[i]? = some tx → TaskProgress tx (s.tasks i) (progress i))
    (found₀ : block.tx[i]? = some tx₀) (input₀ : tx₀.vin[j]? = some vin) {block' : Block}
    (shared : block' = enrichedUpTo results block (Function.update progress i (j + 1))) :
    EnrichInv results block
      { s with block := block', tasks := Function.update s.tasks i (some (.scanning (j + 1))) } := by
  obtain ⟨started, passed⟩ := inv.update_started i (.scanning (j + 1)) active
  refine ⟨inv.next_le, ⟨_, shared, fun i' tx found => ?_⟩, started, passed⟩
  by_cases same : i' = i
  · subst same
    obtain rfl : tx₀ = tx := Option.some_inj.mp (found₀.symm.trans found)
    simpa [TaskProgress] using (List.getElem?_eq_some_iff.mp input₀).1
  · simpa [Function.update_noteq same] using tasks i' tx found

theorem EnrichInv.skip (inv : EnrichInv results block s) {tx : Transaction}
    (found : s.block.tx[s.next]? = some tx) (skips : skipsTransaction tx = true) :
    EnrichInv results block { s with next := s.next + 1 } := by
  obtain ⟨found₀, -⟩ := inv.next_found found
  refine ⟨(List.getElem?_eq_some_iff.mp found₀).1, inv.shared,
    fun i started => ?_, fun i before idle => ?_⟩
  · exact ⟨Nat.lt_succ_of_lt (inv.started i started).1, (inv.started i started).2⟩
  · rcases Nat.lt_succ_iff_lt_or_eq.mp before with before | rfl
    · exact inv.passed i before idle
    · exact ⟨tx, found₀, skips⟩

theorem EnrichInv.spawn (inv : EnrichInv results block s) {tx : Transaction}
    (found : s.block.tx[s.next]? = some tx) (enriches : skipsTransaction tx = false) :
    EnrichInv results block
      { s with next := s.next + 1, tasks := Function.update s.tasks s.next (some .acquiring) } := by
  obtain ⟨found₀, idle⟩ := inv.next_found found
  obtain ⟨progress, shared, tasks⟩ := inv.shared
  refine ⟨(List.getElem?_eq_some_iff.mp found₀).1, ⟨progress, shared, fun i tx' found' => ?_⟩,
    fun i (started : Function.update s.tasks s.next (some .acquiring) i ≠ none) => ?_,
    fun i (before : i < s.next + 1)
      (idle' : Function.update s.tasks s.next (some .acquiring) i = none) => ?_⟩ <;>
    by_cases same : i = s.next
  · subst same
    simpa [idle, TaskProgress] using tasks _ _ found'
  · simpa [Function.update_noteq same] using tasks i tx' found'
  · subst same
    exact ⟨Nat.lt_succ_self _, tx, found₀, enriches⟩
  · rw [Function.update_noteq same] at started
    exact ⟨Nat.lt_succ_of_lt (inv.started i started).1, (inv.started i started).2⟩
  · subst same
    simp at idle'
  · rw [Function.update_noteq same] at idle'
    exact inv.passed i (by omega) idle'

/-- A goroutine at input `j` of its transaction reads the entry transaction's input `j` and as
many inputs, and has `j` inputs through the body. -/
theorem EnrichInv.scanning_reads (inv : EnrichInv results block s) {i j : Nat}
    {tx : Transaction} (scanning : s.tasks i = some (.scanning j))
    (found : s.block.tx[i]? = some tx) :
    ∃ progress tx₀, s.block = enrichedUpTo results block progress ∧
      (∀ i tx, block.tx[i]? = some tx → TaskProgress tx (s.tasks i) (progress i)) ∧
      progress i = j ∧ block.tx[i]? = some tx₀ ∧ tx.vin[j]? = tx₀.vin[j]? ∧
      tx.vin.length = tx₀.vin.length := by
  obtain ⟨progress, shared, tasks⟩ := inv.shared
  obtain ⟨-, tx₀, found₀, -⟩ := inv.started i (by simp [scanning])
  obtain ⟨now, -⟩ : progress i = j ∧ j ≤ tx₀.vin.length := by
    simpa [scanning, TaskProgress] using tasks i _ found₀
  obtain ⟨tx₀', found₀', input, length⟩ := current_of_progress now (shared ▸ found)
  obtain rfl := Option.some_inj.mp (found₀.symm.trans found₀')
  exact ⟨progress, tx₀, shared, tasks, now, found₀, input, length⟩

theorem EnrichInv.step {s' : EnrichState} (inv : EnrichInv results block s)
    (step : EnrichStep results s s') : EnrichInv results block s' := by
  cases step with
  | skip found skips => exact inv.skip found skips
  | spawn found enriches => exact inv.spawn found enriches
  | acquire waiting _ =>
    exact inv.retask waiting (fun _ _ _ fresh => by simp_all [TaskProgress]) _
  | skipInput scanning found input skips =>
    obtain ⟨progress, tx₀, shared, tasks, now, found₀, same, -⟩ := inv.scanning_reads scanning found
    rw [input] at same
    exact inv.advance (by simp [scanning]) tasks found₀ same.symm
      (shared.trans (enrichedUpTo_skip now found₀ same.symm skips).symm)
  | call scanning found input fetches =>
    obtain ⟨-, tx₀, -, -, -, found₀, same, -⟩ := inv.scanning_reads scanning found
    refine inv.retask scanning (fun tx k found' progress => ?_) _
    obtain rfl := Option.some_inj.mp (found₀.symm.trans found')
    exact ⟨progress.1, _, by rw [← same, input], fetches⟩
  | @answer i j calling =>
    obtain ⟨progress, shared, tasks⟩ := inv.shared
    obtain ⟨-, tx₀, found₀, -⟩ := inv.started i (by simp [calling])
    obtain ⟨now, vin, input₀, fetches⟩ : progress i = j ∧ ∃ vin, tx₀.vin[j]? = some vin ∧
        skipsInput vin = false := by
      simpa [calling, TaskProgress] using tasks i _ found₀
    exact inv.advance (by simp [calling]) tasks found₀ input₀
      (by rw [shared, modifyVin_enrichedUpTo now found₀ input₀ fetches])
  | release scanning found finished =>
    obtain ⟨-, tx₀, -, -, -, found₀, -, length⟩ := inv.scanning_reads scanning found
    refine inv.retask scanning (fun tx k found' progress => ?_) _
    obtain rfl := Option.some_inj.mp (found₀.symm.trans found')
    simp only [TaskProgress] at progress ⊢
    omega

/-- The invariant holds in every state a run of the call reaches. -/
theorem EnrichInv.run {s : EnrichState}
    (run : ReflTransGen (EnrichStep results) (enrichStart block) s) : EnrichInv results block s := by
  induction run with
  | refl => exact enrichInv_start
  | tail _ step inv => exact inv.step step

/-- Once the main loop has passed every transaction and every started goroutine is done, the
shared block is `enrichedBlock`. -/
theorem EnrichInv.block_eq (inv : EnrichInv results block s) (returned : s.next = block.tx.length)
    (joined : ∀ i, s.tasks i = none ∨ s.tasks i = some .done) :
    s.block = enrichedBlock results block := by
  obtain ⟨progress, shared, tasks⟩ := inv.shared
  rw [shared, enrichedBlock, enrichedUpTo]
  congr 1
  refine List.mapIdx_eq_mapIdx_iff.mpr fun i inRange => ?_
  have found := List.getElem?_eq_getElem inRange
  rcases joined i with idle | finished
  · obtain ⟨tx, found', skips⟩ := inv.passed i (returned ▸ inRange) idle
    obtain rfl := Option.some_inj.mp (found.symm.trans found')
    have fresh : progress i = 0 := by simpa [idle, TaskProgress] using tasks i _ found
    simp [skips, fresh, enrichInputsBelow_zero]
  · obtain ⟨-, tx, found', enriches⟩ := inv.started i (by simp [finished])
    obtain rfl := Option.some_inj.mp (found.symm.trans found')
    have all : progress i = block.tx[i].vin.length := by
      simpa [finished, TaskProgress] using tasks i _ found
    simp [enriches, all]

end Concurrent

/-! ### The conditions spelled out -/

theorem skipsInput_eq_false_iff (vin : Vin) :
    skipsInput vin = false ↔ vin.txid ≠ "" ∧ vin.coinbase = "" := by
  simp [skipsInput]

theorem skipsTransaction_eq_false_iff (tx : Transaction) :
    skipsTransaction tx = false ↔ tx.isCoinbase = false ∧ ∀ v ∈ tx.vin, v.prevOut = none := by
  cases coinbase : tx.isCoinbase <;>
    simp [skipsTransaction, Transaction.hasPrevOutData, coinbase, Option.isSome_iff_ne_none]

theorem applyFetched_eq (fetched : Except String Transaction) (vin : Vin) :
    applyFetched fetched vin =
      match fetched with
      | .ok prevTx =>
        if h : vin.vout.toNat < prevTx.vout.length then
          { vin with
            prevOut := some ⟨prevTx.vout[vin.vout.toNat].value,
              prevTx.vout[vin.vout.toNat].scriptPubKey⟩ }
        else vin
      | .error _ => vin := by
  cases fetched with
  | error => rfl
  | ok prevTx =>
    by_cases inRange : vin.vout.toNat < prevTx.vout.length <;>
      simp [applyFetched, fetchedPrevOut, inRange]

/-- For every block, every result of each `GetRawTransaction` call, and every interleaving of
the main loop and the goroutines: when `EnrichBlockWithPrevOuts` returns, the block is the one
the sequential reference builds with the same call results. Input `j` of transaction `i` gets
the `PrevOut` of the referenced output exactly when the transaction is not a coinbase, none of
its inputs had a `PrevOut` on entry, the input has a `Txid` and no coinbase script, the call
succeeded and the index is in range; every other field, and the number and order of the
transactions and inputs, is unchanged. -/
theorem enrichBlockWithPrevOuts_sequential {block : Block} {result : Except String Block}
    (returns : EnrichBlockWithPrevOutsReturns results (some block) result) :
    result = .ok (enrichSequentially results block) ∧
      result = .ok
        { block with
          tx := block.tx.mapIdx fun i tx =>
            { tx with
              vin := tx.vin.mapIdx fun j vin =>
                if tx.isCoinbase = false ∧ (∀ v ∈ tx.vin, v.prevOut = none) ∧
                    vin.txid ≠ "" ∧ vin.coinbase = "" then
                  match results i j with
                  | .ok prevTx =>
                    if h : vin.vout.toNat < prevTx.vout.length then
                      { vin with
                        prevOut := some ⟨prevTx.vout[vin.vout.toNat].value,
                          prevTx.vout[vin.vout.toNat].scriptPubKey⟩ }
                    else vin
                  | .error _ => vin
                else vin } } := by
  obtain ⟨s, run, returned, joined, rfl⟩ := returns
  rw [(EnrichInv.run run).block_eq returned joined, enrichSequentially_eq]
  refine ⟨rfl, ?_⟩
  simp only [enrichedBlock, Except.ok.injEq]
  congr 1
  refine List.mapIdx_eq_mapIdx_iff.mpr fun i _ => ?_
  cases skips : skipsTransaction block.tx[i]
  · obtain ⟨regular, unresolved⟩ := (skipsTransaction_eq_false_iff _).mp skips
    have unresolved : (∀ v ∈ block.tx[i].vin, v.prevOut = none) = True := eq_true unresolved
    simp only [skips, regular, unresolved, Bool.false_eq_true, if_false, enrichInputsBelow,
      true_and, ← skipsInput_eq_false_iff, ← applyFetched_eq]
    congr 1
    exact List.mapIdx_eq_mapIdx_iff.mpr fun j inRange => by simp [inRange]
  · have keeps : ∀ vin : Vin, ¬ (block.tx[i].isCoinbase = false ∧
        (∀ v ∈ block.tx[i].vin, v.prevOut = none) ∧ vin.txid ≠ "" ∧ vin.coinbase = "") :=
      fun _ ⟨regular, unresolved, _⟩ => by
        simp [(skipsTransaction_eq_false_iff _).mpr ⟨regular, unresolved⟩] at skips
    simp only [skips, if_true, keeps, if_false, mapIdx_keep]

/-- A block with one spend of output 0 of a transaction whose output 0 pays two to `A`. -/
def oneSpendBlock : Block :=
  { hash := "b", height := 1, time := 0, previousBlockHash := "a",
    tx := [{ txid := "t"
             vin := [{ txid := "p", vout := 0, coinbase := "", prevOut := none }]
             vout := [] }] }

/-- The node's answer to every call: the transaction `p`. -/
def paysTwoToA : Nat → Nat → Except String Transaction :=
  fun _ _ => .ok { txid := "p", vin := [], vout := [⟨⟨2⟩, ⟨"A", []⟩⟩] }

/-- `oneSpendBlock` with its input's `PrevOut` set to output 0 of `p`. -/
def oneSpendBlockEnriched : Block :=
  { oneSpendBlock with
    tx := [{ txid := "t"
             vin := [{ txid := "p", vout := 0, coinbase := "", prevOut := some ⟨⟨2⟩, ⟨"A", []⟩⟩ }]
             vout := [] }] }

theorem oneSpendBlock_enriched :
    EnrichBlockWithPrevOutsReturns paysTwoToA (some oneSpendBlock) (.ok oneSpendBlockEnriched) ∧
      (.ok oneSpendBlockEnriched : Except String Block) =
        .ok (enrichSequentially paysTwoToA oneSpendBlock) ∧
      (.ok oneSpendBlockEnriched : Except String Block) =
        .ok
          { oneSpendBlock with
            tx := oneSpendBlock.tx.mapIdx fun i tx =>
              { tx with
                vin := tx.vin.mapIdx fun j vin =>
                  if tx.isCoinbase = false ∧ (∀ v ∈ tx.vin, v.prevOut = none) ∧
                      vin.txid ≠ "" ∧ vin.coinbase = "" then
                    match paysTwoToA i j with
                    | .ok prevTx =>
                      if h : vin.vout.toNat < prevTx.vout.length then
                        { vin with
                          prevOut := some ⟨prevTx.vout[vin.vout.toNat].value,
                            prevTx.vout[vin.vout.toNat].scriptPubKey⟩ }
                      else vin
                    | .error _ => vin
                  else vin } } := by
  have start : ReflTransGen (EnrichStep paysTwoToA) (enrichStart oneSpendBlock)
      (enrichStart oneSpendBlock) := ReflTransGen.refl
  have run := ((((start.tail (EnrichStep.spawn rfl (by decide))).tail
    (@EnrichStep.acquire _ _ 0 rfl (by decide))).tail
    (@EnrichStep.call _ _ 0 0 _ _ rfl rfl rfl (by decide))).tail
    (@EnrichStep.answer _ _ 0 0 rfl)).tail (@EnrichStep.release _ _ 0 1 _ rfl rfl (by decide))
  have returns : EnrichBlockWithPrevOutsReturns paysTwoToA (some oneSpendBlock)
      (.ok oneSpendBlockEnriched) :=
    ⟨_, run, rfl, fun i => by
      by_cases first : i = 0
      · subst first
        exact .inr rfl
      · exact .inl (by simp [Function.update_apply, first, enrichStart]), rfl⟩
  exact ⟨returns, enrichBlockWithPrevOuts_sequential returns⟩

end MultichainIndexer.Bitcoin
