import MultichainIndexer.Proofs.EnrichProgress
import MultichainIndexer.Proofs.EnrichSemaphore

/-
Module: MultichainIndexer.Proofs.EnrichCompletion
Purpose: `EnrichBlockWithPrevOuts` never deadlocks on its semaphore. From every state some
  interleaving reaches, the main loop and the goroutines can go on until the main loop has
  passed every transaction and every started goroutine is done, so `wg.Wait()` returns, and the
  block is then the sequential reference's (`enrichBlockWithPrevOuts_completes`). The
  continuation first runs every goroutine that holds a slot to its release (`releaseAll_reach`,
  on the number of filled slots), then lets the main loop pass the remaining transactions
  (`mainLoop_reach`), and last runs each waiting goroutine alone through the empty semaphore
  (`acquirers_reach`). Along the way, every reachable state has written exactly a prefix of each
  transaction's inputs (`enrichBlockWithPrevOuts_writes_prefix`).
Trusted boundary: none
Main exports: EnrichInv.reach, SemaphoreInv.reach, holdingBelow_eq_zero_iff, EnrichInv.finish_reach,
  EnrichInv.release_reach, releaseAll_reach, mainLoop_reach, acquirers_reach,
  enrichBlockWithPrevOuts_completes, enrichBlockWithPrevOuts_writes_prefix
-/

namespace MultichainIndexer.Bitcoin

open Relation

variable {results : Nat → Nat → Except String Transaction} {block : Block}

theorem EnrichInv.reach {s s' : EnrichState} (inv : EnrichInv results block s)
    (steps : ReflTransGen (EnrichStep results) s s') : EnrichInv results block s' := by
  induction steps with
  | refl => exact inv
  | tail _ step ih => exact ih.step step

theorem SemaphoreInv.reach {s s' : EnrichState} (inv : SemaphoreInv s)
    (steps : ReflTransGen (EnrichStep results) s s') : SemaphoreInv s' := by
  induction steps with
  | refl => exact inv
  | tail _ step ih => exact ih.step step

/-- No slot is counted exactly when no goroutine of the first `n` transactions holds one. -/
theorem holdingBelow_eq_zero_iff {tasks : Nat → Option EnrichTask} :
    ∀ n, holdingBelow tasks n = 0 ↔ ∀ i < n, holdsSlot (tasks i) = false
  | 0 => by simp [holdingBelow]
  | n + 1 => by
    rw [holdingBelow, Nat.add_eq_zero, holdingBelow_eq_zero_iff n, Nat.forall_lt_succ_right]
    cases holdsSlot (tasks n) <;> simp

section Run

variable {s : EnrichState}

/-- A goroutine at input `j` runs alone through its remaining inputs and releases its slot. -/
theorem EnrichInv.finish_reach (inv : EnrichInv results block s) {i j : Nat}
    (scanning : s.tasks i = some (.scanning j)) :
    ∃ s', ReflTransGen (EnrichStep results) s s' ∧ s'.next = s.next ∧ s'.held = s.held - 1 ∧
      s'.tasks = Function.update s.tasks i (some .done) := by
  obtain ⟨progress, shared, tasks⟩ := inv.shared
  obtain ⟨-, tx, found, -⟩ := inv.started i (by simp [scanning])
  obtain ⟨now, within⟩ : progress i = j ∧ j ≤ tx.vin.length := by
    simpa [scanning, TaskProgress] using tasks i _ found
  obtain ⟨s', inputs, next, held, tasks', shared'⟩ :=
    enrichInputs_reach progress found (tx.vin.length - j) j s (by omega) scanning
      (by rw [← now, Function.update_eq_self]; exact shared)
  have last : s'.tasks i = some (.scanning tx.vin.length) := by
    rw [tasks']
    exact Function.update_same _ _ _
  have enriched : s'.block.tx[i]? = some (enrichInputsBelow results i tx.vin.length tx) := by
    simp [shared', found]
  refine ⟨_, inputs.tail (.release last enriched (enrichInputsBelow_vin_length tx).le), next,
    congrArg (· - 1) held, ?_⟩
  show Function.update s'.tasks i (some .done) = _
  rw [tasks', Function.update_idem]

/-- A goroutine that holds a slot, walking its inputs or waiting on a call, runs to its
release. -/
theorem EnrichInv.release_reach (inv : EnrichInv results block s) {i : Nat}
    (holding : holdsSlot (s.tasks i) = true) :
    ∃ s', ReflTransGen (EnrichStep results) s s' ∧ s'.next = s.next ∧ s'.held = s.held - 1 ∧
      s'.tasks = Function.update s.tasks i (some .done) := by
  match current : s.tasks i with
  | some (.scanning j) => exact inv.finish_reach current
  | some (.calling j) =>
    have answered : EnrichStep results s _ := .answer current
    obtain ⟨s', steps, next, held, tasks⟩ :=
      (inv.step answered).finish_reach (Function.update_same _ _ _)
    exact ⟨s', .head answered steps, next, held, by rw [tasks, Function.update_idem]⟩
  | none | some .acquiring | some .done => simp [current, holdsSlot] at holding

end Run

/-- The goroutines that hold a slot run to their releases, one after another, until the
semaphore is empty. -/
theorem releaseAll_reach : ∀ n (s : EnrichState), s.held = n → EnrichInv results block s →
    SemaphoreInv s →
      ∃ s', ReflTransGen (EnrichStep results) s s' ∧ s'.next = s.next ∧ s'.held = 0
  | 0, s, empty, _, _ => ⟨s, .refl, rfl, empty⟩
  | n + 1, s, held, inv, sem => by
    obtain ⟨i, -, holding⟩ : ∃ i < s.next, holdsSlot (s.tasks i) = true := by
      by_contra free
      have := (holdingBelow_eq_zero_iff s.next).mpr fun i below =>
        Bool.eq_false_iff.mpr fun holding => free ⟨i, below, holding⟩
      have := sem.held_eq
      omega
    obtain ⟨s1, steps1, next1, held1, -⟩ := inv.release_reach holding
    obtain ⟨s2, steps2, next2, held2⟩ :=
      releaseAll_reach n s1 (by omega) (inv.reach steps1) (sem.reach steps1)
    exact ⟨s2, steps1.trans steps2, next2.trans next1, held2⟩

/-- The main loop passes every remaining transaction, skipping it or starting its goroutine. -/
theorem mainLoop_reach : ∀ m (s : EnrichState), block.tx.length - s.next = m →
    EnrichInv results block s →
      ∃ s', ReflTransGen (EnrichStep results) s s' ∧ s'.next = block.tx.length ∧
        s'.held = s.held
  | 0, s, passed, inv => ⟨s, .refl, by have := inv.next_le; omega, rfl⟩
  | m + 1, s, left, inv => by
    obtain ⟨progress, shared, -⟩ := inv.shared
    obtain ⟨tx, found⟩ : ∃ tx, s.block.tx[s.next]? = some tx :=
      ⟨_, by rw [shared, enrichedUpTo_tx_getElem?, List.getElem?_eq_getElem (by omega)]; rfl⟩
    obtain ⟨s1, step, next1, held1⟩ :
        ∃ s1, EnrichStep results s s1 ∧ s1.next = s.next + 1 ∧ s1.held = s.held := by
      cases skips : skipsTransaction tx
      · exact ⟨_, .spawn found skips, rfl, rfl⟩
      · exact ⟨_, .skip found skips, rfl, rfl⟩
    obtain ⟨s2, steps2, next2, held2⟩ := mainLoop_reach m s1 (by omega) (inv.step step)
    exact ⟨s2, .head step steps2, next2, held2.trans held1⟩

/-- With the semaphore empty, each goroutine below `k` still waiting for a slot acquires it and
runs alone to its release. -/
theorem acquirers_reach (s : EnrichState) (inv : EnrichInv results block s) (empty : s.held = 0) :
    ∀ k, ∃ s', ReflTransGen (EnrichStep results) s s' ∧ s'.next = s.next ∧ s'.held = 0 ∧
      ∀ i < k, s'.tasks i ≠ some .acquiring
  | 0 => ⟨s, .refl, rfl, empty, fun i below => absurd below (Nat.not_lt_zero i)⟩
  | k + 1 => by
    obtain ⟨s1, steps1, next1, held1, settled⟩ := acquirers_reach s inv empty k
    by_cases waiting : s1.tasks k = some .acquiring
    · have acquired : EnrichStep results s1 _ := .acquire waiting (by rw [held1]; decide)
      obtain ⟨s2, steps2, next2, held2, tasks2⟩ :=
        ((inv.reach steps1).step acquired).finish_reach (Function.update_same _ _ _)
      refine ⟨s2, (steps1.tail acquired).trans steps2, next2.trans next1,
        by rw [held2]; show s1.held + 1 - 1 = 0; omega, Nat.forall_lt_succ_right.mpr ⟨?_, ?_⟩⟩
      · intro i below
        rw [tasks2]
        show Function.update (Function.update s1.tasks k _) k _ i ≠ _
        rw [Function.update_idem, Function.update_noteq (by omega)]
        exact settled i below
      · rw [tasks2, Function.update_same]
        exact nofun
    · exact ⟨s1, steps1, next1, held1, Nat.forall_lt_succ_right.mpr ⟨settled, waiting⟩⟩

/-- For every block, every result of the calls and every state an interleaving of
`EnrichBlockWithPrevOuts` reaches, the call does not deadlock: the main loop and the goroutines
can go on until the loop has passed every transaction and every started goroutine is done, so
`wg.Wait()` returns, and the block is then the sequential reference's. -/
theorem enrichBlockWithPrevOuts_completes {s : EnrichState}
    (run : ReflTransGen (EnrichStep results) (enrichStart block) s) :
    ∃ s', ReflTransGen (EnrichStep results) s s' ∧ s'.next = block.tx.length ∧
      (∀ i, s'.tasks i = none ∨ s'.tasks i = some .done) ∧
      s'.block = enrichSequentially results block := by
  have inv := EnrichInv.run run
  have sem := SemaphoreInv.run run
  obtain ⟨s1, steps1, -, held1⟩ := releaseAll_reach _ s rfl inv sem
  obtain ⟨s2, steps2, next2, held2⟩ := mainLoop_reach _ s1 rfl (inv.reach steps1)
  have steps12 := steps1.trans steps2
  obtain ⟨s3, steps3, next3, held3, settled⟩ :=
    acquirers_reach s2 (inv.reach steps12) (held2.trans held1) s2.next
  have sem3 := sem.reach (steps12.trans steps3)
  have joined : ∀ i, s3.tasks i = none ∨ s3.tasks i = some .done := by
    intro i
    by_cases before : i < s3.next
    · have free := (holdingBelow_eq_zero_iff s3.next).mp (sem3.held_eq ▸ held3) i before
      have waits := settled i (next3 ▸ before)
      match current : s3.tasks i with
      | none => exact .inl rfl
      | some .done => exact .inr rfl
      | some .acquiring => exact absurd current waits
      | some (.scanning _) | some (.calling _) => simp [current, holdsSlot] at free
    · exact .inl (sem3.unstarted i (not_lt.mp before))
  refine ⟨s3, steps12.trans steps3, next3.trans next2, joined, ?_⟩
  rw [(inv.reach (steps12.trans steps3)).block_eq (next3.trans next2) joined, enrichSequentially_eq]

/-- For every block, every result of the calls and every state an interleaving of
`EnrichBlockWithPrevOuts` reaches, the writes so far are exactly a prefix of each transaction's
inputs put through the goroutine body: none for a transaction whose goroutine is not started or
waits for a slot, the inputs before `j` for one at input `j` or with its call for input `j` in
flight, and all of them for one that is done. No write is lost, repeated, out of order, or made
to a transaction the main loop skips. -/
theorem enrichBlockWithPrevOuts_writes_prefix {s : EnrichState}
    (run : ReflTransGen (EnrichStep results) (enrichStart block) s) :
    ∃ progress : Nat → Nat, s.block = enrichedUpTo results block progress ∧
      ∀ i tx, block.tx[i]? = some tx →
        ((s.tasks i = none ∨ s.tasks i = some .acquiring) → progress i = 0) ∧
        (∀ j, (s.tasks i = some (.scanning j) ∨ s.tasks i = some (.calling j)) →
          progress i = j) ∧
        (s.tasks i = some .done → progress i = tx.vin.length) := by
  obtain ⟨progress, shared, tasks⟩ := (EnrichInv.run run).shared
  refine ⟨progress, shared, fun i tx found => ⟨?_, fun j current => ?_, fun done => ?_⟩⟩
  · rintro (idle | waiting)
    · simpa [idle, TaskProgress] using tasks i tx found
    · simpa [waiting, TaskProgress] using tasks i tx found
  · rcases current with scanning | calling
    · exact (show progress i = j ∧ _ by simpa [scanning, TaskProgress] using tasks i tx found).1
    · exact (show progress i = j ∧ _ by simpa [calling, TaskProgress] using tasks i tx found).1
  · simpa [done, TaskProgress] using tasks i tx found

/-- The call on `oneSpendBlock` once its goroutine holds a slot, before any input. -/
theorem oneSpendBlock_writes_prefix :
    ∃ s, ReflTransGen (EnrichStep paysTwoToA) (enrichStart oneSpendBlock) s ∧
      s.tasks 0 = some (.scanning 0) ∧
      ∃ progress : Nat → Nat, s.block = enrichedUpTo paysTwoToA oneSpendBlock progress ∧
        ∀ i tx, oneSpendBlock.tx[i]? = some tx →
          ((s.tasks i = none ∨ s.tasks i = some .acquiring) → progress i = 0) ∧
          (∀ j, (s.tasks i = some (.scanning j) ∨ s.tasks i = some (.calling j)) →
            progress i = j) ∧
          (s.tasks i = some .done → progress i = tx.vin.length) := by
  have start : ReflTransGen (EnrichStep paysTwoToA) (enrichStart oneSpendBlock)
      (enrichStart oneSpendBlock) := .refl
  have run := (start.tail (EnrichStep.spawn rfl (by decide))).tail
    (@EnrichStep.acquire _ _ 0 rfl (by decide))
  exact ⟨_, run, rfl, enrichBlockWithPrevOuts_writes_prefix run⟩

/-- The call on `oneSpendBlock` once its goroutine holds a slot still completes, with the
sequential block. -/
theorem oneSpendBlock_completes :
    ∃ s, ReflTransGen (EnrichStep paysTwoToA) (enrichStart oneSpendBlock) s ∧ s.held = 1 ∧
      ∃ s', ReflTransGen (EnrichStep paysTwoToA) s s' ∧ s'.next = oneSpendBlock.tx.length ∧
        (∀ i, s'.tasks i = none ∨ s'.tasks i = some .done) ∧
        s'.block = enrichSequentially paysTwoToA oneSpendBlock := by
  have start : ReflTransGen (EnrichStep paysTwoToA) (enrichStart oneSpendBlock)
      (enrichStart oneSpendBlock) := .refl
  have run := (start.tail (EnrichStep.spawn rfl (by decide))).tail
    (@EnrichStep.acquire _ _ 0 rfl (by decide))
  exact ⟨_, run, rfl, enrichBlockWithPrevOuts_completes run⟩

end MultichainIndexer.Bitcoin
