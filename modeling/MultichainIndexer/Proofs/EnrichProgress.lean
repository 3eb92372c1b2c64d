import MultichainIndexer.Proofs.EnrichSequential

/-
Module: MultichainIndexer.Proofs.EnrichProgress
Purpose: `EnrichBlockWithPrevOuts` can always return. The schedule that runs each started
  goroutine alone, from its acquire to its release, before the main loop moves on, never blocks:
  the semaphore is empty whenever a goroutine asks for a slot. It reaches the return with the
  block `enrichedBlock` (`enrichBlockWithPrevOuts_returns`); with the safety result of
  `EnrichSequential`, the call returns exactly that block (`enrichBlockWithPrevOuts_iff`).
Trusted boundary: none
Main exports: enrichInputs_reach, AtTransaction, AtTransaction.next_reach,
  enrichBlockWithPrevOuts_returns, enrichBlockWithPrevOuts_iff
-/

namespace MultichainIndexer.Bitcoin

open Relation

variable {results : Nat → Nat → Except String Transaction} {block : Block}

/-- A goroutine running alone from input `j` of its transaction reaches the end of its inputs,
with the shared block extended by all of them. -/
theorem enrichInputs_reach {k : Nat} {tx : Transaction} (progress : Nat → Nat)
    (found : block.tx[k]? = some tx) :
    ∀ (left j : Nat) (s : EnrichState), j + left = tx.vin.length →
      s.tasks k = some (.scanning j) →
      s.block = enrichedUpTo results block (Function.update progress k j) →
      ∃ s', ReflTransGen (EnrichStep results) s s' ∧ s'.next = s.next ∧ s'.held = s.held ∧
        s'.tasks = Function.update s.tasks k (some (.scanning tx.vin.length)) ∧
        s'.block = enrichedUpTo results block (Function.update progress k tx.vin.length)
  | 0, j, s, last, scanning, shared => by
    rw [← last, Nat.add_zero, ← scanning, Function.update_eq_self]
    exact ⟨s, .refl, rfl, rfl, rfl, shared⟩
  | left + 1, j, s, remaining, scanning, shared => by
    obtain ⟨vin, input⟩ : ∃ vin, tx.vin[j]? = some vin :=
      ⟨tx.vin[j], List.getElem?_eq_getElem (by omega)⟩
    have now : Function.update progress k j k = j := Function.update_same _ _ _
    have current : s.block.tx[k]? = some (enrichInputsBelow results k j tx) := by
      simp [shared, found, now]
    have input' : (enrichInputsBelow results k j tx).vin[j]? = some vin := by
      simp [input]
    cases skips : skipsInput vin
    · let calling : EnrichState := { s with tasks := Function.update s.tasks k (some (.calling j)) }
      obtain ⟨s', steps, next, held, tasks, shared'⟩ := enrichInputs_reach progress found left (j + 1)
        { calling with
          block := calling.block.modifyVin k j (applyFetched (results k j))
          tasks := Function.update calling.tasks k (some (.scanning (j + 1))) }
        (by omega) (Function.update_same _ _ _)
        (by rw [shared, modifyVin_enrichedUpTo now found input skips, Function.update_idem])
      refine ⟨s', .head (.call scanning current input' skips)
        (.head (.answer (Function.update_same _ _ _)) steps), next, held, ?_, shared'⟩
      simp only [tasks, calling, Function.update_idem]
    · obtain ⟨s', steps, next, held, tasks, shared'⟩ := enrichInputs_reach progress found left (j + 1)
        { s with tasks := Function.update s.tasks k (some (.scanning (j + 1))) }
        (by omega) (Function.update_same _ _ _)
        (by rw [shared, ← enrichedUpTo_skip now found input skips, Function.update_idem])
      refine ⟨s', .head (.skipInput scanning current input' skips) steps, next, held, ?_, shared'⟩
      simp only [tasks, Function.update_idem]

/-- The schedule's state when its main loop is at transaction `k`: no semaphore slot filled, the
goroutines of the transactions before `k` done or never started, none started after, and the
shared block with the transactions before `k` through the body. -/
structure AtTransaction (results : Nat → Nat → Except String Transaction) (block : Block)
    (k : Nat) (s : EnrichState) : Prop where
  next_eq : s.next = k
  held_eq : s.held = 0
  later : ∀ i, k ≤ i → s.tasks i = none
  earlier : ∀ i < k, s.tasks i = none ∨ s.tasks i = some .done
  shared : s.block = enrichedUpTo results block (passedProgress block k)

theorem atTransaction_start : AtTransaction results block 0 (enrichStart block) where
  next_eq := rfl
  held_eq := rfl
  later _ _ := rfl
  earlier _ before := absurd before (Nat.not_lt_zero _)
  shared := by rw [passedProgress_zero, enrichedUpTo_zero]; rfl

/-- Leaving transaction `k`: a state that has moved only the task of `k`, to none or done,
with the main loop past `k`, the semaphore empty and the block at the prefix map past `k`, is at
transaction `k + 1`. -/
theorem AtTransaction.pass {k : Nat} {s s' : EnrichState} (pos : AtTransaction results block k s)
    (next : s'.next = k + 1) (held : s'.held = 0)
    (task : s'.tasks k = none ∨ s'.tasks k = some .done) (others : ∀ i ≠ k, s'.tasks i = s.tasks i)
    (shared : s'.block = enrichedUpTo results block (passedProgress block (k + 1))) :
    AtTransaction results block (k + 1) s' where
  next_eq := next
  held_eq := held
  later i after := by rw [others i (by omega)]; exact pos.later i (by omega)
  earlier i before := by
    by_cases same : i = k
    · exact same ▸ task
    · rw [others i same]; exact pos.earlier i (by omega)
  shared := shared

/-- From transaction `k`, the schedule skips it, or spawns its goroutine and runs it alone from
its acquire to its release, and reaches transaction `k + 1`. -/
theorem AtTransaction.next_reach {k : Nat} {s : EnrichState} (pos : AtTransaction results block k s)
    (inRange : k < block.tx.length) :
    ∃ s', ReflTransGen (EnrichStep results) s s' ∧ AtTransaction results block (k + 1) s' := by
  obtain rfl : s.next = k := pos.next_eq
  obtain ⟨tx, found⟩ : ∃ tx, block.tx[s.next]? = some tx :=
    ⟨block.tx[s.next], List.getElem?_eq_getElem inRange⟩
  have current : s.block.tx[s.next]? = some tx := by
    simp [pos.shared, found, passedProgress_self, enrichInputsBelow_zero]
  cases skips : skipsTransaction tx
  case true =>
    refine ⟨_, .single (.skip current skips),
      pos.pass rfl pos.held_eq (.inl (pos.later _ le_rfl)) (fun _ _ => rfl) ?_⟩
    rw [passedProgress_succ found, if_pos skips, update_passedProgress_self]
    exact pos.shared
  case false =>
    obtain ⟨s', inputs, next, held, tasks, shared⟩ :=
      @enrichInputs_reach results block _ _ (passedProgress block s.next) found tx.vin.length 0
        { s with
          next := s.next + 1
          held := s.held + 1
          tasks := Function.update (Function.update s.tasks s.next (some .acquiring)) s.next
            (some (.scanning 0)) }
        (Nat.zero_add _) (Function.update_same _ _ _)
        (by rw [update_passedProgress_self]; exact pos.shared)
    have scanning : s'.tasks s.next = some (.scanning tx.vin.length) := by
      rw [tasks]; exact Function.update_same _ _ _
    have enriched : s'.block.tx[s.next]? = some (enrichInputsBelow results s.next tx.vin.length tx) := by
      simp [shared, found]
    have room : s.held < semaphoreCapacity := by rw [pos.held_eq]; decide
    refine ⟨_, .head (.spawn current skips) (.head (@EnrichStep.acquire _ _ s.next
        (Function.update_same _ _ _) room) (inputs.tail (.release scanning enriched
          (enrichInputsBelow_vin_length tx).le))),
      pos.pass next (by simp only [held, pos.held_eq, Nat.add_sub_cancel])
        (.inr (Function.update_same _ _ _))
        (fun i other => by simp only [tasks, Function.update_noteq other]) ?_⟩
    simpa only [passedProgress_succ found, skips, Bool.false_eq_true, if_false] using shared

/-- The schedule reaches every transaction of the block, the end of the main loop included. -/
theorem atTransaction_reach :
    ∀ k ≤ block.tx.length,
      ∃ s, ReflTransGen (EnrichStep results) (enrichStart block) s ∧ AtTransaction results block k s
  | 0, _ => ⟨_, .refl, atTransaction_start⟩
  | k + 1, inRange =>
    let ⟨_, steps, pos⟩ := atTransaction_reach k (by omega)
    let ⟨s', steps', pos'⟩ := pos.next_reach (by omega)
    ⟨s', steps.trans steps', pos'⟩

/-- `EnrichBlockWithPrevOuts` on a non-nil block can return, with the block of the sequential
reference, whatever its calls return. -/
theorem enrichBlockWithPrevOuts_returns (results : Nat → Nat → Except String Transaction)
    (block : Block) :
    EnrichBlockWithPrevOutsReturns results (some block) (.ok (enrichSequentially results block)) := by
  obtain ⟨s, run, pos⟩ := @atTransaction_reach results block block.tx.length le_rfl
  refine ⟨s, run, pos.next_eq, fun i => ?_, ?_⟩
  · by_cases before : i < block.tx.length
    · exact pos.earlier i before
    · exact .inl (pos.later i (not_lt.mp before))
  · rw [pos.shared, enrichedUpTo_passedProgress, enrichSequentially_eq]

/-- What `EnrichBlockWithPrevOuts` returns on a non-nil block: exactly the block of the sequential
reference. Every interleaving ends there (`EnrichInv.run`), and one does end. -/
theorem enrichBlockWithPrevOuts_iff (block : Block) (result : Except String Block) :
    EnrichBlockWithPrevOutsReturns results (some block) result ↔
      result = .ok (enrichSequentially results block) := by
  constructor
  · rintro ⟨s, run, returned, joined, rfl⟩
    rw [(EnrichInv.run run).block_eq returned joined, enrichSequentially_eq]
  · rintro rfl
    exact enrichBlockWithPrevOuts_returns results block

end MultichainIndexer.Bitcoin
