import Mathlib.Data.Finset.Card
import MultichainIndexer.Proofs.EnrichSequential

/-
Module: MultichainIndexer.Proofs.EnrichSemaphore
Purpose: The semaphore of `EnrichBlockWithPrevOuts` bounds its goroutines. A goroutine holds a
  slot from its acquire to its release, while it walks its inputs or waits on a call. In every
  reachable state the filled slots are exactly the goroutines that hold one (`SemaphoreInv`):
  the main loop starts goroutines only for transactions it has reached, an acquire fills a free
  slot, a release empties the slot of its goroutine, and every other step keeps its goroutine
  inside or outside the semaphore. So at most `semaphoreCapacity` goroutines hold a slot at any
  moment, and as a call is made only by a goroutine that holds one, at most that many
  `GetRawTransaction` calls are in flight (`enrichBlockWithPrevOuts_slots_bounded`).
Trusted boundary: none
Main exports: holdsSlot, holdingBelow, SemaphoreInv, SemaphoreInv.step, SemaphoreInv.run,
  enrichBlockWithPrevOuts_slots_bounded
-/

namespace MultichainIndexer.Bitcoin

open Relation

/-- A goroutine between `semaphore <- struct{}{}` and its release: walking its inputs or
waiting on a call. -/
def holdsSlot : Option EnrichTask → Bool
  | some (.scanning _) | some (.calling _) => true
  | _ => false

/-- How many of the goroutines of the first `n` transactions hold a slot. -/
def holdingBelow (tasks : Nat → Option EnrichTask) : Nat → Nat
  | 0 => 0
  | n + 1 => holdingBelow tasks n + if holdsSlot (tasks n) then 1 else 0

section Count

variable {tasks tasks' : Nat → Option EnrichTask}

theorem holdingBelow_congr :
    ∀ {n : Nat}, (∀ i < n, tasks i = tasks' i) → holdingBelow tasks n = holdingBelow tasks' n
  | 0, _ => rfl
  | n + 1, agree => by
    rw [holdingBelow, holdingBelow, holdingBelow_congr fun i below => agree i (by omega),
      agree n (Nat.lt_succ_self n)]

/-- The goroutines at `i` and past it do not count below `i`. -/
theorem holdingBelow_update_of_le {i n : Nat} (task : Option EnrichTask) (past : n ≤ i) :
    holdingBelow (Function.update tasks i task) n = holdingBelow tasks n :=
  holdingBelow_congr fun j (before : j < n) => Function.update_noteq (by omega) _ _

/-- Moving the goroutine of transaction `i < n` from one state to another moves the count by
the difference of the two. -/
theorem holdingBelow_update {i : Nat} (task : Option EnrichTask) :
    ∀ {n : Nat}, i < n →
      holdingBelow (Function.update tasks i task) n + (if holdsSlot (tasks i) then 1 else 0) =
        holdingBelow tasks n + if holdsSlot task then 1 else 0
  | n + 1, below => by
    by_cases same : i = n
    · subst same
      rw [holdingBelow, holdingBelow, Function.update_same, holdingBelow_update_of_le task le_rfl]
      omega
    · have earlier := @holdingBelow_update i task n (by omega)
      rw [holdingBelow, holdingBelow, Function.update_noteq (Ne.symm same)]
      omega

/-- Any set of goroutines of the first `n` transactions that all hold a slot is no larger than
the count. -/
theorem card_le_holdingBelow :
    ∀ {n : Nat} (holders : Finset Nat), (∀ i ∈ holders, i < n ∧ holdsSlot (tasks i) = true) →
      holders.card ≤ holdingBelow tasks n
  | 0, holders, holding => by
    rw [Finset.card_eq_zero.mpr (Finset.eq_empty_of_forall_not_mem fun i mem =>
      Nat.not_lt_zero i (holding i mem).1)]
    exact le_rfl
  | n + 1, holders, holding => by
    have rest := @card_le_holdingBelow n (holders.erase n) fun i mem =>
      ⟨by have := (holding i (Finset.mem_of_mem_erase mem)).1
          have := Finset.ne_of_mem_erase mem
          omega,
        (holding i (Finset.mem_of_mem_erase mem)).2⟩
    rw [holdingBelow]
    by_cases last : n ∈ holders
    · rw [if_pos (holding n last).2, ← Finset.card_erase_add_one last]
      omega
    · rw [Finset.erase_eq_of_not_mem last] at rest
      omega

end Count

/-- The invariant of the semaphore: no goroutine is started past the main loop's index, and
the filled slots are the goroutines that hold one, at most `semaphoreCapacity` of them. -/
structure SemaphoreInv (s : EnrichState) : Prop where
  unstarted : ∀ i, s.next ≤ i → s.tasks i = none
  held_eq : s.held = holdingBelow s.tasks s.next
  held_le : s.held ≤ semaphoreCapacity

theorem semaphoreInv_start (block : Block) : SemaphoreInv (enrichStart block) where
  unstarted _ _ := rfl
  held_eq := rfl
  held_le := Nat.zero_le _

section Step

variable {s : EnrichState}

theorem SemaphoreInv.started (inv : SemaphoreInv s) {i : Nat} {task : EnrichTask}
    (current : s.tasks i = some task) : i < s.next :=
  Nat.lt_of_not_le fun past => by simp [inv.unstarted i past] at current

theorem SemaphoreInv.started_of_holdsSlot (inv : SemaphoreInv s) {i : Nat}
    (holding : holdsSlot (s.tasks i) = true) : i < s.next :=
  Nat.lt_of_not_le fun past => by simp [inv.unstarted i past, holdsSlot] at holding

/-- A goroutine moves from `task` to `task'`, with the filled slots moved by the same amount as
the goroutines holding one. -/
theorem SemaphoreInv.retask (inv : SemaphoreInv s) {i : Nat} {task : EnrichTask}
    (current : s.tasks i = some task) (task' : Option EnrichTask) (block : Block) (held : Nat)
    (count : held + (if holdsSlot (some task) then 1 else 0) =
      s.held + if holdsSlot task' then 1 else 0)
    (bound : held ≤ semaphoreCapacity) :
    SemaphoreInv
      { s with block := block, tasks := Function.update s.tasks i task', held := held } where
  unstarted j past := by
    change s.next ≤ j at past
    show Function.update s.tasks i task' j = none
    rw [Function.update_noteq (by have := inv.started current; omega)]
    exact inv.unstarted j past
  held_eq := by
    have moved := @holdingBelow_update s.tasks i task' s.next (inv.started current)
    rw [current] at moved
    rw [inv.held_eq] at count
    show held = holdingBelow (Function.update s.tasks i task') s.next
    omega
  held_le := bound

/-- The main loop passes transaction `s.next`, leaving it without a goroutine or starting one
that waits for a slot. -/
theorem SemaphoreInv.pass (inv : SemaphoreInv s) (task : Option EnrichTask)
    (waits : holdsSlot task = false) :
    SemaphoreInv { s with next := s.next + 1, tasks := Function.update s.tasks s.next task } where
  unstarted j past := by
    show Function.update s.tasks s.next task j = none
    rw [Function.update_noteq (by change s.next + 1 ≤ j at past; omega)]
    exact inv.unstarted j (by change s.next + 1 ≤ j at past; omega)
  held_eq := by
    show s.held = holdingBelow (Function.update s.tasks s.next task) s.next +
      if holdsSlot (Function.update s.tasks s.next task s.next) then 1 else 0
    rw [Function.update_same, waits, if_neg Bool.false_ne_true, Nat.add_zero,
      holdingBelow_update_of_le task le_rfl]
    exact inv.held_eq
  held_le := inv.held_le

theorem SemaphoreInv.step {s' : EnrichState} (inv : SemaphoreInv s)
    (step : EnrichStep results s s') : SemaphoreInv s' := by
  cases step with
  | skip =>
    have unchanged : Function.update s.tasks s.next none = s.tasks :=
      Function.update_eq_self_iff.mpr (inv.unstarted s.next le_rfl).symm
    have passed := inv.pass none rfl
    rwa [unchanged] at passed
  | spawn => exact inv.pass (some .acquiring) rfl
  | acquire waiting room =>
    exact inv.retask waiting _ s.block _ (by simp [holdsSlot]) room
  | skipInput scanning => exact inv.retask scanning _ s.block _ rfl inv.held_le
  | call scanning => exact inv.retask scanning _ s.block _ rfl inv.held_le
  | answer calling => exact inv.retask calling _ _ _ rfl inv.held_le
  | release scanning =>
    have holding := @holdingBelow_update s.tasks _ (some .done) s.next (inv.started scanning)
    rw [scanning, ← inv.held_eq] at holding
    refine inv.retask scanning _ s.block _ ?_ (Nat.le_trans (Nat.sub_le _ _) inv.held_le)
    simp only [holdsSlot, if_true, Bool.false_eq_true, if_false] at holding ⊢
    omega

end Step

/-- `SemaphoreInv` holds in every state a run of the call reaches. -/
theorem SemaphoreInv.run {block : Block} {s : EnrichState}
    (run : ReflTransGen (EnrichStep results) (enrichStart block) s) : SemaphoreInv s := by
  induction run with
  | refl => exact semaphoreInv_start block
  | tail _ step inv => exact inv.step step

/-- For every block, every result of the calls and every interleaving of the main loop and the
goroutines of `EnrichBlockWithPrevOuts`, in every reachable state: any set of goroutines that all
sit between their acquire and their release has at most `semaphoreCapacity` (10) members, and any
set of goroutines that all have a `GetRawTransaction` call in flight has at most 10 members. -/
theorem enrichBlockWithPrevOuts_slots_bounded {block : Block} {s : EnrichState}
    (run : ReflTransGen (EnrichStep results) (enrichStart block) s) :
    (∀ holders : Finset Nat,
        (∀ i ∈ holders, ∃ j, s.tasks i = some (.scanning j) ∨ s.tasks i = some (.calling j)) →
          holders.card ≤ semaphoreCapacity) ∧
      ∀ callers : Finset Nat, (∀ i ∈ callers, ∃ j, s.tasks i = some (.calling j)) →
        callers.card ≤ semaphoreCapacity := by
  have inv := SemaphoreInv.run run
  have bound : ∀ holders : Finset Nat, (∀ i ∈ holders, holdsSlot (s.tasks i) = true) →
      holders.card ≤ semaphoreCapacity := fun holders holding =>
    calc holders.card
      _ ≤ holdingBelow s.tasks s.next := card_le_holdingBelow holders fun i mem =>
          ⟨inv.started_of_holdsSlot (holding i mem), holding i mem⟩
      _ = s.held := inv.held_eq.symm
      _ ≤ semaphoreCapacity := inv.held_le
  refine ⟨fun holders holding => bound holders fun i mem => ?_,
    fun callers calling => bound callers fun i mem => ?_⟩
  · obtain ⟨j, now | now⟩ := holding i mem <;> simp [now, holdsSlot]
  · obtain ⟨j, now⟩ := calling i mem
    simp [now, holdsSlot]

/-- The call on `oneSpendBlock` after the main loop has started the goroutine of its transaction
and that goroutine has filled a slot. -/
theorem oneSpendBlock_slots_bounded :
    ∃ s, ReflTransGen (EnrichStep paysTwoToA) (enrichStart oneSpendBlock) s ∧
      s.tasks 0 = some (.scanning 0) ∧ s.held = 1 ∧
      (∀ holders : Finset Nat,
          (∀ i ∈ holders, ∃ j, s.tasks i = some (.scanning j) ∨ s.tasks i = some (.calling j)) →
            holders.card ≤ semaphoreCapacity) ∧
        ∀ callers : Finset Nat, (∀ i ∈ callers, ∃ j, s.tasks i = some (.calling j)) →
          callers.card ≤ semaphoreCapacity := by
  have start : ReflTransGen (EnrichStep paysTwoToA) (enrichStart oneSpendBlock)
      (enrichStart oneSpendBlock) := ReflTransGen.refl
  have run := (start.tail (EnrichStep.spawn rfl (by decide))).tail
    (@EnrichStep.acquire _ _ 0 rfl (by decide))
  exact ⟨_, run, rfl, rfl, enrichBlockWithPrevOuts_slots_bounded run⟩

end MultichainIndexer.Bitcoin
