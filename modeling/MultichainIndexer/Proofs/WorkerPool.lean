import MultichainIndexer.Indexer.Bitcoin

/-
Module: MultichainIndexer.Proofs.WorkerPool
Purpose: What `GetBlocksByNumbers` returns, over every interleaving of the producer, the workers
  and the cancellation of the context, and every outcome of the fetches. `PoolInv` is kept by
  every step (`PoolInv.step`), so it holds in every reachable state (`PoolInv.run`): the channel
  holds the jobs sent and not yet taken, in order; every taken job was received by exactly one
  worker, which is either still fetching it or wrote its slot exactly once and moved on; no slot
  of a job not yet taken has a write. Once every worker has exited, the channel is closed and
  drained, so an uncancelled context means every job was taken and every slot written
  (`getBlocksByNumbers_result`). Cancellation is never undone, so a context cancelled at any
  point returns `nil, ctx.Err()`.
Trusted boundary: none
Main exports: jobOf, PoolInv, poolInv_start, PoolInv.step, PoolInv.run, firstError_eq_find,
  getBlocksByNumbers_result
-/

namespace MultichainIndexer.Indexer

open Relation

variable {β : Type}

/-- The job the producer sends `i`-th: `job{num: nums[i], index: i}`. -/
def jobOf (nums : List UInt64) (i : Nat) : Job := ⟨nums.getD i 0, i⟩

@[simp] theorem jobOf_index (nums : List UInt64) (i : Nat) : (jobOf nums i).index = i := rfl

theorem jobOf_inj {nums : List UInt64} {i j : Nat} : jobOf nums i = jobOf nums j ↔ i = j :=
  ⟨congrArg Job.index, fun same => same ▸ rfl⟩

/-- How many jobs the workers have taken off the channel. -/
def PoolState.taken (s : PoolState β) : Nat := s.sent - s.jobs.length

@[simp] theorem PoolState.taken_mk (cancelled : Bool) (sent : Nat) (closed : Bool)
    (jobs : List Job) (workers : Nat → WorkerState) (blocks : List (BlockResult β))
    (receivers : Nat → List Nat) (writes : Nat → List (Nat × Fetched β)) :
    PoolState.taken ⟨cancelled, sent, closed, jobs, workers, blocks, receivers, writes⟩ =
      sent - jobs.length := rfl

/-- Where job `i` is once worker `w` has received it: `w` is still fetching it and the slot has
no write, or `w` wrote the slot once, with the outcome of its call, and moved on. -/
def JobProgress (nums : List UInt64) (i w : Nat) (worker : WorkerState)
    (writes : List (Nat × Fetched β)) (slot : Option (BlockResult β)) : Prop :=
  (worker = .fetching (jobOf nums i) ∧ writes = []) ∨
    ∃ fetched, writes = [(w, fetched)] ∧ slot = some (slotOf (jobOf nums i) fetched) ∧
      worker ≠ .fetching (jobOf nums i)

/-- A step that moves worker `w` between states other than fetching job `i` keeps the progress
of job `i`, whichever worker received it. -/
theorem JobProgress.update {nums : List UInt64} {i w w' : Nat}
    {workerOf : Nat → WorkerState} {next : WorkerState} {writes : List (Nat × Fetched β)}
    {slot : Option (BlockResult β)} (progress : JobProgress nums i w' (workerOf w') writes slot)
    (idle : workerOf w ≠ .fetching (jobOf nums i)) (idle' : next ≠ .fetching (jobOf nums i)) :
    JobProgress nums i w' (Function.update workerOf w next w') writes slot := by
  by_cases same : w' = w
  · subst same
    rw [Function.update_same]
    rcases progress with ⟨fetching, -⟩ | ⟨fetched, written, slot, -⟩
    · exact absurd fetching idle
    · exact .inr ⟨fetched, written, slot, idle'⟩
  · rwa [Function.update_noteq same]

/-- The invariant of a call on `nums` with `workers` workers. -/
structure PoolInv (nums : List UInt64) (workers : Nat) (s : PoolState β) : Prop where
  sent_le : s.sent ≤ nums.length
  queued_le : s.jobs.length ≤ s.sent
  /-- The channel holds the jobs sent and not yet taken, oldest first. -/
  queued : s.jobs = (List.range' s.taken s.jobs.length).map (jobOf nums)
  blocks_length : s.blocks.length = nums.length
  closed_stop : s.closed = true → s.sent = nums.length ∨ s.cancelled = true
  exited_drained : ∀ w, s.workers w = .exited → s.closed = true ∧ s.jobs = []
  fetching_taken : ∀ w job, s.workers w = .fetching job →
    job = jobOf nums job.index ∧ job.index < s.taken ∧ s.receivers job.index = [w]
  untaken : ∀ i, s.taken ≤ i → s.receivers i = [] ∧ s.writes i = []
  /-- Every taken job was received by exactly one worker, and its slot was written at most
  once, by that worker. -/
  taken_progress : ∀ i < s.taken, ∃ w < workers, s.receivers i = [w] ∧
    JobProgress nums i w (s.workers w) (s.writes i) s.blocks[i]?

variable {nums : List UInt64} {workers : Nat}

theorem poolInv_start : PoolInv nums workers (poolStart nums : PoolState β) where
  sent_le := Nat.zero_le _
  queued_le := le_rfl
  queued := rfl
  blocks_length := List.length_replicate _ _
  closed_stop := by simp [poolStart]
  exited_drained := by simp [poolStart]
  fetching_taken := by simp [poolStart]
  untaken _ _ := ⟨rfl, rfl⟩
  taken_progress := by simp [PoolState.taken, poolStart]

section Step

variable {s : PoolState β}

theorem PoolInv.send (inv : PoolInv nums workers s) (more : s.sent < nums.length)
    (isOpen : s.closed = false) :
    PoolInv nums workers
      { s with sent := s.sent + 1, jobs := s.jobs ++ [(⟨nums[s.sent], s.sent⟩ : Job)] } := by
  have taken : s.sent + 1 - (s.jobs ++ [(⟨nums[s.sent], s.sent⟩ : Job)]).length = s.taken := by
    simp only [PoolState.taken, List.length_append, List.length_singleton, Nat.add_sub_add_right]
  have next : s.taken + 1 * s.jobs.length = s.sent := by
    have := inv.queued_le
    simp only [PoolState.taken]
    omega
  have noneExited : ∀ w, s.workers w ≠ .exited := fun w exited => by
    simp [(inv.exited_drained w exited).1] at isOpen
  refine ⟨more, (List.length_append _ _).trans_le (Nat.succ_le_succ inv.queued_le), ?_,
    inv.blocks_length,
    by simp [isOpen], fun w exited => absurd exited (noneExited w), ?_, ?_, ?_⟩ <;>
    simp only [PoolState.taken_mk, taken]
  · rw [List.length_append, List.length_singleton, List.range'_concat, List.map_append,
      ← inv.queued, next]
    simp [jobOf, more]
  · exact inv.fetching_taken
  · exact inv.untaken
  · exact inv.taken_progress

theorem PoolInv.close (inv : PoolInv nums workers s)
    (stop : s.sent = nums.length ∨ s.cancelled = true) :
    PoolInv nums workers { s with closed := true } :=
  { inv with
    closed_stop := fun _ => stop
    exited_drained := fun w exited => ⟨rfl, (inv.exited_drained w exited).2⟩ }

theorem PoolInv.receive (inv : PoolInv nums workers s) {w : Nat} {job : Job} {rest : List Job}
    (isWorker : w < workers) (idle : s.workers w = .receiving) (oldest : s.jobs = job :: rest) :
    PoolInv nums workers
      { s with
        jobs := rest
        workers := Function.update s.workers w (.fetching job)
        receivers := Function.update s.receivers job.index (s.receivers job.index ++ [w]) } := by
  have queued := inv.queued
  rw [oldest, List.length_cons, List.range'_succ, List.map_cons, List.cons.injEq] at queued
  obtain ⟨rfl, restQueued⟩ := queued
  have length : s.jobs.length = rest.length + 1 := by rw [oldest, List.length_cons]
  have taken : s.sent - rest.length = s.taken + 1 := by
    have := inv.queued_le
    unfold PoolState.taken
    omega
  have fresh := inv.untaken s.taken le_rfl
  refine ⟨inv.sent_le, ?_, ?_, inv.blocks_length, inv.closed_stop, ?_, ?_, ?_, ?_⟩ <;>
    simp only [PoolState.taken_mk, taken, jobOf_index, fresh.1, List.nil_append]
  · have := inv.queued_le
    omega
  · simpa [Nat.add_comm 1] using restQueued
  · intro w' exited
    have : w' ≠ w := by rintro rfl; simp at exited
    simp [(inv.exited_drained w' (by simpa [this] using exited)).2] at oldest
  · intro w' job' busy
    by_cases same : w' = w
    · subst same
      simp only [Function.update_same, WorkerState.fetching.injEq] at busy
      subst busy
      exact ⟨rfl, Nat.lt_succ_self _, Function.update_same _ _ _⟩
    · rw [Function.update_noteq same] at busy
      obtain ⟨named, earlier, received⟩ := inv.fetching_taken w' job' busy
      have : job'.index ≠ s.taken := by omega
      exact ⟨named, by omega, by simp [this, received]⟩
  · intro i later
    have : i ≠ s.taken := by omega
    simpa [this] using inv.untaken i (by omega)
  · intro i earlier
    by_cases newest : i = s.taken
    · subst newest
      exact ⟨w, isWorker, by simp, .inl ⟨by simp, fresh.2⟩⟩
    · obtain ⟨w', isWorker', received, progress⟩ := inv.taken_progress i (by omega)
      refine ⟨w', isWorker', by simp [newest, received], progress.update (by simp [idle]) ?_⟩
      simp [jobOf_inj, Ne.symm newest]

theorem PoolInv.complete (inv : PoolInv nums workers s) {w : Nat} {job : Job}
    (fetched : Fetched β) (busy : s.workers w = .fetching job) :
    PoolInv nums workers
      { s with
        blocks := s.blocks.set job.index (slotOf job fetched)
        workers := Function.update s.workers w .receiving
        writes := Function.update s.writes job.index (s.writes job.index ++ [(w, fetched)]) } := by
  obtain ⟨named, taken, received⟩ := inv.fetching_taken w job busy
  have inRange : job.index < s.blocks.length := by
    have := inv.sent_le
    rw [inv.blocks_length]
    unfold PoolState.taken at taken
    omega
  refine ⟨inv.sent_le, inv.queued_le, inv.queued, by simp [inv.blocks_length], inv.closed_stop,
    fun w' exited => ?_, fun w' job' busy' => ?_, fun i later => ?_, fun i earlier => ?_⟩
  · have : w' ≠ w := by rintro rfl; simp at exited
    exact inv.exited_drained w' (by simpa [this] using exited)
  · have : w' ≠ w := by rintro rfl; simp at busy'
    exact inv.fetching_taken w' job' (by simpa [this] using busy')
  · change s.taken ≤ i at later
    have : i ≠ job.index := by omega
    simpa [this] using inv.untaken i later
  · obtain ⟨w', isWorker', received', progress⟩ := inv.taken_progress i earlier
    refine ⟨w', isWorker', received', ?_⟩
    by_cases this : i = job.index
    · subst this
      obtain rfl : w' = w := by simpa [received] using received'.symm
      rcases progress with ⟨-, unwritten⟩ | ⟨-, -, -, idle⟩
      · refine .inr ⟨fetched, by simp [unwritten], ?_, by simp⟩
        rw [List.getElem?_set_self inRange, ← named]
      · exact absurd (named ▸ busy) idle
    · simp only [Function.update_noteq this, List.getElem?_set_ne (Ne.symm this)]
      refine progress.update ?_ (by simp)
      rw [busy, named, Ne, WorkerState.fetching.injEq, jobOf_inj]
      exact Ne.symm this

theorem PoolInv.exit (inv : PoolInv nums workers s) {w : Nat}
    (idle : s.workers w = .receiving) (drained : s.jobs = []) (isClosed : s.closed = true) :
    PoolInv nums workers { s with workers := Function.update s.workers w .exited } := by
  refine ⟨inv.sent_le, inv.queued_le, inv.queued, inv.blocks_length, inv.closed_stop,
    fun w' exited => ?_, fun w' job busy => ?_, inv.untaken, fun i earlier => ?_⟩
  · by_cases same : w' = w
    · exact ⟨isClosed, drained⟩
    · exact inv.exited_drained w' (by simpa [same] using exited)
  · have : w' ≠ w := by rintro rfl; simp at busy
    exact inv.fetching_taken w' job (by simpa [this] using busy)
  · obtain ⟨w', isWorker', received, progress⟩ := inv.taken_progress i earlier
    exact ⟨w', isWorker', received, progress.update (by simp [idle]) (by simp)⟩

theorem PoolInv.cancel (inv : PoolInv nums workers s) :
    PoolInv nums workers { s with cancelled := true } :=
  { inv with closed_stop := fun _ => .inr rfl }

theorem PoolInv.step {s' : PoolState β} (inv : PoolInv nums workers s)
    (step : PoolStep nums workers s s') : PoolInv nums workers s' := by
  cases step with
  | send isOpen more _ => exact inv.send more isOpen
  | close _ stop => exact inv.close stop
  | receive isWorker idle oldest => exact inv.receive isWorker idle oldest
  | complete fetched _ busy => exact inv.complete fetched busy
  | exit _ idle drained isClosed => exact inv.exit idle drained isClosed
  | cancel => exact inv.cancel

end Step

/-- `PoolInv` holds in every state a run of the call reaches. -/
theorem PoolInv.run {s : PoolState β}
    (run : ReflTransGen (PoolStep nums workers) (poolStart nums) s) : PoolInv nums workers s := by
  induction run with
  | refl => exact poolInv_start
  | tail _ step inv => exact inv.step step

/-- No step undoes a cancellation of the context. -/
theorem cancelled_of_steps {s s' : PoolState β}
    (steps : ReflTransGen (PoolStep nums workers) s s') (cancelled : s.cancelled = true) :
    s'.cancelled = true := by
  induction steps with
  | refl => exact cancelled
  | tail _ step ih => cases step <;> first | exact ih | rfl

/-- A call on at least one height has at least one worker. -/
theorem poolSize_pos {numsLength : Nat} (concurrency : Int) (nonEmpty : 0 < numsLength) :
    0 < poolSize numsLength concurrency := by
  unfold poolSize
  split_ifs with capped
  · omega
  · exact nonEmpty

theorem jobOf_of_lt {i : Nat} (inRange : i < nums.length) : jobOf nums i = ⟨nums[i], i⟩ := by
  simp [jobOf, inRange]

/-- The loop over the slots picks the first slot whose `Error` is set. -/
theorem firstError_eq_find (blocks : List (BlockResult β)) :
    firstError blocks = (blocks.find? fun r => r.error.isSome).bind fun r =>
      r.error.map fun e => .message ("block " ++ toString r.number ++ ": " ++ e.message) := by
  induction blocks with
  | nil => rfl
  | cons r rest ih => cases found : r.error <;> simp [firstError, found, ih]

/-- For every non-empty list of heights, every `Throttle.Concurrency`, and every run of the call
(every interleaving of the producer, the workers and a cancellation, with any outcome of each
`GetBlock` call) that ends with every worker exited: a context cancelled at any point of the run
makes the call return `nil, ctx.Err()`; and when the call returns a slice, it has one slot per
height, job `i` was received by exactly one worker, that worker wrote slot `i` exactly once, and
the slot holds `nums[i]`, the block of that call, and an error exactly when that call failed.
The returned error is built from the first slot with an error. -/
theorem getBlocksByNumbers_result {nums : List UInt64} {concurrency : Int} {s : PoolState β}
    (nonEmpty : nums ≠ [])
    (run : ReflTransGen (PoolStep nums (poolSize nums.length concurrency)) (poolStart nums) s)
    (finished : ∀ w < poolSize nums.length concurrency, s.workers w = .exited) :
    (∀ t, ReflTransGen (PoolStep nums (poolSize nums.length concurrency)) t s →
        t.cancelled = true → poolResult s = (none, some .contextErr)) ∧
      ∀ slice, (poolResult s).1 = some slice →
        slice.length = nums.length ∧
        (∀ i (inRange : i < nums.length), ∃ w < poolSize nums.length concurrency,
          ∃ fetched : Fetched β, s.receivers i = [w] ∧ s.writes i = [(w, fetched)] ∧
            slice[i]? = some
              ⟨nums[i], fetched.block, fetched.err.map fun message => ⟨.unknown, message⟩⟩) ∧
        (poolResult s).2 = (slice.find? fun r => r.error.isSome).bind fun r =>
          r.error.map fun e => .message ("block " ++ toString r.number ++ ": " ++ e.message) := by
  have inv := PoolInv.run run
  have oneWorker := poolSize_pos concurrency (List.length_pos.mpr nonEmpty)
  obtain ⟨closed, drained⟩ := inv.exited_drained 0 (finished 0 oneWorker)
  refine ⟨fun t tail cancelled => by simp [poolResult, cancelled_of_steps tail cancelled],
    fun slice returned => ?_⟩
  cases cancelled : s.cancelled <;> simp only [poolResult, cancelled] at returned ⊢
  · cases returned
    have allSent := (inv.closed_stop closed).resolve_right (by simp [cancelled])
    have allTaken : s.taken = nums.length := by simp [PoolState.taken, drained, allSent]
    refine ⟨inv.blocks_length, fun i inRange => ?_, firstError_eq_find s.blocks⟩
    obtain ⟨w, isWorker, received, progress⟩ := inv.taken_progress i (allTaken ▸ inRange)
    rcases progress with ⟨busy, -⟩ | ⟨fetched, written, slot, -⟩
    · simp [finished w isWorker] at busy
    · refine ⟨w, isWorker, fetched, received, written, ?_⟩
      rw [slot, jobOf_of_lt inRange]
      rfl
  · cases returned

/-- One height and one worker: the producer sends the job and closes the channel, the worker
fetches the block without error and exits. -/
theorem oneHeight_result :
    ∃ s : PoolState Unit, [(5 : UInt64)] ≠ [] ∧
      ReflTransGen (PoolStep [5] (poolSize [(5 : UInt64)].length 0)) (poolStart [5]) s ∧
      (∀ w < poolSize [(5 : UInt64)].length 0, s.workers w = .exited) ∧
      (∀ t, ReflTransGen (PoolStep [5] (poolSize [(5 : UInt64)].length 0)) t s →
          t.cancelled = true → poolResult s = (none, some .contextErr)) ∧
        ∀ slice, (poolResult s).1 = some slice →
          slice.length = [(5 : UInt64)].length ∧
          (∀ i (inRange : i < [(5 : UInt64)].length), ∃ w < poolSize [(5 : UInt64)].length 0,
            ∃ fetched : Fetched Unit, s.receivers i = [w] ∧ s.writes i = [(w, fetched)] ∧
              slice[i]? = some
                ⟨[(5 : UInt64)][i], fetched.block,
                  fetched.err.map fun message => ⟨.unknown, message⟩⟩) ∧
          (poolResult s).2 = (slice.find? fun r => r.error.isSome).bind fun r =>
            r.error.map fun e => .message ("block " ++ toString r.number ++ ": " ++ e.message) := by
  have isWorker : 0 < poolSize [(5 : UInt64)].length 0 := by decide
  have start : ReflTransGen (PoolStep [(5 : UInt64)] (poolSize [(5 : UInt64)].length 0))
      (poolStart [5] : PoolState Unit) (poolStart [5]) := ReflTransGen.refl
  have run := ((((start.tail (PoolStep.send rfl (by decide) (by decide))).tail
    (PoolStep.close rfl (.inl rfl))).tail (PoolStep.receive isWorker rfl rfl)).tail
    (PoolStep.complete (⟨some (), none⟩ : Fetched Unit) isWorker rfl)).tail
    (PoolStep.exit isWorker rfl rfl rfl)
  refine ⟨_, by simp, run, ?_, getBlocksByNumbers_result (by simp) run ?_⟩ <;>
  · intro w small
    rw [Nat.lt_one_iff.mp (small : w < 1)]
    rfl

/-! ### Every job in one place -/

/-- The channel holds exactly the jobs taken off it by no worker yet. -/
theorem PoolInv.mem_jobs {s : PoolState β} (inv : PoolInv nums workers s) (i : Nat) :
    jobOf nums i ∈ s.jobs ↔ s.taken ≤ i ∧ i < s.sent := by
  have sent : s.taken + s.jobs.length = s.sent := by
    have := inv.queued_le
    simp only [PoolState.taken]
    omega
  conv_lhs => rw [inv.queued]
  simp only [List.mem_map, List.mem_range'_1, jobOf_inj, sent]
  exact ⟨fun ⟨_, within, same⟩ => same ▸ within, fun within => ⟨i, within, rfl⟩⟩

/-- For every list of heights, every number of workers and every state an interleaving of the
call reaches, no job is lost or duplicated: each job the producer has sent is either still in the
channel, received by no worker and its slot unwritten, or off the channel and received by exactly
one worker, which is still fetching it with the slot unwritten or wrote the slot exactly once,
with its height and the outcome of its call; no job past the producer's index has been received
or written; and the channel holds each job at most once. -/
theorem getBlocksByNumbers_jobs_accounted {s : PoolState β}
    (run : ReflTransGen (PoolStep nums workers) (poolStart nums) s) :
    (∀ i < s.sent,
      (jobOf nums i ∈ s.jobs ∧ s.receivers i = [] ∧ s.writes i = []) ∨
        (jobOf nums i ∉ s.jobs ∧ ∃ w < workers, s.receivers i = [w] ∧
          ((s.workers w = .fetching (jobOf nums i) ∧ s.writes i = []) ∨
            ∃ fetched, s.writes i = [(w, fetched)] ∧
              s.blocks[i]? = some (slotOf (jobOf nums i) fetched)))) ∧
      (∀ i, s.sent ≤ i → s.receivers i = [] ∧ s.writes i = []) ∧ s.jobs.Nodup := by
  have inv := PoolInv.run run
  have taken_le : s.taken ≤ s.sent := Nat.sub_le _ _
  refine ⟨fun i sent => ?_, fun i past => inv.untaken i (by omega), ?_⟩
  · by_cases queued : s.taken ≤ i
    · exact .inl ⟨(inv.mem_jobs i).mpr ⟨queued, sent⟩, inv.untaken i queued⟩
    · obtain ⟨w, isWorker, received, progress⟩ := inv.taken_progress i (by omega)
      refine .inr ⟨fun mem => queued ((inv.mem_jobs i).mp mem).1, w, isWorker, received, ?_⟩
      rcases progress with fetching | ⟨fetched, written, slot, -⟩
      · exact .inl fetching
      · exact .inr ⟨fetched, written, slot⟩
  · rw [inv.queued]
    exact (List.nodup_range' _ _).map fun _ _ same => jobOf_inj.mp same

/-- One height, one worker, the job received and still being fetched. -/
theorem oneHeight_jobs_accounted :
    ∃ s : PoolState Unit,
      ReflTransGen (PoolStep [5] 1) (poolStart [5]) s ∧ s.workers 0 = .fetching ⟨5, 0⟩ ∧
      (∀ i < s.sent,
        (jobOf [5] i ∈ s.jobs ∧ s.receivers i = [] ∧ s.writes i = []) ∨
          (jobOf [5] i ∉ s.jobs ∧ ∃ w < 1, s.receivers i = [w] ∧
            ((s.workers w = .fetching (jobOf [5] i) ∧ s.writes i = []) ∨
              ∃ fetched, s.writes i = [(w, fetched)] ∧
                s.blocks[i]? = some (slotOf (jobOf [5] i) fetched)))) ∧
        (∀ i, s.sent ≤ i → s.receivers i = [] ∧ s.writes i = []) ∧ s.jobs.Nodup := by
  have start : ReflTransGen (PoolStep [(5 : UInt64)] 1) (poolStart [5] : PoolState Unit)
      (poolStart [5]) := ReflTransGen.refl
  have run := (start.tail (PoolStep.send rfl (by decide) (by decide))).tail
    (@PoolStep.receive Unit [5] 1 _ 0 _ _ (by decide) rfl rfl)
  exact ⟨_, run, rfl, getBlocksByNumbers_jobs_accounted run⟩

end MultichainIndexer.Indexer
