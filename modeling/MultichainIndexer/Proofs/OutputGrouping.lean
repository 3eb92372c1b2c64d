import MultichainIndexer.Bitcoin.Tx
import Mathlib.Algebra.BigOperators.Group.List
import Mathlib.Tactic.Ring

/-
Module: MultichainIndexer.Proofs.OutputGrouping
Purpose: What the map `GroupOutputsByAddress` holds. Its keys are exactly the addresses of the
  positive outputs, the amount at an address is the value of each positive output once per
  occurrence of the address among the output's addresses, and the amounts add up to each
  positive output's value once per address it carries. Each fact is proved for one step of the
  inner loop (`accumulate`), lifted to one output (`groupOutput`), then to the whole loop by
  induction over the outputs.
Trusted boundary: none
Main exports: addressOutputTotal, mem_groupOutputsByAddress, amountAt_groupOutputsByAddress,
  entrySum_groupOutputsByAddress
-/

namespace MultichainIndexer.Bitcoin.Transaction

/-- The amount a map holds at `a`; zero when `a` is absent. -/
def amountAt (m : DecimalMap) (a : String) : Decimal := (m.lookup a).getD 0

/-- The sum of all amounts a map holds. -/
def entrySum (m : DecimalMap) : Decimal := (m.entries.map (·.2)).sum

/-- The amount the outputs `vouts` pay to `a`: each positive output's value, once per occurrence
of `a` among its addresses. -/
def addressOutputTotal (vouts : List Vout) (a : String) : Decimal :=
  ((vouts.filter fun v => 0 < v.value).map fun v =>
    ((extractAddresses v.scriptPubKey).count a : ℚ) * Decimal.newFromFloat v.value).sum

/-- Each positive output's value, once per address it carries. -/
def addressedOutputSum (vouts : List Vout) : Decimal :=
  ((vouts.filter fun v => 0 < v.value).map fun v =>
    ((extractAddresses v.scriptPubKey).length : ℚ) * Decimal.newFromFloat v.value).sum

@[simp] theorem amountAt_empty (a : String) : amountAt ∅ a = 0 := rfl

@[simp] theorem entrySum_empty : entrySum ∅ = 0 := rfl

theorem not_le_zero_iff {value : Float64} : ¬ value ≤ 0 ↔ 0 < value := by
  simp only [Float64.le_iff, Float64.lt_iff, Float64.zero_shortest, not_le]

/-! ### One step of the inner loop -/

theorem mem_accumulate {value : Decimal} {outputs : DecimalMap} {addr a : String} :
    a ∈ accumulate value outputs addr ↔ a = addr ∨ a ∈ outputs := by
  unfold accumulate
  split <;> exact AList.mem_insert _

theorem amountAt_accumulate (value : Decimal) (outputs : DecimalMap) (addr a : String) :
    amountAt (accumulate value outputs addr) a =
      amountAt outputs a + if a = addr then value else 0 := by
  unfold accumulate amountAt
  by_cases same : a = addr
  · subst same
    split <;> simp_all [AList.lookup_insert]
  · split <;> simp [same, AList.lookup_insert_ne]

/-- Storing `b` at `a` replaces the amount held there. -/
theorem entrySum_insert (m : DecimalMap) (a : String) (b : Decimal) :
    entrySum (m.insert a b) = entrySum m - amountAt m a + b := by
  unfold entrySum amountAt
  rw [AList.insert_entries]
  by_cases present : a ∈ m.entries.keys
  · obtain ⟨old, front, back, -, split, erased⟩ := List.exists_of_kerase present
    have stored : m.lookup a = some old :=
      AList.mem_lookup_iff.mpr (by rw [split]; simp)
    rw [erased, stored, split]
    simp
    ring
  · rw [List.kerase_of_not_mem_keys present, AList.lookup_eq_none.mpr present]
    simp
    ring

theorem entrySum_accumulate (value : Decimal) (outputs : DecimalMap) (addr : String) :
    entrySum (accumulate value outputs addr) = entrySum outputs + value := by
  unfold accumulate
  split <;> simp_all only [entrySum_insert, amountAt, Option.getD_some, Option.getD_none] <;> ring

/-! ### The inner loop over one output's addresses -/

theorem mem_foldl_accumulate (value : Decimal) (a : String) :
    ∀ (addresses : List String) (outputs : DecimalMap),
      a ∈ addresses.foldl (accumulate value) outputs ↔ a ∈ outputs ∨ a ∈ addresses
  | [], outputs => by simp
  | addr :: rest, outputs => by
    rw [List.foldl_cons, mem_foldl_accumulate value a rest, mem_accumulate]
    simp only [List.mem_cons]
    tauto

theorem amountAt_foldl_accumulate (value : Decimal) (a : String) :
    ∀ (addresses : List String) (outputs : DecimalMap),
      amountAt (addresses.foldl (accumulate value) outputs) a =
        amountAt outputs a + (addresses.count a : ℚ) * value
  | [], outputs => by simp
  | addr :: rest, outputs => by
    rw [List.foldl_cons, amountAt_foldl_accumulate value a rest, amountAt_accumulate,
      List.count_cons]
    by_cases same : a = addr
    · subst same
      simp
      ring
    · simp [same, Ne.symm same]

theorem entrySum_foldl_accumulate (value : Decimal) :
    ∀ (addresses : List String) (outputs : DecimalMap),
      entrySum (addresses.foldl (accumulate value) outputs) =
        entrySum outputs + (addresses.length : ℚ) * value
  | [], outputs => by simp
  | addr :: rest, outputs => by
    rw [List.foldl_cons, entrySum_foldl_accumulate value rest, entrySum_accumulate]
    simp
    ring

/-! ### One output -/

/-- A positive output accumulates its value at each of its addresses; the test for an empty
address list changes nothing, since the loop over no addresses leaves the map as it is. -/
theorem groupOutput_eq (outputs : DecimalMap) (vout : Vout) :
    groupOutput outputs vout =
      if 0 < vout.value then
        (extractAddresses vout.scriptPubKey).foldl (accumulate (Decimal.newFromFloat vout.value))
          outputs
      else outputs := by
  unfold groupOutput
  by_cases positive : 0 < vout.value
  · simp only [not_le_zero_iff.mpr positive, positive, if_false, if_true]
    split_ifs with noAddresses
    · rw [List.length_eq_zero.mp noAddresses, List.foldl_nil]
    · rfl
  · simp only [not_le_zero_iff.not_right.mpr positive, positive, if_true, if_false]

theorem mem_groupOutput {outputs : DecimalMap} {vout : Vout} {a : String} :
    a ∈ groupOutput outputs vout ↔
      a ∈ outputs ∨ (0 < vout.value ∧ a ∈ extractAddresses vout.scriptPubKey) := by
  rw [groupOutput_eq]
  split_ifs with positive
  · simp [mem_foldl_accumulate, positive]
  · simp [positive]

theorem amountAt_groupOutput (outputs : DecimalMap) (vout : Vout) (a : String) :
    amountAt (groupOutput outputs vout) a =
      amountAt outputs a + if 0 < vout.value then
        ((extractAddresses vout.scriptPubKey).count a : ℚ) * Decimal.newFromFloat vout.value
      else 0 := by
  rw [groupOutput_eq]
  split_ifs <;> simp [amountAt_foldl_accumulate]

theorem entrySum_groupOutput (outputs : DecimalMap) (vout : Vout) :
    entrySum (groupOutput outputs vout) =
      entrySum outputs + if 0 < vout.value then
        ((extractAddresses vout.scriptPubKey).length : ℚ) * Decimal.newFromFloat vout.value
      else 0 := by
  rw [groupOutput_eq]
  split_ifs <;> simp [entrySum_foldl_accumulate]

/-! ### The whole loop over `tx.Vout` -/

theorem mem_foldl_groupOutput (a : String) :
    ∀ (vouts : List Vout) (outputs : DecimalMap),
      a ∈ vouts.foldl groupOutput outputs ↔
        a ∈ outputs ∨ ∃ v ∈ vouts, 0 < v.value ∧ a ∈ extractAddresses v.scriptPubKey
  | [], outputs => by
    simp only [List.foldl_nil, List.not_mem_nil, false_and, exists_false, or_false]
  | vout :: rest, outputs => by
    rw [List.foldl_cons, mem_foldl_groupOutput a rest, mem_groupOutput]
    simp only [List.mem_cons, exists_eq_or_imp, or_assoc]

theorem amountAt_foldl_groupOutput (a : String) :
    ∀ (vouts : List Vout) (outputs : DecimalMap),
      amountAt (vouts.foldl groupOutput outputs) a =
        amountAt outputs a + addressOutputTotal vouts a
  | [], outputs => by simp [addressOutputTotal]
  | vout :: rest, outputs => by
    rw [List.foldl_cons, amountAt_foldl_groupOutput a rest, amountAt_groupOutput]
    by_cases positive : 0 < vout.value
    · simp only [addressOutputTotal, List.filter_cons, positive, decide_True, if_true,
        List.map_cons, List.sum_cons]
      ring
    · simp [addressOutputTotal, List.filter_cons, positive]

theorem entrySum_foldl_groupOutput :
    ∀ (vouts : List Vout) (outputs : DecimalMap),
      entrySum (vouts.foldl groupOutput outputs) = entrySum outputs + addressedOutputSum vouts
  | [], outputs => by simp [addressedOutputSum]
  | vout :: rest, outputs => by
    rw [List.foldl_cons, entrySum_foldl_groupOutput rest, entrySum_groupOutput]
    by_cases positive : 0 < vout.value
    · simp only [addressedOutputSum, List.filter_cons, positive, decide_True, if_true,
        List.map_cons, List.sum_cons]
      ring
    · simp [addressedOutputSum, List.filter_cons, positive]

/-- The keys of `GroupOutputsByAddress` are the addresses of the positive outputs. -/
theorem mem_groupOutputsByAddress (tx : Transaction) (a : String) :
    a ∈ tx.groupOutputsByAddress ↔
      ∃ v ∈ tx.vout, 0 < v.value ∧ a ∈ extractAddresses v.scriptPubKey := by
  simpa [AList.not_mem_empty] using mem_foldl_groupOutput a tx.vout ∅

/-- The amount `GroupOutputsByAddress` holds at an address. -/
theorem amountAt_groupOutputsByAddress (tx : Transaction) (a : String) :
    amountAt tx.groupOutputsByAddress a = addressOutputTotal tx.vout a := by
  simpa using amountAt_foldl_groupOutput a tx.vout ∅

/-- The amounts of `GroupOutputsByAddress` add up to each positive output once per address. -/
theorem entrySum_groupOutputsByAddress (tx : Transaction) :
    entrySum tx.groupOutputsByAddress = addressedOutputSum tx.vout := by
  simpa using entrySum_foldl_groupOutput tx.vout ∅

end MultichainIndexer.Bitcoin.Transaction
