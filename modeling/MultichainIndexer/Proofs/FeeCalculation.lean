import MultichainIndexer.Bitcoin.Tx
import Mathlib.Algebra.BigOperators.Group.List
import Mathlib.Tactic.NormNum

/-
Module: MultichainIndexer.Proofs.FeeCalculation
Purpose: What `CalculateFee` computes. The two totals are sums over the positive values
  (`calculateTotalInput_eq`, `calculateTotalOutput_eq`), and the fee is zero for a coinbase or
  when no input has a `PrevOut`, and otherwise the input total less the output total, clamped
  at zero (`calculateFee_eq`). The input total runs over the inputs that have a `PrevOut`, so a
  transaction with some inputs unresolved gets a fee from a partial input total.
Trusted boundary: none
Main exports: calculateTotalInput_eq, calculateTotalOutput_eq, calculateFee_eq
-/

namespace MultichainIndexer.Bitcoin.Transaction

/-- The values of the resolved inputs that are positive, as `CalculateTotalInput` adds them. -/
def resolvedInputValues (vins : List Vin) : List Decimal :=
  ((vins.filterMap (·.prevOut)).filter fun p => 0 < p.value).map
    fun p => Decimal.newFromFloat p.value

/-- The values of the positive outputs, as `CalculateTotalOutput` adds them. -/
def positiveOutputValues (vouts : List Vout) : List Decimal :=
  (vouts.filter fun v => 0 < v.value).map fun v => Decimal.newFromFloat v.value

theorem foldl_totalOutput :
    ∀ (vouts : List Vout) (total : Decimal),
      vouts.foldl (fun total vout =>
          if vout.value > 0 then total + Decimal.newFromFloat vout.value else total) total =
        total + (positiveOutputValues vouts).sum
  | [], total => by simp [positiveOutputValues]
  | vout :: rest, total => by
    rw [List.foldl_cons, foldl_totalOutput rest]
    by_cases positive : 0 < vout.value <;>
      simp [positiveOutputValues, List.filter_cons, positive, add_assoc]

theorem foldl_totalInput :
    ∀ (vins : List Vin) (total : Decimal),
      vins.foldl (fun total vin =>
          match vin.prevOut with
          | some prevOut =>
            if prevOut.value > 0 then total + Decimal.newFromFloat prevOut.value else total
          | none => total) total =
        total + (resolvedInputValues vins).sum
  | [], total => by simp [resolvedInputValues]
  | vin :: rest, total => by
    rw [List.foldl_cons, foldl_totalInput rest]
    rcases found : vin.prevOut with _ | prevOut
    · simp [resolvedInputValues, List.filterMap_cons, found]
    · by_cases positive : 0 < prevOut.value <;>
        simp [resolvedInputValues, List.filterMap_cons, List.filter_cons, found, positive,
          add_assoc]

theorem calculateTotalOutput_eq (tx : Transaction) :
    tx.calculateTotalOutput = (positiveOutputValues tx.vout).sum := by
  simpa using foldl_totalOutput tx.vout 0

theorem calculateTotalInput_eq (tx : Transaction) :
    tx.calculateTotalInput = (resolvedInputValues tx.vin).sum := by
  simpa using foldl_totalInput tx.vin 0

theorem hasPrevOutData_iff (tx : Transaction) :
    tx.hasPrevOutData = true ↔ tx.isCoinbase = false ∧ ∃ vin ∈ tx.vin, vin.prevOut.isSome := by
  cases coinbase : tx.isCoinbase <;> simp [hasPrevOutData, coinbase]

/-- The clamp `if fee.IsNegative() { return decimal.Zero }` is `max 0`. -/
theorem clamp_eq_max (fee : Decimal) : (if fee < 0 then 0 else fee) = max 0 fee := by
  split_ifs with negative
  · exact (max_eq_left negative.le).symm
  · exact (max_eq_right (not_lt.mp negative)).symm

/-- For every transaction the fee is non-negative; it is zero for a coinbase and when no input
has a `PrevOut`, and otherwise it is the sum of the positive resolved input values less the sum
of the positive output values, clamped at zero. Unresolved inputs contribute nothing to the
input sum, so one resolved input is enough for a fee from a partial total. -/
theorem calculateFee_eq (tx : Transaction) :
    0 ≤ tx.calculateFee ∧
      tx.calculateFee =
        if tx.isCoinbase = false ∧ ∃ vin ∈ tx.vin, vin.prevOut.isSome then
          max 0
            ((((tx.vin.filterMap (·.prevOut)).filter fun p => 0 < p.value).map
                fun p => Decimal.newFromFloat p.value).sum -
              ((tx.vout.filter fun v => 0 < v.value).map
                fun v => Decimal.newFromFloat v.value).sum)
        else 0 := by
  have value : tx.calculateFee =
      if tx.isCoinbase = false ∧ ∃ vin ∈ tx.vin, vin.prevOut.isSome then
        max 0 ((resolvedInputValues tx.vin).sum - (positiveOutputValues tx.vout).sum)
      else 0 := by
    unfold calculateFee
    rw [calculateTotalInput_eq, calculateTotalOutput_eq, clamp_eq_max]
    by_cases resolved : tx.hasPrevOutData = true
    · have := (hasPrevOutData_iff tx).mp resolved
      simp [this, resolved]
    · rw [if_neg (mt (hasPrevOutData_iff tx).mpr resolved)]
      cases coinbase : tx.isCoinbase <;> simp [coinbase, resolved]
  refine ⟨?_, value⟩
  rw [value]
  split_ifs <;> simp

/-- A spend with one input resolved to two and one unresolved, paying one. -/
def partlyResolvedTx : Transaction :=
  { txid := "r"
    vin := [{ txid := "p", vout := 0, coinbase := "", prevOut := some ⟨⟨2⟩, ⟨"A", []⟩⟩ },
      { txid := "q", vout := 0, coinbase := "", prevOut := none }]
    vout := [⟨⟨1⟩, ⟨"B", []⟩⟩] }

/-- `partlyResolvedTx` has a non-zero fee although one of its inputs has no `PrevOut`. -/
theorem partlyResolvedTx_fee :
    partlyResolvedTx.calculateFee ≠ 0 ∧ ¬ ∀ vin ∈ partlyResolvedTx.vin, vin.prevOut.isSome := by
  refine ⟨?_, by decide⟩
  have inputs : resolvedInputValues partlyResolvedTx.vin = [2] := by decide
  have outputs : positiveOutputValues partlyResolvedTx.vout = [1] := by decide
  have resolved : partlyResolvedTx.hasPrevOutData = true := by decide
  have regular : partlyResolvedTx.isCoinbase = false := by decide
  simp only [calculateFee, regular, resolved, calculateTotalInput_eq, calculateTotalOutput_eq,
    inputs, outputs]
  norm_num

end MultichainIndexer.Bitcoin.Transaction
