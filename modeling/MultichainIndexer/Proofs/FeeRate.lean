import Mathlib.Tactic.Linarith
import Mathlib.Tactic.Positivity
import MultichainIndexer.Bitcoin.Fee

/-
Module: MultichainIndexer.Proofs.FeeRate
Purpose: What the helpers of the fee file compute. With a non-zero divisor, `DivRound` is the
  exact quotient rounded half away from zero to `precision` places (`divRound_eq`), so it is off by
  at most half a unit in the last place, it keeps a quotient that already fits, and it is monotone
  on non-negative quotients. Hence satoshis converted to BTC and back are unchanged exactly when
  they are whole satoshis (`btcToSatoshi_satoshiToBTC`), BTC converted to satoshis and back exactly
  when they fit in 16 places (`satoshiToBTC_btcToSatoshi`), the fee rate is within `10^-16/2` of
  the exact rate (`calculateFeeRate_error`), and a larger fee at the same size never gets a lower
  priority (`estimateFeePriority_fee_mono`).
Trusted boundary: none
Main exports: roundHalfAway, divRound_eq, abs_roundHalfAway_sub_le, roundHalfAway_eq_self_iff,
  calculateFeeRate_eq, btcToSatoshi_satoshiToBTC, satoshiToBTC_btcToSatoshi,
  calculateFeeRate_error, priorityRank, estimateFeePriority_fee_mono
-/

namespace MultichainIndexer

/-- The integer `DivRound` keeps, in units of its last place, for the exact quotient `y` in those
units: the truncation toward zero, moved one unit away from zero when the dropped part is one half
or more. -/
def roundHalfAway (y : ℚ) : ℤ :=
  let t : ℤ := if 0 ≤ y then ⌊y⌋ else ⌈y⌉
  if |y - t| < 1 / 2 then t else if y < 0 then t - 1 else t + 1

/-- `DivRound` by a non-zero divisor rounds the exact quotient, in units of its last place, half
away from zero. -/
theorem divRound_eq {d d2 : Decimal} (nonzero : d2 ≠ 0) (precision : Nat) :
    d.divRound d2 precision = roundHalfAway (d / d2 * 10 ^ precision) / 10 ^ precision := by
  have scale : (0 : ℚ) < 10 ^ precision := by positivity
  set x := d / d2 * 10 ^ precision with quotient
  have sign : d * d2 < 0 ↔ x < 0 := by
    rw [mul_neg_iff, ← div_neg_iff]
    exact ⟨fun neg => mul_neg_of_neg_of_pos neg scale,
      fun neg => lt_of_not_le fun nonneg => neg.not_le (mul_nonneg nonneg scale.le)⟩
  have dividend : d = d2 * x / 10 ^ precision := by
    rw [quotient, ← mul_assoc, mul_div_cancel_right₀ _ scale.ne', mul_div_cancel₀ _ nonzero]
  have half : ∀ t : ℚ,
      2 * |d - d2 * (t / 10 ^ precision)| * 10 ^ precision < |d2| ↔ |x - t| < 1 / 2 := by
    intro t
    have remainder : 2 * |d - d2 * (t / 10 ^ precision)| * 10 ^ precision =
        |d2| * (2 * |x - t|) := by
      rw [dividend, show d2 * x / 10 ^ precision - d2 * (t / 10 ^ precision) =
        d2 * (x - t) / 10 ^ precision by ring, abs_div, abs_mul, abs_of_pos scale, mul_assoc,
        div_mul_cancel₀ _ scale.ne']
      ring
    rw [remainder, mul_lt_iff_lt_one_right (abs_pos.mpr nonzero)]
    constructor <;> intro <;> linarith
  simp only [Decimal.divRound, roundHalfAway, ← quotient, half, sign]
  split_ifs <;> push_cast <;> ring

section Rounding

variable {y : ℚ}

theorem roundHalfAway_of_nonneg (nonneg : 0 ≤ y) : roundHalfAway y = ⌊y + 1 / 2⌋ := by
  have below := Int.floor_le y
  have above := Int.lt_floor_add_one y
  simp only [roundHalfAway, if_pos nonneg, abs_of_nonneg (sub_nonneg.mpr below),
    if_neg (not_lt.mpr nonneg)]
  split_ifs with close
  · exact (Int.floor_eq_iff.mpr ⟨by linarith, by linarith⟩).symm
  · exact (Int.floor_eq_iff.mpr ⟨by push_cast; linarith, by push_cast; linarith⟩).symm

theorem roundHalfAway_of_neg (neg : y < 0) : roundHalfAway y = ⌈y - 1 / 2⌉ := by
  have above := Int.le_ceil y
  have below := Int.ceil_lt_add_one y
  simp only [roundHalfAway, if_neg (not_le.mpr neg), abs_sub_comm y,
    abs_of_nonneg (sub_nonneg.mpr above), if_pos neg]
  split_ifs with close
  · exact (Int.ceil_eq_iff.mpr ⟨by linarith, by linarith⟩).symm
  · exact (Int.ceil_eq_iff.mpr ⟨by push_cast; linarith, by push_cast; linarith⟩).symm

/-- The rounded quotient is within half a unit of the exact one. -/
theorem abs_roundHalfAway_sub_le (y : ℚ) : |(roundHalfAway y : ℚ) - y| ≤ 1 / 2 := by
  rcases le_or_lt 0 y with nonneg | neg
  · rw [roundHalfAway_of_nonneg nonneg, ← round_eq, abs_sub_comm]
    exact abs_sub_round y
  · rw [roundHalfAway_of_neg neg, show y - 1 / 2 = -(-y + 1 / 2) by ring, Int.ceil_neg,
      ← round_eq, Int.cast_neg, show -(round (-y) : ℚ) - y = -y - round (-y) by ring]
    exact abs_sub_round (-y)

/-- The rounding keeps exactly the quotients that need no rounding. -/
theorem roundHalfAway_eq_self_iff : (roundHalfAway y : ℚ) = y ↔ ∃ n : ℤ, y = n := by
  refine ⟨fun kept => ⟨_, kept.symm⟩, ?_⟩
  rintro ⟨n, rfl⟩
  simp [roundHalfAway]

theorem roundHalfAway_mono {y' : ℚ} (nonneg : 0 ≤ y) (le : y ≤ y') :
    roundHalfAway y ≤ roundHalfAway y' := by
  rw [roundHalfAway_of_nonneg nonneg, roundHalfAway_of_nonneg (nonneg.trans le)]
  exact Int.floor_mono (add_le_add_right le _)

end Rounding

namespace Bitcoin

/-! ### Conversions -/

theorem satoshiToBTC_eq (satoshi : Decimal) :
    satoshiToBTC satoshi = roundHalfAway (satoshi * 10 ^ 8) / 10 ^ 16 := by
  rw [satoshiToBTC, Decimal.div, divRound_eq (by norm_num [btcToSatoshiFactor]),
    show satoshi / btcToSatoshiFactor * 10 ^ divisionPrecision = satoshi * 10 ^ 8 by
      unfold btcToSatoshiFactor divisionPrecision; ring]
  rfl

/-- For every amount of satoshis, converting it to BTC and back gives it again exactly when it is
a whole number of hundred-millionths of a satoshi, that is, it has at most 8 decimal places. -/
theorem btcToSatoshi_satoshiToBTC (satoshi : Decimal) :
    btcToSatoshi (satoshiToBTC satoshi) = satoshi ↔ ∃ n : ℤ, satoshi * 10 ^ 8 = n := by
  rw [btcToSatoshi, satoshiToBTC_eq,
    show (roundHalfAway (satoshi * 10 ^ 8) : ℚ) / 10 ^ 16 * btcToSatoshiFactor =
      roundHalfAway (satoshi * 10 ^ 8) / 10 ^ 8 by unfold btcToSatoshiFactor; ring,
    div_eq_iff (by positivity), roundHalfAway_eq_self_iff]

/-- For every amount of BTC, converting it to satoshis and back gives it again exactly when it has
at most 16 decimal places, the precision of `Div`. -/
theorem satoshiToBTC_btcToSatoshi (btc : Decimal) :
    satoshiToBTC (btcToSatoshi btc) = btc ↔ ∃ n : ℤ, btc * 10 ^ 16 = n := by
  rw [satoshiToBTC_eq, btcToSatoshi,
    show btc * btcToSatoshiFactor * 10 ^ 8 = btc * 10 ^ 16 by unfold btcToSatoshiFactor; ring,
    div_eq_iff (by positivity), roundHalfAway_eq_self_iff]

/-! ### The fee rate -/

theorem calculateFee_nonneg (tx : Transaction) : 0 ≤ tx.calculateFee := by
  simp only [Transaction.calculateFee]
  split_ifs with _ _ negative <;> first | exact le_rfl | exact not_lt.mp negative

/-- With a non-zero size, the fee rate is the fee in satoshis per byte rounded half away from
zero to 16 places; a zero fee gives zero either way. -/
theorem calculateFeeRate_eq (tx : Transaction) {vsize : Int} (nonzero : vsize ≠ 0) :
    tx.calculateFeeRate vsize =
      roundHalfAway (tx.calculateFee * btcToSatoshiFactor / vsize * 10 ^ 16) / 10 ^ 16 := by
  simp only [Transaction.calculateFeeRate]
  split_ifs with zero
  · rcases zero with fee | size
    · simp [fee, roundHalfAway]
    · exact absurd size nonzero
  · exact divRound_eq (by exact_mod_cast nonzero) _

/-- For every transaction and every non-zero size, `CalculateFeeRate` is within half a unit of
the 16th decimal place of the exact rate, the fee in satoshis divided by the size. -/
theorem calculateFeeRate_error (tx : Transaction) {vsize : Int} (nonzero : vsize ≠ 0) :
    |tx.calculateFeeRate vsize - tx.calculateFee * 100000000 / vsize| ≤ 1 / (2 * 10 ^ 16) := by
  have scale : (0 : ℚ) < 10 ^ 16 := by positivity
  have exact : tx.calculateFee * 100000000 / vsize =
      tx.calculateFee * btcToSatoshiFactor / vsize * 10 ^ 16 / 10 ^ 16 :=
    (mul_div_cancel_right₀ _ scale.ne').symm
  rw [calculateFeeRate_eq tx nonzero, exact, ← sub_div, abs_div, abs_of_pos scale]
  calc |(roundHalfAway _ : ℚ) - _| / 10 ^ 16
      _ ≤ 1 / 2 / 10 ^ 16 := div_le_div_of_nonneg_right (abs_roundHalfAway_sub_le _) scale.le
      _ = 1 / (2 * 10 ^ 16) := by ring

/-- A spend of 0.001 BTC from one resolved input, paying `paid` BTC to one address. -/
def spendTx (paid : ℚ) : Transaction :=
  { txid := "s"
    vin := [{ txid := "p", vout := 0, coinbase := "", prevOut := some ⟨⟨1 / 1000⟩, ⟨"A", []⟩⟩ }]
    vout := [⟨⟨paid⟩, ⟨"B", []⟩⟩] }

/-- Its fee is what it does not pay out. -/
theorem spendTx_calculateFee {paid : ℚ} (pos : 0 < paid) (le : paid ≤ 1 / 1000) :
    (spendTx paid).calculateFee = 1 / 1000 - paid := by
  have regular : (spendTx paid).isCoinbase = false := rfl
  have resolved : (spendTx paid).hasPrevOutData = true := rfl
  rw [Transaction.calculateFee, regular, resolved]
  simp only [Transaction.calculateTotalInput, Transaction.calculateTotalOutput, spendTx,
    List.foldl, Decimal.newFromFloat, gt_iff_lt, Float64.lt_iff, Float64.zero_shortest, pos,
    if_pos (show (0 : ℚ) < 1 / 1000 by norm_num), if_true, zero_add, Bool.false_eq_true,
    Bool.not_true, if_false]
  rw [if_neg (by linarith)]

/-- Paying 0.0009 BTC leaves a fee of 10000 satoshis, whose rate at 141 virtual bytes is within
the bound. -/
theorem spendTx_feeRate_error :
    (spendTx (9 / 10000)).calculateFee = 1 / 10000 ∧ (141 : Int) ≠ 0 ∧
      |(spendTx (9 / 10000)).calculateFeeRate 141 -
          (spendTx (9 / 10000)).calculateFee * 100000000 / (141 : Int)| ≤ 1 / (2 * 10 ^ 16) :=
  ⟨by rw [spendTx_calculateFee (by norm_num) (by norm_num)]; norm_num, by decide,
    calculateFeeRate_error _ (by decide)⟩

theorem calculateFeeRate_mono {tx tx' : Transaction} {vsize : Int} (pos : 0 < vsize)
    (le : tx.calculateFee ≤ tx'.calculateFee) :
    tx.calculateFeeRate vsize ≤ tx'.calculateFeeRate vsize := by
  rw [calculateFeeRate_eq tx pos.ne', calculateFeeRate_eq tx' pos.ne']
  have size : (0 : ℚ) < vsize := by exact_mod_cast pos
  have nonneg : 0 ≤ tx.calculateFee * btcToSatoshiFactor / vsize * 10 ^ 16 := by
    have := calculateFee_nonneg tx
    unfold btcToSatoshiFactor
    positivity
  have grows : tx.calculateFee * btcToSatoshiFactor / vsize * 10 ^ 16 ≤
      tx'.calculateFee * btcToSatoshiFactor / vsize * 10 ^ 16 :=
    mul_le_mul_of_nonneg_right (div_le_div_of_nonneg_right
      (mul_le_mul_of_nonneg_right le (by unfold btcToSatoshiFactor; positivity)) size.le)
      (by positivity)
  exact div_le_div_of_nonneg_right (by exact_mod_cast roundHalfAway_mono nonneg grows)
    (by positivity)

/-! ### Priorities -/

/-- The order of the four priorities: `"very_low"` below `"low"` below `"medium"` below
`"high"`. -/
def priorityRank (priority : String) : Nat :=
  if priority = "high" then 3 else if priority = "medium" then 2 else if priority = "low" then 1
  else 0

/-- The rank of the priority counts the thresholds the rate reaches. -/
theorem priorityRank_estimateFeePriority (rate : Decimal) :
    priorityRank (estimateFeePriority rate) =
      (if 100 ≤ rate then 1 else 0) + (if 50 ≤ rate then 1 else 0) +
        if 10 ≤ rate then 1 else 0 := by
  unfold estimateFeePriority
  split_ifs <;> first | decide | (exfalso; linarith)

theorem threshold_mono {rate rate' : Decimal} (le : rate ≤ rate') (threshold : Decimal) :
    (if threshold ≤ rate then 1 else 0) ≤ if threshold ≤ rate' then 1 else 0 := by
  split_ifs with reached reached'
  exacts [le_rfl, absurd (reached.trans le) reached', Nat.zero_le _, le_rfl]

theorem estimateFeePriority_mono {rate rate' : Decimal} (le : rate ≤ rate') :
    priorityRank (estimateFeePriority rate) ≤ priorityRank (estimateFeePriority rate') := by
  rw [priorityRank_estimateFeePriority, priorityRank_estimateFeePriority]
  exact Nat.add_le_add (Nat.add_le_add (threshold_mono le 100) (threshold_mono le 50))
    (threshold_mono le 10)

/-- For every two transactions and every positive size, the one with the larger fee never gets a
lower `EstimateFeePriority` of its `CalculateFeeRate`. -/
theorem estimateFeePriority_fee_mono {tx tx' : Transaction} {vsize : Int} (pos : 0 < vsize)
    (le : tx.calculateFee ≤ tx'.calculateFee) :
    priorityRank (estimateFeePriority (tx.calculateFeeRate vsize)) ≤
      priorityRank (estimateFeePriority (tx'.calculateFeeRate vsize)) :=
  estimateFeePriority_mono (calculateFeeRate_mono pos le)

/-- Fees of 10000 and 20000 satoshis at 141 virtual bytes. -/
theorem spendTx_priority_mono :
    (0 : Int) < 141 ∧ (spendTx (9 / 10000)).calculateFee ≤ (spendTx (8 / 10000)).calculateFee ∧
      priorityRank (estimateFeePriority ((spendTx (9 / 10000)).calculateFeeRate 141)) ≤
        priorityRank (estimateFeePriority ((spendTx (8 / 10000)).calculateFeeRate 141)) :=
  have fees : (spendTx (9 / 10000)).calculateFee ≤ (spendTx (8 / 10000)).calculateFee := by
    rw [spendTx_calculateFee (by norm_num) (by norm_num),
      spendTx_calculateFee (by norm_num) (by norm_num)]
    norm_num
  ⟨by decide, fees, estimateFeePriority_fee_mono (by decide) fees⟩

end Bitcoin

end MultichainIndexer
