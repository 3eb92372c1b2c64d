import Mathlib.Algebra.Order.Floor
import Mathlib.Data.Rat.Floor
import MultichainIndexer.Bitcoin.Tx

/-
Module: MultichainIndexer.Bitcoin.Fee
Purpose: The rest of the package's fee file: `CalculateFeeRate`, `BTCToSatoshi`, `SatoshiToBTC`
  and `EstimateFeePriority`, with the two `shopspring/decimal` operations they use beyond exact
  arithmetic. `Mul` is exact; `Div` is `DivRound` at `DivisionPrecision = 16` places, which
  truncates the quotient toward zero with `QuoRem` and then rounds half away from zero.
Trusted boundary: `DivRound` and `QuoRem` are modelled from the library's definitions, which are
  not in this repository. `Div` panics on a zero divisor; no modelled caller divides by zero, and
  the model does not represent the panic.
Main exports: btcToSatoshiFactor, divisionPrecision, Decimal.divRound, Decimal.div,
  Transaction.calculateFeeRate, btcToSatoshi, satoshiToBTC, estimateFeePriority
-/

namespace MultichainIndexer

/-- `DivisionPrecision`, the number of decimal places `Div` keeps. -/
def divisionPrecision : Nat := 16

/-- `DivRound(d2, precision)`. `QuoRem(d2, precision)` returns the quotient `q` truncated toward
zero to a multiple of `10^-precision` and the remainder `r = d - d2*q`; the result is `q` when
`2*|r|*10^precision < |d2|`, and otherwise `q` moved by `10^-precision` away from zero, down when
`d` and `d2` have opposite signs. -/
def Decimal.divRound (d d2 : Decimal) (precision : Nat) : Decimal :=
  let x := d / d2 * 10 ^ precision
  let q : Decimal := ((if 0 ≤ x then ⌊x⌋ else ⌈x⌉ : Int) : Decimal) / 10 ^ precision
  let r := d - d2 * q
  if 2 * |r| * 10 ^ precision < |d2| then q
  else if d * d2 < 0 then q - 1 / 10 ^ precision
  else q + 1 / 10 ^ precision

/-- `Div`: `DivRound` at `DivisionPrecision`. -/
def Decimal.div (d d2 : Decimal) : Decimal := d.divRound d2 divisionPrecision

namespace Bitcoin

/-- `BTC_TO_SATOSHI`. -/
def btcToSatoshiFactor : Decimal := 100000000

/-- `CalculateFeeRate`, with `vsize` the transaction's `Vsize` field, an `int64` the model's
`Transaction` does not carry: zero for a zero fee or a zero size, else the fee in satoshis
divided by the size. -/
def Transaction.calculateFeeRate (tx : Transaction) (vsize : Int) : Decimal :=
  let fee := tx.calculateFee
  if fee = 0 ∨ vsize = 0 then 0
  else
    let feeSatoshis := fee * btcToSatoshiFactor
    feeSatoshis.div vsize

/-- `BTCToSatoshi`. -/
def btcToSatoshi (btc : Decimal) : Decimal := btc * btcToSatoshiFactor

/-- `SatoshiToBTC`. -/
def satoshiToBTC (satoshi : Decimal) : Decimal := satoshi.div btcToSatoshiFactor

/-- `EstimateFeePriority`: the first threshold of 100, 50 and 10 sat/vB the rate reaches. -/
def estimateFeePriority (feeRateSatPerVByte : Decimal) : String :=
  if feeRateSatPerVByte ≥ 100 then "high"
  else if feeRateSatPerVByte ≥ 50 then "medium"
  else if feeRateSatPerVByte ≥ 10 then "low"
  else "very_low"

end Bitcoin

end MultichainIndexer
