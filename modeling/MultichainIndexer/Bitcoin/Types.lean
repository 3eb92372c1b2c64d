import Mathlib.Data.List.AList
import Mathlib.Data.Rat.Defs
import Mathlib.Algebra.Order.Ring.Rat

/-
Module: MultichainIndexer.Bitcoin.Types
Purpose: The data model of the Bitcoin pipeline: the RPC records of
  `internal/rpc/bitcoin/types.go`, the normalized transfer record the extractor emits, and the
  two library values the code computes with (`decimal.Decimal` amounts and decoded `float64`s).
  A Go map that the code ranges over is an association list together with a `MapOrder`, the
  order one `range` loop happens to visit it in.
Trusted boundary: the representation choices documented on `Decimal`, `Float64` and `MapOrder`.
Main exports: Decimal, Float64, Decimal.newFromFloat, ScriptPubKey, PrevOut, Vin, Vout,
  Transaction, Block, Types.TxnType, Types.Transaction, DecimalMap, MapOrder
-/

namespace MultichainIndexer

/-- A `shopspring/decimal` value. Every operation the code applies to one (`Add`, `Sub`,
`IsZero`, `IsNegative`, comparison) is exact on arbitrary-precision decimals, so the model keeps
the rational number a decimal denotes. -/
abbrev Decimal := ℚ

/-- A `float64` decoded from Bitcoin Core's JSON. JSON has no NaN or infinities, so the value is
finite, and it is represented by the shortest decimal that reads back as it: that decimal is what
`decimal.NewFromFloat` returns, it has the float's sign, and distinct floats have distinct ones.
The code only compares these values with zero, copies them, and passes them to `NewFromFloat`. -/
structure Float64 where
  shortest : ℚ
deriving DecidableEq, Repr

namespace Float64

instance : OfNat Float64 0 := ⟨⟨0⟩⟩
instance : LE Float64 := ⟨fun a b => a.shortest ≤ b.shortest⟩
instance : LT Float64 := ⟨fun a b => a.shortest < b.shortest⟩

instance (a b : Float64) : Decidable (a ≤ b) := inferInstanceAs (Decidable (a.shortest ≤ b.shortest))
instance (a b : Float64) : Decidable (a < b) := inferInstanceAs (Decidable (a.shortest < b.shortest))

@[simp] theorem zero_shortest : (0 : Float64).shortest = 0 := rfl
theorem le_iff {a b : Float64} : a ≤ b ↔ a.shortest ≤ b.shortest := Iff.rfl
theorem lt_iff {a b : Float64} : a < b ↔ a.shortest < b.shortest := Iff.rfl

end Float64

/-- `decimal.NewFromFloat`: the decimal a float denotes (see `Float64`). -/
def Decimal.newFromFloat (value : Float64) : Decimal := value.shortest

namespace Bitcoin

/-- `ScriptPubKey`, with the two address fields the code reads (`Asm`, `Hex`, `ReqSigs` and
`Type` are read by no modelled function). -/
structure ScriptPubKey where
  address : String
  addresses : List String
deriving DecidableEq, Repr

/-- `PrevOut`: the spent output, attached by verbosity 3 or by the enrichment. -/
structure PrevOut where
  value : Float64
  scriptPubKey : ScriptPubKey
deriving DecidableEq, Repr

/-- `Vin`, with the fields the extractor and the enrichment read. `prevOut = none` is a nil
`*PrevOut`. -/
structure Vin where
  txid : String
  vout : UInt32
  coinbase : String
  prevOut : Option PrevOut
deriving DecidableEq, Repr

/-- `Vout`; its index `N` is read by no modelled function. -/
structure Vout where
  value : Float64
  scriptPubKey : ScriptPubKey
deriving DecidableEq, Repr

/-- `Transaction` as `getblock` and `getrawtransaction` return it. -/
structure Transaction where
  txid : String
  vin : List Vin
  vout : List Vout
deriving DecidableEq, Repr

/-- `Block`, with the fields `processBlock` and the enrichment read; the `int64` fields are
integers. -/
structure Block where
  hash : String
  height : Int
  time : Int
  previousBlockHash : String
  tx : List Transaction
deriving DecidableEq, Repr

end Bitcoin

namespace Types

/-- Modelled from the spec: the transfer kinds `constant.TxnTypeMining` and
`constant.TxnTypeTransfer` of `pkg/common/constant`, the two values a normalized transfer's
`type` takes. -/
inductive TxnType where
  | mining
  | transfer
deriving DecidableEq, Repr

/-- Modelled from the spec: the normalized transfer record `types.Transaction` of
`pkg/common/types` (spec §3, `NormalizedTransfer`). The code stores `Amount` as
`value.String()`; the model keeps the decimal that string prints, since `String()` prints each
decimal value one way. -/
structure Transaction where
  txHash : String
  networkId : String
  blockNumber : UInt64
  fromAddress : String
  toAddress : String
  assetAddress : String
  amount : Decimal
  type : TxnType
  txFee : Decimal
  timestamp : UInt64
deriving DecidableEq, Repr

/-- Modelled from the spec: the normalized block `types.Block` of `pkg/common/types`, with the
fields `processBlock` fills. -/
structure Block where
  number : UInt64
  hash : String
  parentHash : String
  timestamp : UInt64
  transactions : List Transaction
deriving DecidableEq, Repr

end Types

/-- A Go `map[string]decimal.Decimal`. Mathlib's association list keeps one entry per key as a
field, which is what a Go map guarantees; the order of `entries` carries no meaning. -/
abbrev DecimalMap := AList fun _ : String => Decimal

/-- One entry visited by `for key, value := range m`. -/
abbrev DecimalEntry := Σ _ : String, Decimal

/-- The order of one `range` loop over a Go map. The runtime visits every entry exactly once, in
an order it draws afresh for each loop; `arrange` is that order applied to the map's entries.
Any permutation of any entry list is some `MapOrder`'s arrangement, so a statement over every
`MapOrder` is a statement over every order the runtime can draw. -/
structure MapOrder (α : Type) where
  arrange : List α → List α
  arrange_perm : ∀ entries, List.Perm (arrange entries) entries

namespace MapOrder

/-- The order of the stored entry list. -/
def stored (α : Type) : MapOrder α := ⟨id, fun _ => List.Perm.refl _⟩

/-- The reverse of the storage order. -/
def reversed (α : Type) : MapOrder α := ⟨List.reverse, List.reverse_perm⟩

end MapOrder

end MultichainIndexer
