import MultichainIndexer.Bitcoin.Address

/-
Module: MultichainIndexer.Bitcoin.Tx
Purpose: The transaction functions of `internal/rpc/bitcoin/tx.go`: coinbase detection, the
  input-address scan, the grouping of outputs by address, the transfer extractor with its
  coinbase path, regular path and fallback, the input/output totals and `CalculateFee`.
Trusted boundary: none
Main exports: Transaction.isCoinbase, Transaction.extractInputAddresses,
  Transaction.groupOutputsByAddress, Transaction.extractTransfers, Transaction.hasPrevOutData,
  Transaction.calculateTotalInput, Transaction.calculateTotalOutput, Transaction.calculateFee
-/

namespace MultichainIndexer.Bitcoin

/-!
The extractor's regular path ranges over the map `GroupOutputsByAddress` returns, so its result
depends on the order of that loop. `extractTransfers` therefore takes a `MapOrder`: the loop
visits `order.arrange` of the map's entries. The regular path and its fallback run the same loop
body, with a flag `feeAssigned` that attaches the fee to the first visited output passing a test;
the fallback's test is always true, so `rangeOutputs` is that loop with the change test as a
parameter and the fallback passes the test that never reports change.
-/

namespace Transaction

/-- `IsCoinbase`: the first input carries a coinbase script. -/
def isCoinbase (tx : Transaction) : Bool :=
  match tx.vin with
  | [] => false
  | first :: _ => first.coinbase ≠ ""

/-- The locals of `ExtractInputAddresses`: the `addressSet` map (absent keys read `false`) and
the `addresses` slice. -/
structure InputAddressScan where
  addressSet : String → Bool
  addresses : List String

/-- The body of the inner loop: a new address is marked and appended. -/
def InputAddressScan.add (scan : InputAddressScan) (addr : String) : InputAddressScan :=
  if !scan.addressSet addr then
    { addressSet := fun a => a = addr || scan.addressSet a
      addresses := scan.addresses ++ [addr] }
  else scan

/-- The body of the loop over `tx.Vin`. -/
def InputAddressScan.visit (scan : InputAddressScan) (vin : Vin) : InputAddressScan :=
  if vin.coinbase ≠ "" then scan
  else
    match vin.prevOut with
    | some prevOut => (extractAddresses prevOut.scriptPubKey).foldl InputAddressScan.add scan
    | none => scan

/-- `ExtractInputAddresses`. -/
def extractInputAddresses (tx : Transaction) : List String :=
  (tx.vin.foldl InputAddressScan.visit ⟨fun _ => false, []⟩).addresses

/-- The body of the inner loop of `GroupOutputsByAddress`: `outputs[addr]` gains `value`, or is
set to it when absent. -/
def accumulate (value : Decimal) (outputs : DecimalMap) (addr : String) : DecimalMap :=
  match outputs.lookup addr with
  | some existing => outputs.insert addr (existing + value)
  | none => outputs.insert addr value

/-- The body of the loop over `tx.Vout` in `GroupOutputsByAddress`. -/
def groupOutput (outputs : DecimalMap) (vout : Vout) : DecimalMap :=
  if vout.value ≤ 0 then outputs
  else
    let addresses := extractAddresses vout.scriptPubKey
    if addresses.length = 0 then outputs
    else addresses.foldl (accumulate (Decimal.newFromFloat vout.value)) outputs

/-- `GroupOutputsByAddress`. -/
def groupOutputsByAddress (tx : Transaction) : DecimalMap :=
  tx.vout.foldl groupOutput ∅

/-- `CalculateTotalOutput`. -/
def calculateTotalOutput (tx : Transaction) : Decimal :=
  tx.vout.foldl (fun total vout =>
    if vout.value > 0 then total + Decimal.newFromFloat vout.value else total) 0

/-- `CalculateTotalInput`. -/
def calculateTotalInput (tx : Transaction) : Decimal :=
  tx.vin.foldl (fun total vin =>
    match vin.prevOut with
    | some prevOut =>
      if prevOut.value > 0 then total + Decimal.newFromFloat prevOut.value else total
    | none => total) 0

/-- `HasPrevOutData`: not coinbase, and some input has a `PrevOut`. -/
def hasPrevOutData (tx : Transaction) : Bool :=
  if tx.isCoinbase then false
  else tx.vin.any fun vin => vin.prevOut.isSome

/-- `CalculateFee` (the package's fee file): total input minus total output, zero for a
coinbase, without prevout data, or when the difference is negative. -/
def calculateFee (tx : Transaction) : Decimal :=
  if tx.isCoinbase then 0
  else if !tx.hasPrevOutData then 0
  else
    let fee := tx.calculateTotalInput - tx.calculateTotalOutput
    if fee < 0 then 0 else fee

section Extract

variable (tx : Transaction) (networkID : String) (blockNum timestamp : UInt64)

/-- The record literal both paths of `ExtractTransfers` build, with `TxFee: decimal.Zero`. -/
def transferRecord (fromAddr toAddr : String) (amount : Decimal) (txType : Types.TxnType) :
    Types.Transaction :=
  { txHash := tx.txid
    networkId := networkID
    blockNumber := blockNum
    fromAddress := fromAddr
    toAddress := toAddr
    assetAddress := ""
    amount := amount
    type := txType
    txFee := 0
    timestamp := timestamp }

/-- The coinbase path: one mining transfer per address of each positive output. -/
def coinbaseTransfers : List Vout → List Types.Transaction
  | [] => []
  | vout :: rest =>
    if vout.value ≤ 0 then coinbaseTransfers rest
    else
      let addresses := extractAddresses vout.scriptPubKey
      if addresses.length = 0 then coinbaseTransfers rest
      else
        addresses.map (fun addr =>
            transferRecord tx networkID blockNum timestamp "coinbase" addr
              (Decimal.newFromFloat vout.value) .mining) ++
          coinbaseTransfers rest

/-- The loop `for addr, value := range outputsByAddress` of the regular path and of the
fallback, over the entries in the order visited, with the flag `feeAssigned` threaded through.
The fee goes to the first visited output that `isChange` does not flag, when it is non-zero. -/
def rangeOutputs (fromAddr : String) (isChange : String → Bool) (fee : Decimal) :
    Bool → List DecimalEntry → List Types.Transaction
  | _, [] => []
  | feeAssigned, ⟨addr, value⟩ :: rest =>
    let change := isChange addr
    let txType := if change then Types.TxnType.transfer else .transfer
    let tr := transferRecord tx networkID blockNum timestamp fromAddr addr value txType
    if !feeAssigned && !change && fee ≠ 0 then
      { tr with txFee := fee } :: rangeOutputs fromAddr isChange fee true rest
    else tr :: rangeOutputs fromAddr isChange fee feeAssigned rest

/-- `fromAddr` of the regular path: the first input address, or
`fmt.Sprintf("%s+%d_more", first, n-1)` when there are `n > 1`. -/
def fromAddressOf (inputAddresses : List String) : String :=
  let first := inputAddresses.headD ""
  if inputAddresses.length > 1 then
    first ++ "+" ++ toString (inputAddresses.length - 1) ++ "_more"
  else first

/-- `ExtractTransfers`, with the order the `range` over `outputsByAddress` takes. -/
def extractTransfers (fee : Decimal) (order : MapOrder DecimalEntry) : List Types.Transaction :=
  if tx.isCoinbase then coinbaseTransfers tx networkID blockNum timestamp tx.vout
  else
    let inputAddresses := tx.extractInputAddresses
    let outputsByAddress := order.arrange tx.groupOutputsByAddress.entries
    if inputAddresses.length > 0 then
      rangeOutputs tx networkID blockNum timestamp (fromAddressOf inputAddresses)
        (fun addr => inputAddresses.contains addr) fee false outputsByAddress
    else
      rangeOutputs tx networkID blockNum timestamp "" (fun _ => false) fee false
        outputsByAddress

end Extract

end Transaction

end MultichainIndexer.Bitcoin
