import MultichainIndexer.Bitcoin.Types

/-
Module: MultichainIndexer.Bitcoin.Client
Purpose: The block fetch of the bitcoin RPC client and of the indexer's `GetBlock`.
  `GetBlockHash`, `GetBlockVerbose` and `GetRawTransaction` send one JSON-RPC request through
  `CallRPC` and decode its raw result with `json.Unmarshal`, returning a transport error as it is
  and wrapping a decoding error as `"decode <method>: "`. `GetBlockWithPrevOut` asks for
  `getblock` at verbosity 3 and calls `GetBlockVerbose` itself when that call fails. The closure
  `GetBlock` runs under one failover attempt asks for the hash of the height, calls
  `GetBlockWithPrevOut`, and calls `GetBlockVerbose` when that fails. Each method takes the
  requests the attempt has sent so far and returns its result with the requests sent after it.
Trusted boundary: `CallRPC` and `json.Unmarshal` are the fields of `Transport`; the answer to a
  request may depend on how many requests the attempt sent before it, so a node's transient
  errors are covered.
Main exports: Request, Transport, callRPC, decodeResult, getBlockHash, getBlockVerbose,
  getRawTransaction, getBlockWithPrevOut, fetchBlock
-/

namespace MultichainIndexer.Bitcoin

/-- A JSON-RPC request the client sends: the method and its parameters. -/
inductive Request where
  /-- `getblockhash [height]`. -/
  | getBlockHash (height : UInt64)
  /-- `getblock [hash, verbosity]`. -/
  | getBlock (hash : String) (verbosity : Int)
  /-- `getrawtransaction [txid, verbosity]`. -/
  | getRawTransaction (txid : String) (verbosity : Int)
deriving DecidableEq, Repr

/-- `CallRPC` and `json.Unmarshal` over raw results of type `raw`. -/
structure Transport (raw : Type) where
  /-- The outcome of a request sent after `n` others: its `resp.Result`, or the call's error. -/
  answer : (n : Nat) → Request → Except String raw
  /-- `json.Unmarshal` into a `string`. -/
  string : raw → Except String String
  /-- `json.Unmarshal` into a `Block`. -/
  block : raw → Except String Block
  /-- `json.Unmarshal` into a `Transaction`. -/
  transaction : raw → Except String Transaction

variable {raw : Type} (rpc : Transport raw)

/-- `c.CallRPC(ctx, method, params)`, sent after the requests `sent`. -/
def callRPC (sent : List Request) (req : Request) : Except String raw × List Request :=
  (rpc.answer sent.length req, sent ++ [req])

/-- What the wrapper methods do with the call's outcome: `if err != nil { return err }`, then
`json.Unmarshal(resp.Result, &v)`, a failure wrapped by `fmt.Errorf("decode <method>: %w", err)`. -/
def decodeResult {α : Type} (method : String) (unmarshal : raw → Except String α) :
    Except String raw → Except String α
  | .error err => .error err
  | .ok result =>
    match unmarshal result with
    | .error err => .error ("decode " ++ method ++ ": " ++ err)
    | .ok v => .ok v

/-- `GetBlockHash`. -/
def getBlockHash (height : UInt64) (sent : List Request) : Except String String × List Request :=
  let (resp, sent) := callRPC rpc sent (.getBlockHash height)
  (decodeResult "getblockhash" rpc.string resp, sent)

/-- `GetBlockVerbose`: `getblock` at verbosity 2. -/
def getBlockVerbose (hash : String) (sent : List Request) : Except String Block × List Request :=
  let (resp, sent) := callRPC rpc sent (.getBlock hash 2)
  (decodeResult "getblock" rpc.block resp, sent)

/-- `GetRawTransaction`: the request is sent first, and verbosity 0 is refused afterwards,
whatever the node answered. -/
def getRawTransaction (txid : String) (verbosity : Int) (sent : List Request) :
    Except String Transaction × List Request :=
  let (resp, sent) := callRPC rpc sent (.getRawTransaction txid verbosity)
  match resp with
  | .error err => (.error err, sent)
  | .ok result =>
    if verbosity = 0 then (.error "hex format not supported, use verbosity >= 1", sent)
    else (decodeResult "getrawtransaction" rpc.transaction (.ok result), sent)

/-- `GetBlockWithPrevOut`: `getblock` at verbosity 3, and `GetBlockVerbose` when the call fails.
An answer that does not decode is returned as an error, without the fallback. -/
def getBlockWithPrevOut (hash : String) (sent : List Request) :
    Except String Block × List Request :=
  match callRPC rpc sent (.getBlock hash 3) with
  | (.error _, sent) => getBlockVerbose rpc hash sent
  | (.ok result, sent) => (decodeResult "getblock" rpc.block (.ok result), sent)

/-- The closure `GetBlock` runs under one failover attempt: `GetBlockHash`, then
`GetBlockWithPrevOut`, and `GetBlockVerbose` when that fails, its outcome being the attempt's. -/
def fetchBlock (number : UInt64) (sent : List Request) : Except String Block × List Request :=
  match getBlockHash rpc number sent with
  | (.error err, sent) => (.error err, sent)
  | (.ok hash, sent) =>
    match getBlockWithPrevOut rpc hash sent with
    | (.ok blk, sent) => (.ok blk, sent)
    | (.error _, sent) => getBlockVerbose rpc hash sent

/-! ### What `GetRawTransaction` does differently -/

variable {sent : List Request}

/-- At verbosity 0 `GetRawTransaction` fails whatever the node answers, after sending its
request. -/
theorem getRawTransaction_zero (txid : String) :
    (getRawTransaction rpc txid 0 sent).1.isOk = false ∧
      (getRawTransaction rpc txid 0 sent).2 = sent ++ [.getRawTransaction txid 0] := by
  simp only [getRawTransaction, callRPC]
  split <;> simp [Except.isOk, Except.toBool]

end MultichainIndexer.Bitcoin
