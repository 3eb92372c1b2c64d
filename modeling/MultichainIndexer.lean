import MultichainIndexer.Bitcoin.Types
import MultichainIndexer.Bitcoin.Address
import MultichainIndexer.Bitcoin.Hex
import MultichainIndexer.Bitcoin.Sha256
import MultichainIndexer.Bitcoin.Tx
import MultichainIndexer.Bitcoin.Fee
import MultichainIndexer.Bitcoin.Enrich
import MultichainIndexer.Bitcoin.Client
import MultichainIndexer.Indexer.Bitcoin
import MultichainIndexer.Proofs.OutputGrouping
import MultichainIndexer.Proofs.TransferExtraction
import MultichainIndexer.Proofs.TransferAddresses
import MultichainIndexer.Proofs.FeeCalculation
import MultichainIndexer.Proofs.FeeRate
import MultichainIndexer.Proofs.AddressAgreement
import MultichainIndexer.Proofs.AddressNormalization
import MultichainIndexer.Proofs.HexReversal
import MultichainIndexer.Proofs.BlockRange
import MultichainIndexer.Proofs.WorkerPool
import MultichainIndexer.Proofs.EnrichSequential
import MultichainIndexer.Proofs.EnrichProgress
import MultichainIndexer.Proofs.EnrichSemaphore
import MultichainIndexer.Proofs.EnrichCompletion
import MultichainIndexer.Proofs.BlockProcessing
import MultichainIndexer.Proofs.PoolProgress
import MultichainIndexer.Proofs.PoolCompletion
