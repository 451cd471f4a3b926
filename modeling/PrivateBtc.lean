import PrivateBtc.Library.Bytes
import PrivateBtc.Library.Hex
import PrivateBtc.Library.JsText
import PrivateBtc.Library.Double
import PrivateBtc.Library.Table
import PrivateBtc.Library.Binary64
import PrivateBtc.Library.Outcome
import PrivateBtc.Library.Transactional
import PrivateBtc.Library.Words
import PrivateBtc.Library.Sha256
import PrivateBtc.Library.HashTree
import PrivateBtc.Library.Cursor
import PrivateBtc.Library.WireFormat
import PrivateBtc.Library.CairoVm
import PrivateBtc.Contracts.Corelib
import PrivateBtc.Contracts.MockBtc
import PrivateBtc.Contracts.Hashing
import PrivateBtc.Contracts.MerkleProof
import PrivateBtc.Contracts.RawTransaction
import PrivateBtc.Contracts.HeaderStore
import PrivateBtc.Contracts.HeaderRuns
import PrivateBtc.Contracts.DepositTerms
import PrivateBtc.Contracts.Vault
import PrivateBtc.Contracts.VaultRuns
import PrivateBtc.Backend.BitcoinProof
import PrivateBtc.Backend.HeaderRelay
import PrivateBtc.Backend.CryptoService
import PrivateBtc.Backend.Database
import PrivateBtc.Backend.ProofVerifier
import PrivateBtc.Backend.WithdrawGate
import PrivateBtc.Backend.Authorizations
import PrivateBtc.Backend.Calldata
import PrivateBtc.Backend.Payments
import PrivateBtc.Backend.Starknet
import PrivateBtc.Backend.Deposits
import PrivateBtc.Backend.Processor
import PrivateBtc.Backend.Server
import PrivateBtc.Library.JobLease
import PrivateBtc.Library.GuardedRun
import PrivateBtc.Library.Holdings
import PrivateBtc.Backend.CarriedRows
import PrivateBtc.Backend.PayoutFinality
import PrivateBtc.Backend.PayoutOnce
import PrivateBtc.Contracts.SingleUse
import PrivateBtc.Contracts.Supply
import PrivateBtc.Contracts.TokenRuns
import PrivateBtc.Contracts.Spending
import PrivateBtc.Contracts.HonestToken
import PrivateBtc.Contracts.Htlc
import PrivateBtc.Contracts.HtlcRuns
import PrivateBtc.Contracts.HtlcTerms
import PrivateBtc.Backend.AcknowledgedDeposits
import PrivateBtc.Backend.VaultWrites
import PrivateBtc.Backend.UtxoFetches
import PrivateBtc.Backend.BoundedHandlers
import PrivateBtc.Backend.VaultLifecycle
import PrivateBtc.Backend.NullifierRegistry
import PrivateBtc.Backend.BurnGrants
import PrivateBtc.Backend.PayoutRetries
import PrivateBtc.Backend.CommitmentUnits
import PrivateBtc.Backend.ChainEvidence
import PrivateBtc.Backend.ChainBurns
import PrivateBtc.Backend.VaultAmounts
import PrivateBtc.Backend.TimeLocks
import PrivateBtc.Backend.Denominations
import PrivateBtc.Backend.Activation
import PrivateBtc.Backend.HtlcService
import PrivateBtc.Backend.CircuitBreaker
import PrivateBtc.Backend.RedeemedBurns
import PrivateBtc.Backend.RelayCycles
import PrivateBtc.Contracts.RawTransactionRounds
import PrivateBtc.Backend.ParserRounds
import PrivateBtc.Backend.VaultEvents
import PrivateBtc.Backend.CoinSelection
import PrivateBtc.Backend.CompletedFinal
import PrivateBtc.Backend.NullifierValues
import PrivateBtc.Library.Bech32
import PrivateBtc.Backend.StarknetProof
import PrivateBtc.Backend.CalldataRounds
import PrivateBtc.Backend.BitcoinSignet
import PrivateBtc.Backend.TransactionPages
import PrivateBtc.Backend.TxHashes
import PrivateBtc.Backend.LockManager
import PrivateBtc.Backend.CircuitTrips
import PrivateBtc.Backend.Hashlocks
import PrivateBtc.Backend.RelayProgress
import PrivateBtc.Backend.BurnProofs
import PrivateBtc.Contracts.WithdrawCircuit
import PrivateBtc.Contracts.CommitmentProgram
import PrivateBtc.Contracts.CompiledCircuit
import PrivateBtc.Backend.SharpService
import PrivateBtc.Backend.SpvDeposits
import PrivateBtc.Backend.StatementFaults
import PrivateBtc.Backend.Grants
import PrivateBtc.Backend.PayoutFidelity
import PrivateBtc.Backend.BackedPayouts
import PrivateBtc.Backend.CompletedPaid
import PrivateBtc.Contracts.EventReplay
import PrivateBtc.Backend.ProofTokens
import PrivateBtc.Backend.PaidWithdrawals
import PrivateBtc.Backend.Polls
import PrivateBtc.Backend.RelayedRoots
import PrivateBtc.Backend.ReturnedDeposits
import PrivateBtc.Backend.SharpJobs
