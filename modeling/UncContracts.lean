import UncContracts.Uint
import UncContracts.State
import UncContracts.ShareMath
import UncContracts.Operations
import UncContracts.OperationSpecs
import UncContracts.Run
import UncContracts.Shares
import UncContracts.Solvency
import UncContracts.Price
import UncContracts.HostBalance
import UncContracts.RewardSplit
import UncContracts.Unlock
import UncContracts.RoundTrip
import UncContracts.Failures
import UncContracts.Sdk.AccountId
import UncContracts.LockupFactory
import UncContracts.Ledger
import UncContracts.Lockup.FoundationCallbacks
import UncContracts.Lockup.Termination
import UncContracts.Liabilities
import UncContracts.ExactQuotients
import UncContracts.Delegators
import UncContracts.PublicCalls
import UncContracts.LockupFactory.Exchange
