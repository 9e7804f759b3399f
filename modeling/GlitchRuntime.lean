import GlitchRuntime.Lib.Runs
import GlitchRuntime.Lib.Perbill
import GlitchRuntime.Lib.Currency
import GlitchRuntime.Lib.Fallible
import GlitchRuntime.Lib.Word
import GlitchRuntime.Ethereum.Transaction
import GlitchRuntime.Staking.Types
import GlitchRuntime.Staking.Bonding
import GlitchRuntime.Staking.Bonds
import GlitchRuntime.Staking.Payout
import GlitchRuntime.Staking.Eras
import GlitchRuntime.Staking.Transfers
import GlitchRuntime.Staking.System
import GlitchRuntime.Staking.Pruning
import GlitchRuntime.Staking.Timeline
import GlitchRuntime.Staking.Effects
import GlitchRuntime.Staking.EraWindow
import GlitchRuntime.Staking.ClaimOnce
import GlitchRuntime.Staking.PayoutCap
import GlitchRuntime.Staking.Solvency
import GlitchRuntime.Ethereum.Validation
import GlitchRuntime.Ethereum.Priority
import GlitchRuntime.Ethereum.Admission
import GlitchRuntime.EthSignature
import GlitchRuntime.Lib.Accounts
import GlitchRuntime.Lib.Pairing
import GlitchRuntime.EvmAccounts.Mapping
import GlitchRuntime.EvmAccounts.Bijection
import GlitchRuntime.EvmAccounts.Nonces
import GlitchRuntime.Claims.Pallet
import GlitchRuntime.Claims.LifeCycle
import GlitchRuntime.Claims.Effects
import GlitchRuntime.Claims.Validity
import GlitchRuntime.Claims.Conservation
import GlitchRuntime.Lib.FixedPoint
import GlitchRuntime.Lib.Ledger
import GlitchRuntime.Lib.Storage
import GlitchRuntime.RewardPool.Pallet
import GlitchRuntime.RewardPool.Bookings
import GlitchRuntime.RewardPool.Ledger
import GlitchRuntime.RewardPool.Exit
import GlitchRuntime.RewardPool.Backing
import GlitchRuntime.RewardPool.OneBlock
import GlitchRuntime.Xcm.AssetTrader
import GlitchRuntime.AssetConfig.Locations
import GlitchRuntime.EvmAccounts.Merge
import GlitchRuntime.Claims.Budget
import GlitchRuntime.SignedMessages
import GlitchRuntime.RewardPool.Preview
import GlitchRuntime.RewardPool.Failures
import GlitchRuntime.RewardPool.Dilution
import GlitchRuntime.Xcm.Refunds
import GlitchRuntime.Lib.Pieces
import GlitchRuntime.Incentives.Accrual
import GlitchRuntime.Lib.Deposits
import GlitchRuntime.Claims.OneCall
import GlitchRuntime.Lib.Cuts
import GlitchRuntime.Lib.Removal
import GlitchRuntime.Lib.Simulation
import GlitchRuntime.Staking.Amounts
import GlitchRuntime.Staking.BondedEras
import GlitchRuntime.Staking.EraSlashes
import GlitchRuntime.Staking.OffenceBooks
import GlitchRuntime.Staking.SlashEra
import GlitchRuntime.Lib.CountedMap
import GlitchRuntime.Lib.Imbalances
import GlitchRuntime.Staking.Minimums
import GlitchRuntime.Staking.Offenders
import GlitchRuntime.Staking.SlashMoney
import GlitchRuntime.Ethereum.Blocks
import GlitchRuntime.Ethereum.Sealing
