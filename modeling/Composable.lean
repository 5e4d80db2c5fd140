import Composable.Support.Call
import Composable.Support.Rounding
import Composable.Support.Fixed
import Composable.Support.Run
import Composable.Support.Relation
import Composable.Support.Transport
import Composable.Support.Maintains
import Composable.Support.SortedVec
import Composable.Support.StorageMap
import Composable.Support.Ledger
import Composable.Support.Escrow
import Composable.Support.Payment
import Composable.Support.Schedule
import Composable.Support.Newton
import Composable.Support.Pool
import Composable.Support.Bucket
import Composable.Support.Scale
import Composable.Support.Tally
import Composable.Support.Drift
import Composable.Support.DebtBook
import Composable.Support.Allotment
import Composable.Traits.Currency
import Composable.Collections.BoundedSortedVec
import Composable.CurrencyFactory.Ranges
import Composable.CurrencyFactory.Lengths
import Composable.Assets.Supply
import Composable.AssetsRegistry.Mappings
import Composable.Privilege.Groups
import Composable.Privilege.Counts
import Composable.Vault.Model
import Composable.Vault.Effect
import Composable.Vault.Registry
import Composable.Vault.Atomicity
import Composable.Vault.Rent
import Composable.Vault.Deletion
import Composable.Vault.Tombstone
import Composable.Vault.Shares
import Composable.Vault.Backing
import Composable.Vault.Strategies
import Composable.Vesting.Model
import Composable.Vesting.Schedules
import Composable.Vesting.Pallet
import Composable.Vesting.Locks
import Composable.Vesting.Claims
import Composable.Vesting.Funds
import Composable.DutchAuction.Model
import Composable.DutchAuction.Effect
import Composable.DutchAuction.Prices
import Composable.DutchAuction.Fills
import Composable.DutchAuction.Reservations
import Composable.DutchAuction.Matching
import Composable.DutchAuction.Sales
import Composable.DutchAuction.Deposits
import Composable.DutchAuction.Settlement
import Composable.DutchAuction.Atomicity
import Composable.Liquidations.Model
import Composable.Liquidations.Atomicity
import Composable.Lending.Interest
import Composable.Lending.Curves
import Composable.Lending.Model
import Composable.Lending.Effect
import Composable.Lending.Assets
import Composable.Lending.Panics
import Composable.Lending.Turns
import Composable.Lending.Accrual
import Composable.Lending.Markets
import Composable.Lending.Validity
import Composable.Lending.Debts
import Composable.Lending.Closing
import Composable.Lending.Collateral
import Composable.Lending.Books
import Composable.Lending.Indexes
import Composable.Lending.Coverage
import Composable.Lending.Rates
import Composable.Lending.Blocks
import Composable.Lending.Positions
import Composable.Lending.Warnings
import Composable.Lending.Repayments
import Composable.Lending.Mixing
import Composable.Lending.Rents
import Composable.Lending.Sales
import Composable.Mosaic.SubAccount
import Composable.Mosaic.Model
import Composable.Mosaic.Effect
import Composable.Mosaic.Mapping
import Composable.Mosaic.Rotation
import Composable.Mosaic.Custody
import Composable.Mosaic.Timelock
import Composable.Mosaic.Budget
import Composable.Mosaic.Refusals
import Composable.Oracle.Model
import Composable.Oracle.Aggregation
import Composable.Oracle.Effect
import Composable.Oracle.Stake
import Composable.Oracle.Pairing
import Composable.Oracle.Reserve
import Composable.Oracle.Reclaim
import Composable.Oracle.Transit
import Composable.Oracle.Pruning
import Composable.Oracle.History
import Composable.Oracle.Twap
import Composable.Oracle.Inverse
import Composable.Oracle.Ratio
import Composable.Oracle.Median
import Composable.Oracle.Payout
import Composable.BondedFinance.Model
import Composable.BondedFinance.Rewards
import Composable.BondedFinance.Stakes
import Composable.BondedFinance.Purchases
import Composable.CrowdloanRewards.Model
import Composable.CrowdloanRewards.Payouts
import Composable.CrowdloanRewards.Vesting
import Composable.CrowdloanRewards.Batches
import Composable.CrowdloanRewards.Validation
import Composable.Dex.Model
import Composable.Dex.Routes
import Composable.Dex.ConstantProduct
import Composable.Dex.StableSwap
import Composable.Dex.Invariants
import Composable.Dex.Purchases
import Composable.Dex.Liquidity
import Composable.Dex.Failures
import Composable.Dex.StableLiquidity
import Composable.Democracy.Model
import Composable.Democracy.Effect
import Composable.Democracy.Locks
import Composable.Democracy.Queues
import Composable.Democracy.Proposals
import Composable.Democracy.Enactment
import Composable.Democracy.Tallies
import Composable.Democracy.Encoding
import Composable.Democracy.Preimages
import Composable.Democracy.Thresholds
import Composable.Democracy.Deposits
import Composable.Collections.SortedSet
import Composable.Ping.Model
import Composable.Ping.Answers
import Composable.Ping.Recognition
import Composable.TransactionFee.Multiplier
import Composable.TransactionFee.Charges
