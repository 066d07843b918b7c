import KwilDb.Lib.Go
import KwilDb.Lib.Fold
import KwilDb.Lib.Run
import KwilDb.Lib.Binary
import KwilDb.Lib.Keyed
import KwilDb.Lib.GoSort
import KwilDb.Lib.Strconv
import KwilDb.Lib.Pairs
import KwilDb.Lib.Slices
import KwilDb.Core.Types
import KwilDb.Core.Commit
import KwilDb.Core.Params
import KwilDb.Consensus.ValidatorSet
import KwilDb.Consensus.Votes
import KwilDb.Consensus.Leader
import KwilDb.Consensus.Block
import KwilDb.Consensus.Engine
import KwilDb.Consensus.Network
import KwilDb.Consensus.Chain
import KwilDb.Consensus.Agreement
import KwilDb.Core.EncodedValue
import KwilDb.Pg.Repl
import KwilDb.Voting.Store
import KwilDb.Voting.Validators
import KwilDb.TxApp.ProcessVotes
import KwilDb.Exts.Erc20Meta
import KwilDb.Exts.Erc20Blocks
import KwilDb.Accounts.Store
import KwilDb.Accounts.Transfer
import KwilDb.Accounts.Spend
import KwilDb.Mempool.Mempool
import KwilDb.TxApp.Execute
import KwilDb.Engine.PrepareQuery
import KwilDb.Types.Compact
import KwilDb.Types.Transaction
import KwilDb.Types.Block
import KwilDb.Types.Values
import KwilDb.Types.Payloads
import KwilDb.Types.ParamUpdates
import KwilDb.Types.CommitInfo
import KwilDb.TxApp.Mempool
import KwilDb.BlockProcessor.Prepare
import KwilDb.BlockProcessor.Proposal
import KwilDb.Interpreter.Values
import KwilDb.Interpreter.Actions
import KwilDb.Pg.Changeset
import KwilDb.Migrations.Changesets
import KwilDb.Core.EncodeValue
import KwilDb.Types.TxResult
import KwilDb.Store.BlockStore
import KwilDb.Store.Results
import KwilDb.Node.Queries
