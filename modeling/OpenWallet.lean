import OpenWallet.Monitor.BtcLossless
import OpenWallet.Monitor.BtcRestart
import OpenWallet.Monitor.BtcRescan
import OpenWallet.Monitor.Once
import OpenWallet.Monitor.Timers
import OpenWallet.Monitor.Callback
import OpenWallet.EthTrip
import OpenWallet.Readable
import OpenWallet.Attribution
import OpenWallet.Monitor.Details
import OpenWallet.Monitor.Settled
import OpenWallet.Monitor.Texts
import OpenWallet.Monitor.Batch
import OpenWallet.Monitor.EosActions
import OpenWallet.Server.Pool
import OpenWallet.Server.Stable
import OpenWallet.Server.Concurrent
import OpenWallet.Server.Start
import OpenWallet.Server.Custody
import OpenWallet.Server.Tags
import OpenWallet.Server.Process
import OpenWallet.Server.Quantity
import OpenWallet.Server.Connections
import OpenWallet.Server.Nonces
import OpenWallet.Server.NamedArguments
import OpenWallet.Server.CoinNames
import OpenWallet.Server.HttpWorkers
import OpenWallet.Monitor.Progress
import OpenWallet.Server.Broadcast
