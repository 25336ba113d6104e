import TxDriver.Driver.Handshake
import TxDriver.Driver.Lifecycle
import TxDriver.Driver.ProbeCleanup
import TxDriver.Driver.LegacyApi
import TxDriver.Driver.LegacyConstruct
import TxDriver.Driver.RevokeLifecycle
import TxDriver.Driver.Transfer
import TxDriver.Driver.Atomic
import TxDriver.Driver.Lists
import TxDriver.Driver.ListRuns
import TxDriver.Driver.ListLoops
import TxDriver.Driver.Exchange
import TxDriver.Driver.RevokeLists
import TxDriver.Driver.Media
import TxDriver.Driver.LegacyRuns
import TxDriver.Driver.Ownership
import TxDriver.Driver.RegistryRuns
import TxDriver.Driver.Sessions
import TxDriver.Driver.AccountedRuns
import TxDriver.Driver.Hlists
import TxDriver.Driver.HlistRuns
import TxDriver.Driver.HlistLoops
