import Hoposhell.CommandTimeout
import Hoposhell.ConcurrentRequests
import Hoposhell.Delivery
import Hoposhell.Destination
import Hoposhell.Disconnect
import Hoposhell.ErrorReport
import Hoposhell.ForwardTcp
import Hoposhell.HistoryWindow
import Hoposhell.Listing
import Hoposhell.LocalSinks
import Hoposhell.ReadSafety
import Hoposhell.ResponseOrigin
import Hoposhell.ResponseSafety
import Hoposhell.ScriptConfinement
import Hoposhell.Serialization
import Hoposhell.ShellIdentity
import Hoposhell.StdinLoop
import Hoposhell.Survival
import Hoposhell.TerminalRelay
import Hoposhell.TerminalSize
import Hoposhell.Tunnel
import Hoposhell.UniqueDecoding
