import Masaka.Delivery
import Masaka.Reconnect
import Masaka.Identifiers
import Masaka.Tracking
import Masaka.Reception
import Masaka.Retransmission
import Masaka.Resume
import Masaka.Framing
import Masaka.Suback
import Masaka.Flags
import Masaka.Closed
import Masaka.Connected
import Masaka.Discharge
import Masaka.Aliases
import Masaka.Rejected
import Masaka.Inflight
import Masaka.Capacity
import Masaka.Leftover
import Masaka.Limits
import Masaka.KeepAlive
import Masaka.Acknowledged
import Masaka.Confirmed
import Masaka.Responses
import Masaka.ReasonCodes
import Masaka.Undelivered
import Masaka.InboundAliases
import Masaka.CleanSession
import Masaka.Versions
import Masaka.Extended
import Masaka.Attempts
import Masaka.Backoff
import Masaka.Retrying
import Masaka.Refused
import Masaka.ConnectResult
import Masaka.ActiveTopics
import Masaka.Unsubscribing
import Masaka.Overfull
import Masaka.ServerDisconnect
import Masaka.Decoding
import Masaka.Confirming
import Masaka.ReceiveQueue
import Masaka.TearDown
import Masaka.Retries
import Masaka.Starvation
import Masaka.Order
import Masaka.History
import Masaka.Budget
import Masaka.GivenUp
import Masaka.Spacing
import Masaka.Rebuilding
import Masaka.OnePass
import Masaka.WriteLoop
import Masaka.Statistics
import Masaka.Conduct
import Masaka.Tcp
import Masaka.Custody
import Masaka.Inbox
import Masaka.Rounds
import Masaka.ExactlyOnce
import Masaka.Lingering
