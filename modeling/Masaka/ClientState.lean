import Masaka.Packets

/-!
The state of a client outside its session: the connection state, the queue of
received messages and the statistics.
-/
namespace Masaka

inductive ConnectionState where
  | Disconnected
  | Connecting
  | Connected
  | Disconnecting
  | Error
  deriving DecidableEq

structure ReceivedMessage where
  topic : TopicName
  qos : QoS
  retain : Bool
  payload : Bytes
  packet_id : Option Pid
  timestamp : Nat
  deriving DecidableEq

/-- The counters wrap around, as they do in a release build; a debug build panics there. -/
structure ClientStats where
  messages_sent : UInt32 := 0
  messages_received : UInt32 := 0
  publishes_sent : UInt32 := 0
  publishes_received : UInt32 := 0
  connect_count : UInt32 := 0
  disconnect_count : UInt32 := 0
  reconnect_count : UInt32 := 0
  error_count : UInt32 := 0
  deriving DecidableEq

structure ClientState where
  connection_state : ConnectionState
  received_messages : List ReceivedMessage
  stats : ClientStats
  msg_capacity : Nat
  deriving DecidableEq

namespace ClientState

/-- `ClientState::new`. -/
def new (msg_capacity : Nat) : ClientState where
  connection_state := .Disconnected
  received_messages := []
  stats := {}
  msg_capacity := msg_capacity

/-- What a change of the connection state counts, the first fitting case of the source's `match`. -/
def count_change (old new : ConnectionState) (stats : ClientStats) : ClientStats :=
  match old, new with
  | .Disconnected, .Connecting => stats
  | .Connecting, .Connected => { stats with connect_count := stats.connect_count + 1 }
  | .Connected, .Disconnecting => stats
  | .Connected, .Disconnected =>
    { stats with disconnect_count := stats.disconnect_count + 1, reconnect_count := stats.reconnect_count + 1 }
  | _, .Disconnected => { stats with disconnect_count := stats.disconnect_count + 1 }
  | _, .Error => { stats with error_count := stats.error_count + 1 }
  | _, _ => stats

def set_connection_state (new : ConnectionState) (state : ClientState) : ClientState :=
  { state with stats := count_change state.connection_state new state.stats, connection_state := new }

/-- A full queue loses its oldest message. -/
def add_received_message (message : ReceivedMessage) (state : ClientState) : ClientState :=
  let kept := if state.received_messages.length ≥ state.msg_capacity then state.received_messages.tail
    else state.received_messages
  { state with
    received_messages := kept ++ [message]
    stats := { state.stats with messages_received := state.stats.messages_received + 1,
                                publishes_received := state.stats.publishes_received + 1 } }

def pop_received_message (state : ClientState) : Option ReceivedMessage × ClientState :=
  (state.received_messages.head?, { state with received_messages := state.received_messages.tail })

def record_message_sent (state : ClientState) : ClientState :=
  { state with stats := { state.stats with messages_sent := state.stats.messages_sent + 1,
                                           publishes_sent := state.stats.publishes_sent + 1 } }

theorem count_change_received (old new : ConnectionState) (stats : ClientStats) :
    (count_change old new stats).publishes_received = stats.publishes_received := by
  cases old <;> cases new <;> rfl
@[simp] theorem set_connection_state_state (new : ConnectionState) (state : ClientState) :
    (state.set_connection_state new).connection_state = new := rfl
@[simp] theorem set_connection_state_received (new : ConnectionState) (state : ClientState) :
    (state.set_connection_state new).received_messages = state.received_messages := rfl
@[simp] theorem add_received_message_state (message : ReceivedMessage) (state : ClientState) :
    (state.add_received_message message).connection_state = state.connection_state := rfl
@[simp] theorem record_message_sent_state (state : ClientState) :
    state.record_message_sent.connection_state = state.connection_state := rfl
@[simp] theorem record_message_sent_received (state : ClientState) :
    state.record_message_sent.received_messages = state.received_messages := rfl
@[simp] theorem pop_received_message_state (state : ClientState) :
    state.pop_received_message.2.connection_state = state.connection_state := rfl

end ClientState

end Masaka
