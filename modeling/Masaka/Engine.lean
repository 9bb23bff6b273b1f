import Masaka.Effect
import Masaka.Handlers
import Masaka.Session

/-!
The protocol engine: encoding and sending packets, receiving them and answering
acknowledgments, and retransmission. The transport, the clock and the iteration
orders of the hash tables answer as the `World` says, which is arbitrary; the log
records what passed between the engine and them, and when the session hands out an
identifier or is cleared.
-/
namespace Masaka
open Effect Tables

/-- What a call of the transport comes to: an answer, or none ever. -/
abbrev Answer (α : Type) := Option (Except TransportError α)

/-- What waiting for a packet comes to. A read that fails, or that the caller
    drops, may have consumed a part of a packet. -/
inductive Read (P E : Type) where
  | packet (packet : P)
  | failed (consumed : Bytes) (err : E)
  | waiting (consumed : Bytes)

/-- How the surroundings behave from here on: the n-th next call of each kind. -/
structure World (P E : Type) where
  is_connected : Bool
  write : Nat → Answer Nat
  flush : Nat → Answer Unit
  close : Nat → Answer Unit
  read : Nat → Read P E
  now : Nat → Nat
  /-- Whether the delay is waited out. -/
  delay : Nat → Bool
  order : IterOrder Pid

/-- An encoded packet. In the source only the bytes exist; the packet tells the
    log what they encode. -/
structure Frame (P : Type) where
  packet : P
  bytes : VarBytes
  deriving DecidableEq

/-- What the log records. -/
inductive Event (P : Type) where
  /-- `send_packet` put a packet on the write queue. -/
  | queued (frame : Frame P)
  /-- `transport.write` was called with the bytes. -/
  | write (bytes : Bytes) (answer : Answer Nat)
  /-- The transport has accepted the last byte of a packet. -/
  | sent (frame : Frame P)
  | flush (answer : Answer Unit)
  | close (answer : Answer Unit)
  | received (packet : P)
  | clock (now : Nat)
  | delay (ms : UInt32)
  /-- `session.next_pid` returned the identifier. -/
  | handed_out (pid : Pid)
  /-- A message to publish was stored under the identifier. -/
  | accepted (pid : Pid)
  /-- `session.clear` was called. -/
  | cleared
  deriving DecidableEq

/-- The engine, with the surroundings in place of its transport and its clock. -/
structure MqttProtocolEngine (H P E : Type) where
  world : World P E
  log : List (Event P)
  handler : H
  /-- The bytes of an incomplete packet. -/
  packet_state : Bytes
  write_queue : List (Frame P)
  last_packet_sent_time : Nat
  last_packet_received_time : Nat
  keep_alive_interval_ms : Nat
  connected : Bool

variable {H P E α : Type}

abbrev EngineM (H P E α : Type) := Eff MqttError (MqttProtocolEngine H P E) α
/-- Engine operations that also work on the session. -/
abbrev SessionM (H P E α : Type) := Eff MqttError (MqttProtocolEngine H P E × InMemorySession) α

namespace MqttProtocolEngine

/-- `MqttProtocolEngine::with_time_provider`. -/
def new (world : World P E) (handler : H) : MqttProtocolEngine H P E where
  world := world
  log := []
  handler := handler
  packet_state := []
  write_queue := []
  last_packet_sent_time := 0
  last_packet_received_time := 0
  keep_alive_interval_ms := 60000
  connected := false

/-! ### The surroundings -/

def record (event : Event P) (e : MqttProtocolEngine H P E) : MqttProtocolEngine H P E :=
  { e with log := e.log ++ [event] }

/-- The result of a transport call: its error is a transport error. -/
def answered : Answer α → Except (Halt MqttError) α
  | some (.ok a) => .ok a
  | some (.error err) => .error (.err (.Transport err))
  | none => .error .cut

/-- `transport.write`, which accepts at most the bytes it is given. -/
def write (bytes : Bytes) : EngineM H P E Nat := ofExec fun e =>
  let answer := (e.world.write 0).map (Except.map (min bytes.length))
  (answered answer, { e with
    world := { e.world with write := fun n => e.world.write (n + 1) }
    log := e.log ++ [.write bytes answer] })

def flush : EngineM H P E Unit := ofExec fun e =>
  (answered (e.world.flush 0), { e with
    world := { e.world with flush := fun n => e.world.flush (n + 1) }
    log := e.log ++ [.flush (e.world.flush 0)] })

def close : EngineM H P E Unit := ofExec fun e =>
  (answered (e.world.close 0), { e with
    world := { e.world with close := fun n => e.world.close (n + 1) }
    log := e.log ++ [.close (e.world.close 0)] })

def current_timestamp_ms : EngineM H P E Nat := ofExec fun e =>
  (.ok (e.world.now 0), { e with
    world := { e.world with now := fun n => e.world.now (n + 1) }
    log := e.log ++ [.clock (e.world.now 0)] })

/-- `time_provider.delay`. -/
def delay (ms : UInt32) : EngineM H P E Unit := ofExec fun e =>
  (if e.world.delay 0 then .ok () else .error .cut, { e with
    world := { e.world with delay := fun n => e.world.delay (n + 1) }
    log := e.log ++ [.delay ms] })

/-! ### Timers -/

def set_keep_alive_interval (keep_alive_secs : UInt16) (e : MqttProtocolEngine H P E) : MqttProtocolEngine H P E :=
  { e with keep_alive_interval_ms := keep_alive_secs.toNat * 1000 }

def update_last_sent_time (timestamp : Nat) (e : MqttProtocolEngine H P E) : MqttProtocolEngine H P E :=
  { e with last_packet_sent_time := timestamp }

def update_last_received_time (timestamp : Nat) (e : MqttProtocolEngine H P E) : MqttProtocolEngine H P E :=
  { e with last_packet_received_time := timestamp }

def should_send_keep_alive (current_time : Nat) (e : MqttProtocolEngine H P E) : Bool :=
  if e.keep_alive_interval_ms = 0 then false
  else current_time - e.last_packet_sent_time ≥ e.keep_alive_interval_ms

/-- Nothing has arrived for one and a half keep-alive intervals. -/
def is_connection_timeout (current_time : Nat) (e : MqttProtocolEngine H P E) : Bool :=
  if e.keep_alive_interval_ms = 0 then false
  else current_time - e.last_packet_received_time ≥ e.keep_alive_interval_ms + e.keep_alive_interval_ms / 2

def is_connected (e : MqttProtocolEngine H P E) : Bool := e.connected && e.world.is_connected

/-! ### Sending -/

/-- The loop of `flush_write_queue` over the bytes of one packet: of the bytes
    given, the transport has already accepted the first `taken`. -/
def write_all : Bytes → Nat → EngineM H P E Unit
  | [], _ => pure ()
  | _ :: rest, taken + 1 => write_all rest taken
  | byte :: rest, 0 => do
    let n ← write (byte :: rest)
    if n = 0 then fail (.Transport .ConnectionLost)
    else write_all rest (n - 1)

/-- The loop of `flush_write_queue` over the queue, whose packets it takes off one by one. -/
def write_frames : List (Frame P) → EngineM H P E Unit
  | [] => pure ()
  | frame :: rest => do
    modify fun e => { e with write_queue := rest }
    write_all frame.bytes 0
    modify (record (.sent frame))
    write_frames rest

def flush_write_queue : EngineM H P E Unit := do
  let e ← get
  write_frames e.write_queue
  flush

variable [MqttProtocolHandler H P E]
open MqttProtocolHandler

def send_packet (packet : P) : EngineM H P E Unit := do
  let e ← get
  let bytes ← ofExcept (into H) (encode_packet e.handler packet)
  modify fun e => record (.queued ⟨packet, bytes⟩) { e with write_queue := e.write_queue ++ [⟨packet, bytes⟩] }
  flush_write_queue
  let current_time ← current_timestamp_ms
  modify (update_last_sent_time current_time)

/-! ### Receiving -/

/-- A complete packet leaves the decoding state as new; otherwise it keeps what was consumed. -/
def read_from_transport : EngineM H P E P := ofExec fun e =>
  let world := { e.world with read := fun n => e.world.read (n + 1) }
  match e.world.read 0 with
  | .packet packet => (.ok packet, record (.received packet) { e with world := world, packet_state := [] })
  | .failed consumed err =>
    (.error (.err (into H err)), { e with world := world, packet_state := e.packet_state ++ consumed })
  | .waiting consumed => (.error .cut, { e with world := world, packet_state := e.packet_state ++ consumed })

/-- The next packet, with the time of its arrival noted. -/
def receive_packet_unlogged : EngineM H P E PacketAction := do
  let packet ← read_from_transport
  let current_time ← current_timestamp_ms
  modify (update_last_received_time current_time)
  let e ← get
  ofExcept (into H) (handle_packet e.handler packet)

/-! ### Requests -/

def connect_with_will (client_id : String) (username : Option String) (password : Option Bytes) (keep_alive : UInt16)
    (clean_session : Bool) (will_topic : Option TopicName) (will_message : Option Bytes) (will_qos : Option QoS)
    (will_retain : Bool) : EngineM H P E PacketAction := do
  let e ← get
  if e.connected then fail .InvalidState
  else
    modify (set_keep_alive_interval keep_alive)
    let connect_packet ← ofExcept (into H) (match will_topic, will_message, will_qos with
      | some topic, some message, some qos =>
        create_connect_with_will_packet e.handler client_id username password keep_alive clean_session topic message
          qos will_retain
      | _, _, _ => create_connect_packet e.handler client_id username password keep_alive clean_session)
    send_packet connect_packet
    let action ← receive_packet_unlogged
    match action with
    | .ConnectAck _ return_code =>
      if return_code = 0 then
        modify fun e => { e with connected := true }
        return action
      else fail .AuthenticationFailed
    | _ => fail (.Protocol .InvalidHeader)

def ping : EngineM H P E Unit := do
  let e ← get
  if !e.connected then fail .NotConnected
  else send_packet (create_pingreq_packet e.handler)

def disconnect : EngineM H P E Unit := do
  let e ← get
  if !e.connected then return ()
  else
    send_packet (create_disconnect_packet e.handler)
    modify fun e => { e with connected := false }
    close

/-- An operation of the session. -/
def onSession (f : InMemorySession → α × InMemorySession) : SessionM H P E α := ofExec fun s =>
  (.ok (f s.2).1, (s.1, (f s.2).2))

/-- A fallible operation of the session. -/
def trySession (f : InMemorySession → Except MqttError α × InMemorySession) : SessionM H P E α := do
  let result ← onSession f
  ofExcept id result

/-- `session.next_pid`, with a note in the log. -/
def next_pid : SessionM H P E Pid := do
  let pid ← onSession SessionState.next_pid
  zoom first (modify (record (.handed_out pid)))
  return pid

/-- The identifier of a PUBLISH, handed out for the levels above 0. -/
def publish_pid : QoS → SessionM H P E (Option Pid)
  | .Level0 => pure none
  | .Level1 | .Level2 => some <$> next_pid

/-- Records a message pending acknowledgment, if it has an identifier, with a note in the log. -/
def store_pending (pid : Option Pid) (topic : TopicName) (qos : QoS) (retain : Bool) (payload : Bytes) :
    SessionM H P E Unit :=
  match pid with
  | some pid => do
    let timestamp ← zoom first current_timestamp_ms
    trySession (SessionState.store_outgoing_publish pid {
      topic := topic, qos := qos, retain := retain, payload := payload, retry_count := 0, timestamp := timestamp })
    zoom first (modify (record (.accepted pid)))
  | none => pure ()

def publish (topic : TopicName) (qos : QoS) (retain : Bool) (payload : Bytes) : SessionM H P E (Option Pid) := do
  let (e, _) ← get
  if !e.connected then fail .NotConnected
  else
    let pid ← publish_pid qos
    let publish_packet ← ofExcept (into H) (create_publish_packet e.handler topic qos retain payload pid false)
    store_pending pid topic qos retain payload
    zoom first (send_packet publish_packet)
    return pid

def subscribe (subscriptions : List (TopicFilter × QoS)) : SessionM H P E Pid := do
  let (e, _) ← get
  if !e.connected then fail .NotConnected
  else
    let pid ← next_pid
    let subscribe_packet ← ofExcept (into H) (create_subscribe_packet e.handler subscriptions pid)
    zoom first (send_packet subscribe_packet)
    return pid

def unsubscribe (topics : List TopicFilter) : SessionM H P E Pid := do
  let (e, _) ← get
  if !e.connected then fail .NotConnected
  else
    let pid ← next_pid
    let unsubscribe_packet ← ofExcept (into H) (create_unsubscribe_packet e.handler topics pid)
    zoom first (send_packet unsubscribe_packet)
    return pid

/-! ### Acknowledgments and retransmission -/

/-- The acknowledgment logic of `receive_packet`: the session is changed and the reply sent. -/
def acknowledge : PacketAction → SessionM H P E Unit
  | .PublishAck pid => do
    let _ ← onSession (SessionState.complete_outgoing_publish pid)
  | .PublishComplete pid => do
    let _ ← onSession (SessionState.complete_outgoing_publish pid)
    let _ ← onSession (SessionState.complete_outgoing_pubrel pid)
  | .PublishRec pid => do
    match ← onSession (SessionState.complete_outgoing_publish pid) with
    | some _ =>
      let (e, _) ← get
      let pubrel_packet ← ofExcept (into H) (create_pubrel_packet e.handler pid)
      zoom first (send_packet pubrel_packet)
      trySession (SessionState.store_outgoing_pubrel pid)
    | none => pure ()
  | .PublishRelease pid => do
    let (e, _) ← get
    let pubcomp_packet ← ofExcept (into H) (create_pubcomp_packet e.handler pid)
    zoom first (send_packet pubcomp_packet)
  | .PublishReceived _ .Level1 _ _ (some pid) => do
    let (e, _) ← get
    let puback_packet ← ofExcept (into H) (create_puback_packet e.handler pid)
    zoom first (send_packet puback_packet)
  | .PublishReceived _ .Level2 _ _ (some pid) => do
    let (e, _) ← get
    let pubrec_packet ← ofExcept (into H) (create_pubrec_packet e.handler pid)
    zoom first (send_packet pubrec_packet)
  | _ => pure ()

def receive_packet : SessionM H P E PacketAction := do
  let action ← zoom first receive_packet_unlogged
  acknowledge action
  return action

def RETRY_TIMEOUT_MS : Nat := 5000
def MAX_RETRY_COUNT : Nat := 3

/-- A pending publish that is transmitted again. -/
def retries (current_time : Nat) (pending : InflightMessage) : Bool :=
  current_time - pending.timestamp ≥ RETRY_TIMEOUT_MS && pending.retry_count < MAX_RETRY_COUNT

/-- A pending publish that is given up. -/
def drops (current_time : Nat) (pending : InflightMessage) : Bool :=
  !retries current_time pending && pending.retry_count ≥ MAX_RETRY_COUNT

/-- The body of the loop over the publishes to retry. -/
def retry_publish (current_time : Nat) (pid : Pid) : SessionM H P E Unit := do
  let (e, session) ← get
  match SessionState.get_outgoing_publish_mut pid session with
  | some (pending, write) =>
    let pending := { pending with retry_count := pending.retry_count + 1, timestamp := current_time }
    let _ ← onSession fun _ => ((), write pending)
    let publish_packet ← ofExcept (into H)
      (create_publish_packet e.handler pending.topic pending.qos pending.retain pending.payload (some pid) true)
    zoom first (send_packet publish_packet)
  | none => pure ()

/-- The body of the loop over the PUBRELs: at most one in a second. The sum saturates. -/
def retry_pubrel (current_time : Nat) (pid : Pid) : SessionM H P E Unit := do
  let (e, _) ← get
  let pubrel_packet ← ofExcept (into H) (create_pubrel_packet e.handler pid)
  if min (e.last_packet_sent_time + 1000) (2 ^ 64 - 1) < current_time then
    zoom first (send_packet pubrel_packet)
  else pure ()

def handle_retries (current_time : Nat) : SessionM H P E Unit := do
  let (e, session) ← get
  let pending := SessionState.pending_outgoing_publishes e.world.order session
  let to_retry := (pending.filter fun entry => retries current_time entry.2).map Prod.fst
  let to_drop := (pending.filter fun entry => drops current_time entry.2).map Prod.fst
  to_drop.forM fun pid => do
    let _ ← onSession (SessionState.complete_outgoing_publish pid)
  to_retry.forM (retry_publish current_time)
  let (e, session) ← get
  let pubrels_to_retry := (SessionState.pending_outgoing_pubrels e.world.order session).take 10
  pubrels_to_retry.forM (retry_pubrel current_time)

end MqttProtocolEngine

end Masaka
