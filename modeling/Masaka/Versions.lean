import Masaka.Lockstep
import Masaka.Operations
import Masaka.Wire

/-!
A client of version 3.1.1 and one of version 5.0 side by side. As long as their
surroundings behave alike, their brokers send corresponding packets, and the packets
they send meet the same fate, they do the same (`versions_agree`): neither what the
packets look like nor how their errors are worded has any influence.
-/
namespace Masaka

/-- The packets that only a client sends. -/
def V3.Packet.Illegal : V3.Packet → Prop
  | .Connect _ | .Subscribe _ | .Unsubscribe _ | .Pingreq | .Disconnect => True
  | _ => False

/-- The packets that only a client sends. -/
def V5.Packet.Illegal : V5.Packet → Prop
  | .Connect _ | .Subscribe _ | .Unsubscribe _ | .Pingreq => True
  | _ => False

/-- The same operation of a client of version 5.0. -/
def Op.upgrade : Op .v3 → Op .v5
  | .connect => .connect
  | .reconnect => .reconnect
  | .disconnect => .disconnect
  | .publish topic payload config => .publish topic payload config
  | .subscribe topic_filter qos => .subscribe topic_filter qos
  | .subscribe_multiple subscriptions => .subscribe_multiple subscriptions
  | .unsubscribe topic_filter => .unsubscribe topic_filter
  | .unsubscribe_multiple topic_filters => .unsubscribe_multiple topic_filters
  | .ping => .ping
  | .poll => .poll
  | .next_message => .next_message

namespace Versions
open Effect Tables Lockstep MqttProtocolHandler MqttProtocolEngine Sending
open MqttClient (engine engineSession)

/-! ### What becomes of the packets that are sent -/

section
variable {P : Type}

/-- How an event ends the transmission of a packet, if it does. -/
def verdict : Event P → Option (Except (Halt MqttError) Unit)
  | .write _ answer => (refusal answer).map .error
  | .flush answer => some (answered answer)
  | _ => none

/-- What became of the packets that were sent, one after another. A packet that cannot
    be encoded leaves nothing, and is the last one that its call sends. -/
def outcomes (events : List (Event P)) : List (Except (Halt MqttError) Unit) := events.filterMap verdict

@[simp] theorem outcomes_append (events more : List (Event P)) : outcomes (events ++ more) = outcomes events ++ outcomes more :=
  List.filterMap_append

/-- An event that ends no transmission is not seen. -/
theorem unobserved (log : List (Event P)) {event : Event P} (quiet : verdict event = none) :
    outcomes (log ++ [event]) = outcomes log := by
  rw [outcomes_append]
  refine Eq.trans (congrArg (outcomes log ++ ·) ?_) (List.append_nil _)
  rw [outcomes, List.filterMap_cons, quiet]
  rfl

theorem refusal_min {bytes : Bytes} (some_left : bytes ≠ []) (answer : Answer Nat) :
    refusal (answer.map (Except.map (min bytes.length))) = refusal answer := by
  have positive : 0 < bytes.length := List.length_pos_iff.mpr some_left
  rcases answer with _ | err | _ | n
  · rfl
  · rfl
  · rw [Option.map_some, Except.map, Nat.min_zero]
  · obtain ⟨m, same⟩ := Nat.exists_eq_succ_of_ne_zero (show min bytes.length (n + 1) ≠ 0 by omega)
    simp only [Option.map_some, Except.map, same]
    rfl

theorem writes_outcomes {tape rest : Tape} {bytes : Bytes} {events : List (Event P)}
    (writes : Writes tape bytes events rest) : outcomes events = [] := by
  induction writes with
  | done => rfl
  | more left took _ ih =>
    rw [outcomes, List.filterMap_cons, wrote, verdict, refusal_min left]
    exact ih
theorem breaks_outcomes {tape rest : Tape} {bytes : Bytes} {events : List (Event P)} {halt : Halt MqttError}
    (breaks : Breaks tape bytes events rest halt) : outcomes events = [.error halt] := by
  induction breaks with
  | refused left refused =>
    rw [outcomes, List.filterMap_cons, wrote, verdict, refusal_min left, refused]
    rfl
  | @more tape rest bytes n events halt inside took _ ih =>
    have left : bytes ≠ [] := List.length_pos_iff.mp (Nat.zero_lt_of_lt inside)
    rw [outcomes, List.filterMap_cons, wrote, verdict, refusal_min left]
    exact ih
/-- A transmission has one outcome, its result. -/
theorem transmission_outcome {tape rest : Tape} {flush : Answer Unit} {frame : Frame P} {events : List (Event P)}
    {r : Except (Halt MqttError) Unit} (transmission : Transmission tape flush frame events rest r) :
    outcomes events = [r] := by
  cases transmission with
  | complete all flushed =>
    rw [List.cons_append, outcomes, List.filterMap_cons, List.filterMap_append, ← outcomes, writes_outcomes all, flushed]
    rfl
  | unflushed all failed =>
    rw [List.cons_append, outcomes, List.filterMap_cons, List.filterMap_append, ← outcomes, writes_outcomes all]
    exact congrArg (fun r => [r]) failed
  | broken breaks =>
    have outcome := breaks_outcomes breaks
    exact outcome

variable {H E : Type} [MqttProtocolHandler H P E]

/-- `send_packet` before the time is noted. -/
def transmit (packet : P) : EngineM H P E Unit := do
  let e ← get
  let bytes ← ofExcept (into H) (encode_packet e.handler packet)
  modify fun e => record (.queued ⟨packet, bytes⟩) { e with write_queue := e.write_queue ++ [⟨packet, bytes⟩] }
  flush_write_queue

theorem send_packet_eq (packet : P) : send_packet (H := H) packet =
    transmit packet >>= fun _ => current_timestamp_ms >>= fun time => modify (update_last_sent_time time) := by
  simp only [send_packet, transmit, bind_assoc]

/-- The packet cannot be encoded and nothing happens, or its outcome is the result. -/
inductive Transmitted (e : MqttProtocolEngine H P E) :
    Except (Halt MqttError) Unit → MqttProtocolEngine H P E → Prop where
  | unencoded (err : E) : Transmitted e (.error (.err (into H err))) e
  | encoded {events : List (Event P)} {r : Except (Halt MqttError) Unit} (rest : Tape) (flush : Nat → Answer Unit) :
      outcomes events = [r] → Transmitted e r { e with
        world := { e.world with write := rest, flush := flush }, log := e.log ++ events, write_queue := [] }

/-- What is seen of it. -/
theorem Transmitted.observed {e t : MqttProtocolEngine H P E} {r : Except (Halt MqttError) Unit}
    (transmitted : Transmitted e r t) : outcomes e.log <+: outcomes t.log ∧
      (seen (fun e => outcomes e.log) e t = [] ∧ (∃ err : E, r = .error (.err (into H err))) ∨
        seen (fun e => outcomes e.log) e t = [r]) := by
  cases transmitted with
  | unencoded err => exact ⟨List.prefix_refl _, .inl ⟨seen_self _ _, err, rfl⟩⟩
  | @encoded events r rest flush outcome =>
    have log : outcomes (e.log ++ events) = outcomes e.log ++ [r] := by rw [outcomes_append, outcome]
    exact ⟨⟨[r], log.symm⟩, .inr (by rw [seen, log, List.drop_left])⟩

theorem transmit_spec (packet : P) {e : MqttProtocolEngine H P E} (idle : e.write_queue = []) :
    wp (transmit packet) e (Transmitted e) := by
  simp only [transmit, wp_bind, wp_get, wp_ofExcept]
  cases encoding : encode_packet e.handler packet with
  | error err => exact .unencoded err
  | ok bytes =>
    simp only [wp_modify, idle, List.nil_append, flush_write_queue, record, write_frames, wp_bind, wp_get]
    refine wp_mono (write_all_spec bytes _) fun r e' wrote => ?_
    obtain ⟨events, rest, rfl, ended⟩ := wrote
    cases r with
    | error halt =>
      have outcome := breaks_outcomes ended
      have whole : outcomes (.queued ⟨packet, bytes⟩ :: events) = [.error halt] := outcome
      simpa [after_writes] using Transmitted.encoded (e := e) rest e.world.flush whole
    | ok _ =>
      simp only [wp_pure, MqttProtocolEngine.flush, wp_ofExec, after_writes]
      have outcome : outcomes (.queued ⟨packet, bytes⟩ :: events ++ [.sent ⟨packet, bytes⟩, .flush (e.world.flush 0)]) =
          [answered (e.world.flush 0)] := by
        rw [List.cons_append, outcomes, List.filterMap_cons, List.filterMap_append, ← outcomes, writes_outcomes ended]
        rfl
      simpa using Transmitted.encoded (e := e) rest (fun n => e.world.flush (n + 1)) outcome

end

/-! ### Corresponding surroundings -/

/-- The return codes grant the same level, or both refuse. -/
def SameGrant (code code' : UInt8) : Prop := code = code' ∧ code ≤ 2 ∨ 0x80 ≤ code ∧ 0x80 ≤ code'

/-- Packets of a broker that say the same in both versions. Nothing that version 5.0 adds matters. -/
inductive Corresponds : V3.Packet → V5.Packet → Prop where
  | connack (session_present : Bool) {code code' : UInt8} (properties : V5.ConnackProperties) : (code = 0 ↔ code' = 0) →
      Corresponds (.Connack ⟨session_present, code⟩) (.Connack ⟨session_present, code', properties⟩)
  | publish (message : V5.Publish) : Corresponds (.Publish message.common) (.Publish message)
  | puback (ack : V5.Ack) : Corresponds (.Puback ack.pid) (.Puback ack)
  | pubrec (ack : V5.Ack) : Corresponds (.Pubrec ack.pid) (.Pubrec ack)
  | pubrel (ack : V5.Ack) : Corresponds (.Pubrel ack.pid) (.Pubrel ack)
  | pubcomp (ack : V5.Ack) : Corresponds (.Pubcomp ack.pid) (.Pubcomp ack)
  | suback (pid : Pid) {codes codes' : List UInt8} : List.Forall₂ SameGrant codes codes' →
      Corresponds (.Suback ⟨pid, codes⟩) (.Suback ⟨pid, codes'⟩)
  | unsuback (ack : V5.TopicAck) : Corresponds (.Unsuback ack.pid) (.Unsuback ack)
  | pingresp : Corresponds .Pingresp .Pingresp
  | illegal {packet : V3.Packet} {packet' : V5.Packet} : packet.Illegal → packet'.Illegal → Corresponds packet packet'

/-- Corresponding packets arrive, or none in both cases. -/
inductive ReadsAlike : Read V3.Packet MqttProtoError → Read V5.Packet ErrorV5 → Prop where
  | packet {packet : V3.Packet} {packet' : V5.Packet} : Corresponds packet packet' → ReadsAlike (.packet packet) (.packet packet')
  | failed (consumed consumed' : Bytes) (err : MqttProtoError) (err' : ErrorV5) :
      ReadsAlike (.failed consumed err) (.failed consumed' err')
  | waiting (consumed consumed' : Bytes) : ReadsAlike (.waiting consumed) (.waiting consumed')

/-- Surroundings that behave alike, apart from what becomes of the packets that are sent. -/
structure Parallel (world : World V3.Packet MqttProtoError) (world' : World V5.Packet ErrorV5) : Prop where
  is_connected : world.is_connected = world'.is_connected
  close : world.close = world'.close
  read : ∀ n, ReadsAlike (world.read n) (world'.read n)
  now : world.now = world'.now
  delay : world.delay = world'.delay
  order : world.order = world'.order

/-- Actions that the client does not tell apart. -/
inductive ActionsAlike : PacketAction → PacketAction → Prop where
  | same (action : PacketAction) : ActionsAlike action action
  | connack (session_present : Bool) {code code' : UInt8} : (code = 0 ↔ code' = 0) →
      ActionsAlike (.ConnectAck session_present code) (.ConnectAck session_present code')
  | suback (pid : Pid) {codes codes' : List UInt8} : List.Forall₂ SameGrant codes codes' →
      ActionsAlike (.SubscribeAck pid codes) (.SubscribeAck pid codes')

/-- The errors are the same, up to the wording of protocol errors. -/
def SameError (err err' : MqttError) : Prop :=
  err = err' ∨ ∃ wording wording', err = .Protocol wording ∧ err' = .Protocol wording'

theorem SameError.refl (err : MqttError) : SameError err err := .inl rfl
theorem SameError.protocol (wording wording' : ProtocolError) : SameError (.Protocol wording) (.Protocol wording') :=
  .inr ⟨_, _, rfl, rfl⟩

/-- Corresponding packets ask for the same, or are both refused. -/
theorem handle_packet_alike {packet : V3.Packet} {packet' : V5.Packet} (corresponds : Corresponds packet packet') :
    (∃ action action', V3Handler.handle_packet packet = .ok action ∧ V5Handler.handle_packet packet' = .ok action' ∧
      ActionsAlike action action') ∨
    ∃ err err', V3Handler.handle_packet packet = .error err ∧ V5Handler.handle_packet packet' = .error err' := by
  cases corresponds with
  | connack session_present properties zero => exact .inl ⟨_, _, rfl, rfl, .connack session_present zero⟩
  | suback pid grants => exact .inl ⟨_, _, rfl, rfl, .suback pid grants⟩
  | publish | puback | pubrec | pubrel | pubcomp | unsuback | pingresp => exact .inl ⟨_, _, rfl, rfl, .same _⟩
  | illegal illegal illegal' =>
    refine .inr ?_
    cases packet <;> first | exact illegal.elim | skip
    all_goals cases packet' <;> first | exact illegal'.elim | exact ⟨_, _, rfl, rfl⟩

/-- Sessions do not tell the return codes apart. -/
theorem confirm_subscription_alike (pid : Pid) {codes codes' : List UInt8} (grants : List.Forall₂ SameGrant codes codes')
    (s : InMemorySession) :
    SessionState.confirm_subscription pid codes s = SessionState.confirm_subscription pid codes' s := by
  cases grants with
  | nil => rfl
  | @cons code code' codes codes' first rest =>
    have same : code ≤ 2 ↔ code' ≤ 2 := by
      rcases first with ⟨rfl, -⟩ | ⟨refused, refused'⟩
      · rfl
      · constructor
        · exact fun granted => absurd (UInt8.le_trans refused granted) (by decide)
        · exact fun granted => absurd (UInt8.le_trans refused' granted) (by decide)
    unfold SessionState.confirm_subscription
    cases s.subscriptions.lookup pid with
    | none => rfl
    | some record => simp only [List.head?_cons, same]

/-! ### The engines -/

/-- Engines that differ in their handlers, their logs and what they send. -/
structure SameEngine (e : MqttProtocolEngine V3Handler V3.Packet MqttProtoError)
    (e' : MqttProtocolEngine V5Handler V5.Packet ErrorV5) : Prop where
  world : Parallel e.world e'.world
  idle : e.write_queue = []
  idle' : e'.write_queue = []
  sent : e.last_packet_sent_time = e'.last_packet_sent_time
  received : e.last_packet_received_time = e'.last_packet_received_time
  interval : e.keep_alive_interval_ms = e'.keep_alive_interval_ms
  connected : e.connected = e'.connected

/-- Engines are observed by what becomes of the packets. -/
def engines : Coupling MqttError MqttError (MqttProtocolEngine V3Handler V3.Packet MqttProtoError)
    (MqttProtocolEngine V5Handler V5.Packet ErrorV5) (Except (Halt MqttError) Unit) where
  related := SameEngine
  alike := SameError
  left e := outcomes e.log
  right e := outcomes e.log

def sessions : Coupling MqttError MqttError
    (MqttProtocolEngine V3Handler V3.Packet MqttProtoError × InMemorySession)
    (MqttProtocolEngine V5Handler V5.Packet ErrorV5 × InMemorySession) (Except (Halt MqttError) Unit) where
  related s s' := SameEngine s.1 s'.1 ∧ s.2 = s'.2
  alike := SameError
  left s := outcomes s.1.log
  right s := outcomes s.1.log

variable {α β : Type} {last : Prop}

theorem clock : Lock engines last Eq (current_timestamp_ms : EngineM V3Handler V3.Packet MqttProtoError Nat)
    (current_timestamp_ms : EngineM V5Handler V5.Packet ErrorV5 Nat) := by
  refine .still fun e e' (same : SameEngine e e') => ⟨unobserved _ rfl, unobserved _ rfl, ?_⟩
  refine .ok (congrFun same.world.now 0) { same with world := { same.world with now := ?_ } }
  change (fun n => e.world.now (n + 1)) = _
  rw [same.world.now]
theorem delaying (ms : UInt32) : Lock engines last Eq (delay ms : EngineM V3Handler V3.Packet MqttProtoError Unit)
    (delay ms : EngineM V5Handler V5.Packet ErrorV5 Unit) := by
  refine .still fun e e' (same : SameEngine e e') => ⟨unobserved _ rfl, unobserved _ rfl, ?_⟩
  simp only [delay, exec_ofExec, same.world.delay]
  refine Matched.same SameError.refl _ { same with world := { same.world with delay := ?_ } }
  rfl
theorem closing : Lock engines last Eq (close : EngineM V3Handler V3.Packet MqttProtoError Unit)
    (close : EngineM V5Handler V5.Packet ErrorV5 Unit) := by
  refine .still fun e e' (same : SameEngine e e') => ⟨unobserved _ rfl, unobserved _ rfl, ?_⟩
  simp only [close, exec_ofExec, same.world.close]
  refine Matched.same SameError.refl _ { same with world := { same.world with close := ?_ } }
  rfl

theorem inEngine {m : EngineM V3Handler V3.Packet MqttProtoError α} {n : EngineM V5Handler V5.Packet ErrorV5 β}
    {V : α → β → Prop} (lock : Lock engines last V m n) :
    Lock sessions last V (zoom first m) (zoom first n) :=
  lock.zoom rfl (fun _ _ same => same.1) (fun _ _ _ _ same same' => ⟨same', same.2⟩) (fun _ => rfl) fun _ => rfl

theorem session (f : InMemorySession → α × InMemorySession) : Lock sessions last Eq
    (onSession f : SessionM V3Handler V3.Packet MqttProtoError α) (onSession f : SessionM V5Handler V5.Packet ErrorV5 α) :=
  .still fun _ _ same => ⟨rfl, rfl, .ok (by rw [same.2]) ⟨same.1, congrArg (fun s => (f s).2) same.2⟩⟩

theorem tried (f : InMemorySession → Except MqttError α × InMemorySession) : Lock sessions last Eq
    (trySession f : SessionM V3Handler V3.Packet MqttProtoError α) (trySession f : SessionM V5Handler V5.Packet ErrorV5 α) := by
  refine (session f).seq fun result => Lock.ofExcept ?_
  cases result with
  | ok a => exact .inl ⟨a, a, rfl, rfl, rfl⟩
  | error err => exact .inr ⟨err, err, rfl, rfl, .refl err⟩

theorem recording (event : Event V3.Packet) (event' : Event V5.Packet) (quiet : verdict event = none)
    (quiet' : verdict event' = none) : Lock engines last Eq
      (modify (record event) : EngineM V3Handler V3.Packet MqttProtoError PUnit)
      (modify (record event') : EngineM V5Handler V5.Packet ErrorV5 PUnit) :=
  Lock.modify (fun e => unobserved e.log quiet) (fun e => unobserved e.log quiet')
    fun e e' (same : SameEngine e e') => { same with }

theorem next_identifier : Lock sessions last Eq (next_pid : SessionM V3Handler V3.Packet MqttProtoError Pid)
    (next_pid : SessionM V5Handler V5.Packet ErrorV5 Pid) :=
  (session _).seq fun _ => (inEngine (recording _ _ rfl rfl)).seq fun _ => .pure rfl

theorem publish_identifier (qos : QoS) : Lock sessions last Eq
    (publish_pid qos : SessionM V3Handler V3.Packet MqttProtoError (Option Pid))
    (publish_pid qos : SessionM V5Handler V5.Packet ErrorV5 (Option Pid)) := by
  cases qos with
  | Level0 => exact .pure rfl
  | Level1 | Level2 => exact next_identifier.seq fun _ => .pure rfl

theorem storing (pid : Option Pid) (topic : TopicName) (qos : QoS) (retain : Bool) (payload : Bytes) : Lock sessions last Eq
    (store_pending pid topic qos retain payload : SessionM V3Handler V3.Packet MqttProtoError Unit)
    (store_pending pid topic qos retain payload : SessionM V5Handler V5.Packet ErrorV5 Unit) := by
  cases pid with
  | none => exact .pure rfl
  | some pid => exact (inEngine clock).seq fun time => (tried _).seq fun _ => inEngine (recording _ _ rfl rfl)

/-- Clients that differ in their engines only. -/
structure SameClient (c : Client .v3) (c' : Client .v5) : Prop where
  engine : SameEngine c.protocol_engine c'.protocol_engine
  config : c.config = c'.config
  state : c.state = c'.state
  session : c.session_state = c'.session_state
  attempt : c.reconnect_attempt = c'.reconnect_attempt
  interval : c.reconnect_interval_ms = c'.reconnect_interval_ms

def clients : Coupling MqttError MqttError (Client .v3) (Client .v5) (Except (Halt MqttError) Unit) where
  related := SameClient
  alike := SameError
  left c := outcomes c.protocol_engine.log
  right c := outcomes c.protocol_engine.log

theorem ofEngine {m : EngineM V3Handler V3.Packet MqttProtoError α} {n : EngineM V5Handler V5.Packet ErrorV5 β}
    {V : α → β → Prop} (lock : Lock engines last V m n) : Lock clients last V (zoom engine m) (zoom engine n) :=
  lock.zoom (J := engines) rfl (fun _ _ (same : SameClient _ _) => same.engine)
    (fun _ _ _ _ (same : SameClient _ _) same' => { same with engine := same' }) (fun _ => rfl) fun _ => rfl
theorem ofSession {m : SessionM V3Handler V3.Packet MqttProtoError α} {n : SessionM V5Handler V5.Packet ErrorV5 β}
    {V : α → β → Prop} (lock : Lock sessions last V m n) : Lock clients last V (zoom engineSession m) (zoom engineSession n) :=
  lock.zoom (J := sessions) rfl (fun _ _ (same : SameClient _ _) => ⟨same.engine, same.session⟩)
    (fun _ _ _ _ (same : SameClient _ _) same' => { same with engine := same'.1, session := same'.2 }) (fun _ => rfl)
    fun _ => rfl

/-- A change of the rest of the client. -/
theorem changing {f : Client .v3 → Client .v3} {f' : Client .v5 → Client .v5}
    (left : ∀ c, (f c).protocol_engine = c.protocol_engine) (right : ∀ c, (f' c).protocol_engine = c.protocol_engine)
    (keeps : ∀ c c', SameClient c c' → SameClient (f c) (f' c')) : Lock clients last Eq
      (modify f : ClientM V3Handler V3.Packet MqttProtoError PUnit) (modify f' : ClientM V5Handler V5.Packet ErrorV5 PUnit) :=
  Lock.modify (fun c => congrArg (fun e : MqttProtocolEngine V3Handler V3.Packet MqttProtoError => outcomes e.log) (left c))
    (fun c => congrArg (fun e : MqttProtocolEngine V5Handler V5.Packet ErrorV5 => outcomes e.log) (right c)) keeps

theorem entering (new : ConnectionState) : Lock clients last Eq
    (MqttClient.set_connection_state new : ClientM V3Handler V3.Packet MqttProtoError Unit)
    (MqttClient.set_connection_state new : ClientM V5Handler V5.Packet ErrorV5 Unit) :=
  changing (fun _ => rfl) (fun _ => rfl) fun _ _ same =>
    { same with state := congrArg (ClientState.set_connection_state new) same.state }

theorem whenConnected {request : ClientM V3Handler V3.Packet MqttProtoError Unit}
    {request' : ClientM V5Handler V5.Packet ErrorV5 Unit} (lock : Lock clients last Eq request request') :
    Lock clients last Eq (MqttClient.whenConnected request) (MqttClient.whenConnected request') :=
  Lock.get.bind fun c c' (same : SameClient c c') => Lock.ite (by rw [same.state]) (fun _ => .fail (.refl _)) fun _ => lock

theorem counting : Lock clients last Eq
    (modify fun c => { c with state := c.state.record_message_sent } : ClientM V3Handler V3.Packet MqttProtoError PUnit)
    (modify fun c => { c with state := c.state.record_message_sent } : ClientM V5Handler V5.Packet ErrorV5 PUnit) :=
  changing (fun _ => rfl) (fun _ => rfl) fun _ _ same =>
    { same with state := congrArg ClientState.record_message_sent same.state }

theorem tried_client (f : InMemorySession → Except MqttError α × InMemorySession) : Lock clients last Eq
    (MqttClient.trySession f : ClientM V3Handler V3.Packet MqttProtoError α)
    (MqttClient.trySession f : ClientM V5Handler V5.Packet ErrorV5 α) := ofSession (tried f)

theorem removing (topic_filter : TopicFilter) : Lock clients last Eq
    (MqttClient.remove_local_subscription topic_filter : ClientM V3Handler V3.Packet MqttProtoError Unit)
    (MqttClient.remove_local_subscription topic_filter : ClientM V5Handler V5.Packet ErrorV5 Unit) := by
  refine changing (fun _ => rfl) (fun _ => rfl) fun c c' same => { same with session := ?_ }
  rw [same.session, same.engine.world.order]

theorem adding (pid : Pid) (subscriptions : List (TopicFilter × QoS)) : Lock clients False Eq
    (MqttClient.add_subscriptions pid subscriptions : ClientM V3Handler V3.Packet MqttProtoError Unit)
    (MqttClient.add_subscriptions pid subscriptions : ClientM V5Handler V5.Packet ErrorV5 Unit) :=
  Lock.forM fun _ _ => tried_client _

/-! ### What the handlers create -/

/-- Both packets could be created, or neither. -/
def Created (x : Except MqttProtoError V3.Packet) (x' : Except ErrorV5 V5.Packet) : Prop :=
  (∃ packet packet', x = .ok packet ∧ x' = .ok packet') ∨ ∃ err err', x = .error err ∧ x' = .error err'

theorem publish_created (topic : TopicName) (qos : QoS) (retain : Bool) (payload : Bytes) (pid : Option Pid) (dup : Bool) :
    Created (V3Handler.create_publish_packet topic qos retain payload pid dup)
      (V5Handler.create_publish_packet topic qos retain payload pid dup) := by
  unfold V3Handler.create_publish_packet V5Handler.create_publish_packet
  cases qos_pid qos pid with
  | error err => exact .inr ⟨_, _, rfl, rfl⟩
  | ok level => exact .inl ⟨_, _, rfl, rfl⟩
theorem subscribe_created (subscriptions : List (TopicFilter × QoS)) (pid : Pid) :
    Created (V3Handler.create_subscribe_packet subscriptions pid) (V5Handler.create_subscribe_packet subscriptions pid) := by
  cases subscriptions with
  | nil => exact .inr ⟨_, _, rfl, rfl⟩
  | cons first rest => exact .inl ⟨_, _, rfl, rfl⟩
theorem unsubscribe_created (topics : List TopicFilter) (pid : Pid) :
    Created (V3Handler.create_unsubscribe_packet topics pid) (V5Handler.create_unsubscribe_packet topics pid) := by
  cases topics with
  | nil => exact .inr ⟨_, _, rfl, rfl⟩
  | cons first rest => exact .inl ⟨_, _, rfl, rfl⟩

/-! ### The operations of the engine -/

variable [Codec V3.Packet MqttProtoError] [Codec V5.Packet ErrorV5]

theorem creating {σ σ' ω : Type} {K : Coupling MqttError MqttError σ σ' ω} (alike : K.alike = SameError)
    {x : Except MqttProtoError V3.Packet} {x' : Except ErrorV5 V5.Packet} (created : Created x x') :
    Lock K last (fun _ _ => True) (ofExcept (into V3Handler) x) (ofExcept (into V5Handler) x') := by
  refine Lock.ofExcept ?_
  rcases created with ⟨packet, packet', made, made'⟩ | ⟨err, err', failed, failed'⟩
  · exact .inl ⟨packet, packet', made, made', trivial⟩
  · exact .inr ⟨err, err', failed, failed', alike ▸ SameError.protocol _ _⟩

omit [Codec V5.Packet ErrorV5] in
theorem transmitted_left {e t : MqttProtocolEngine V3Handler V3.Packet MqttProtoError}
    {e' : MqttProtocolEngine V5Handler V5.Packet ErrorV5} {r : Except (Halt MqttError) Unit} (same : SameEngine e e')
    (transmitted : Transmitted e r t) : SameEngine t e' := by
  cases transmitted with
  | unencoded err => exact same
  | encoded rest flush outcome => exact { same with world := { same.world with }, idle := rfl }
omit [Codec V3.Packet MqttProtoError] in
theorem transmitted_right {e : MqttProtocolEngine V3Handler V3.Packet MqttProtoError}
    {e' t : MqttProtocolEngine V5Handler V5.Packet ErrorV5} {r : Except (Halt MqttError) Unit} (same : SameEngine e e')
    (transmitted : Transmitted e' r t) : SameEngine e t := by
  cases transmitted with
  | unencoded err => exact same
  | encoded rest flush outcome => exact { same with world := { same.world with }, idle' := rfl }

theorem transmitting (packet : V3.Packet) (packet' : V5.Packet) :
    Lock engines last Eq (transmit (H := V3Handler) packet) (transmit (H := V5Handler) packet') := by
  intro e e' same
  have left : Transmitted e _ _ := transmit_spec (H := V3Handler) packet same.idle
  have right : Transmitted e' _ _ := transmit_spec (H := V5Handler) packet' same.idle'
  generalize exec (transmit (H := V3Handler) packet) e = x at left ⊢
  generalize exec (transmit (H := V5Handler) packet') e' = y at right ⊢
  obtain ⟨r, t⟩ := x
  obtain ⟨r', t'⟩ := y
  have same_left := transmitted_left same left
  have same_right := transmitted_right same right
  refine ⟨⟨left.observed.1, _, Matched.same SameError.refl r same_left⟩,
    ⟨right.observed.1, _, (Matched.same (K := engines) SameError.refl r' same_right).swap⟩, ?_⟩
  intro after after' finished finished' total
  have related : SameEngine t t' := transmitted_right same_left right
  change seen (fun e => outcomes e.log) e t ++ after = seen (fun e => outcomes e.log) e' t' ++ after' at total
  change seen (fun e => outcomes e.log) e t = seen (fun e => outcomes e.log) e' t' ∧ _
  -- A packet that cannot be encoded has no outcome, and nothing comes after it.
  rcases left.observed.2 with ⟨none, err, failed⟩ | one <;> rcases right.observed.2 with ⟨none', err', failed'⟩ | one'
  · refine ⟨none.trans none'.symm, ?_⟩
    cases failed
    cases failed'
    exact .err (.protocol _ _) related
  · rw [none, one', finished (.inr ⟨_, failed⟩)] at total
    cases total
  · rw [one, none', finished' (.inr ⟨_, failed'⟩)] at total
    cases total
  · rw [one, one'] at total ⊢
    cases (List.cons.inj total).1
    exact ⟨rfl, Matched.same SameError.refl r related⟩

theorem reading : Lock engines last Corresponds (read_from_transport (H := V3Handler)) (read_from_transport (H := V5Handler)) := by
  refine .still fun e e' (same : SameEngine e e') => ?_
  have next : Parallel { e.world with read := fun n => e.world.read (n + 1) }
      { e'.world with read := fun n => e'.world.read (n + 1) } :=
    { same.world with read := fun n => same.world.read (n + 1) }
  have arriving := same.world.read 0
  simp only [read_from_transport, exec_ofExec]
  generalize e.world.read 0 = answer at arriving
  generalize e'.world.read 0 = answer' at arriving
  cases arriving with
  | packet corresponds =>
    exact ⟨unobserved _ rfl, unobserved _ rfl, .ok corresponds { same with world := next }⟩
  | failed consumed consumed' err err' => exact ⟨rfl, rfl, .err (.protocol _ _) { same with world := next }⟩
  | waiting consumed consumed' => exact ⟨rfl, rfl, .cut { same with world := next }⟩

theorem sending (packet : V3.Packet) (packet' : V5.Packet) :
    Lock engines last Eq (send_packet (H := V3Handler) packet) (send_packet (H := V5Handler) packet') := by
  rw [send_packet_eq, send_packet_eq]
  refine (transmitting packet packet').seq fun _ => clock.seq fun time => ?_
  exact Lock.modify (fun _ => rfl) (fun _ => rfl) fun e e' (same : SameEngine e e') => { same with sent := rfl }

theorem receiving : Lock engines last ActionsAlike (receive_packet_unlogged (H := V3Handler))
    (receive_packet_unlogged (H := V5Handler)) := by
  refine reading.bind fun packet packet' corresponds => clock.seq fun time => Lock.seq ?_ fun _ => ?_
  · exact Lock.modify (fun _ => rfl) (fun _ => rfl) fun e e' (same : SameEngine e e') => { same with received := rfl }
  refine Lock.get.bind fun e e' _ => Lock.ofExcept ?_
  rcases handle_packet_alike corresponds with ⟨action, action', handled, handled', alike⟩ | ⟨err, err', refused, refused'⟩
  · exact .inl ⟨action, action', handled, handled', alike⟩
  · exact .inr ⟨err, err', refused, refused', .protocol _ _⟩

theorem connecting (id : String) (user : Option String) (pass : Option Bytes) (alive : UInt16) (clean : Bool)
    (topic : Option TopicName) (message : Option Bytes) (qos : Option QoS) (retain : Bool) : Lock engines last Eq
      (connect_with_will (H := V3Handler) id user pass alive clean topic message qos retain)
      (connect_with_will (H := V5Handler) id user pass alive clean topic message qos retain) := by
  refine Lock.get.bind fun e e' (same : SameEngine e e') => Lock.ite (by rw [same.connected])
    (fun _ => .fail (.refl _)) fun _ => Lock.seq ?_ fun _ => Lock.bind (creating rfl ?_) fun packet packet' _ => ?_
  · exact Lock.modify (fun _ => rfl) (fun _ => rfl) fun e e' (same : SameEngine e e') => { same with interval := rfl }
  · cases topic <;> cases message <;> cases qos <;> exact .inl ⟨_, _, rfl, rfl⟩
  refine (sending packet packet').seq fun _ => receiving.bind fun action action' alike => ?_
  have accepted : ∀ present, Lock engines last Eq
      (do modify fun e => { e with connected := true }; return .ConnectAck present 0 :
        EngineM V3Handler V3.Packet MqttProtoError PacketAction)
      (do modify fun e => { e with connected := true }; return .ConnectAck present 0 :
        EngineM V5Handler V5.Packet ErrorV5 PacketAction) := fun present =>
    Lock.seq (Lock.modify (fun _ => rfl) (fun _ => rfl) fun e e' (same : SameEngine e e') => { same with connected := rfl })
      fun _ => .pure rfl
  cases alike with
  | connack session_present zero =>
    refine Lock.ite zero (fun none => ?_) fun _ => .fail (.refl _)
    cases none
    cases zero.mp rfl
    exact accepted session_present
  | suback pid grants => exact .fail (.refl _)
  | same action =>
    cases action with
    | ConnectAck session_present return_code =>
      refine Lock.ite Iff.rfl (fun none => ?_) fun _ => .fail (.refl _)
      cases none
      exact accepted session_present
    | _ => exact .fail (.refl _)

theorem engine_ping : Lock engines last Eq (MqttProtocolEngine.ping (H := V3Handler)) (MqttProtocolEngine.ping (H := V5Handler)) :=
  Lock.get.bind fun e e' (same : SameEngine e e') => Lock.ite (by rw [same.connected]) (fun _ => .fail (.refl _))
    fun _ => sending _ _

theorem engine_disconnect : Lock engines last Eq (MqttProtocolEngine.disconnect (H := V3Handler))
    (MqttProtocolEngine.disconnect (H := V5Handler)) := by
  refine Lock.get.bind fun e e' (same : SameEngine e e') => Lock.ite (by rw [same.connected]) (fun _ => .pure rfl)
    fun _ => (sending _ _).seq fun _ => Lock.seq ?_ fun _ => closing
  exact Lock.modify (fun _ => rfl) (fun _ => rfl) fun e e' (same : SameEngine e e') => { same with connected := rfl }

/-! ### The operations of the session -/

theorem publishing (topic : TopicName) (qos : QoS) (retain : Bool) (payload : Bytes) : Lock sessions last Eq
    (MqttProtocolEngine.publish (H := V3Handler) topic qos retain payload)
    (MqttProtocolEngine.publish (H := V5Handler) topic qos retain payload) := by
  refine Lock.get.bind fun s s' same => Lock.ite (by rw [show s.1.connected = s'.1.connected from same.1.connected])
    (fun _ => .fail (.refl _)) fun _ => (publish_identifier qos).seq fun pid => ?_
  refine (creating rfl (publish_created topic qos retain payload pid false)).bind fun packet packet' _ => ?_
  exact (storing pid topic qos retain payload).seq fun _ => (inEngine (sending packet packet')).seq fun _ => .pure rfl

/-- A request that takes an identifier and is sent. -/
theorem requesting {create : Pid → Except MqttProtoError V3.Packet} {create' : Pid → Except ErrorV5 V5.Packet}
    (created : ∀ pid, Created (create pid) (create' pid)) : Lock sessions last Eq
      (next_pid >>= fun pid => ofExcept (into V3Handler) (create pid) >>= fun packet =>
        zoom first (send_packet packet) >>= fun _ => pure pid)
      (next_pid >>= fun pid => ofExcept (into V5Handler) (create' pid) >>= fun packet =>
        zoom first (send_packet packet) >>= fun _ => pure pid) :=
  next_identifier.seq fun pid => (creating rfl (created pid)).bind fun packet packet' _ =>
    (inEngine (sending packet packet')).seq fun _ => .pure rfl

theorem subscribing (subscriptions : List (TopicFilter × QoS)) : Lock sessions last Eq
    (MqttProtocolEngine.subscribe (H := V3Handler) subscriptions) (MqttProtocolEngine.subscribe (H := V5Handler) subscriptions) :=
  Lock.get.bind fun s s' same => Lock.ite (by rw [show s.1.connected = s'.1.connected from same.1.connected])
    (fun _ => .fail (.refl _)) fun _ => requesting (subscribe_created subscriptions)
theorem unsubscribing (topics : List TopicFilter) : Lock sessions last Eq
    (MqttProtocolEngine.unsubscribe (H := V3Handler) topics) (MqttProtocolEngine.unsubscribe (H := V5Handler) topics) :=
  Lock.get.bind fun s s' same => Lock.ite (by rw [show s.1.connected = s'.1.connected from same.1.connected])
    (fun _ => .fail (.refl _)) fun _ => requesting (unsubscribe_created topics)

/-- A reply that goes out. -/
theorem replying (create : V3Handler → Except MqttProtoError V3.Packet) (create' : V5Handler → Except ErrorV5 V5.Packet)
    (created : ∀ h h', Created (create h) (create' h')) : Lock sessions last Eq
      (get >>= fun s => ofExcept (into V3Handler) (create s.1.handler) >>= fun packet => zoom first (send_packet packet))
      (get >>= fun s => ofExcept (into V5Handler) (create' s.1.handler) >>= fun packet => zoom first (send_packet packet)) :=
  Lock.get.bind fun s s' _ => (creating rfl (created s.1.handler s'.1.handler)).bind fun packet packet' _ =>
    inEngine (sending packet packet')

theorem acknowledging {action action' : PacketAction} (alike : ActionsAlike action action') :
    Lock sessions last Eq (acknowledge (H := V3Handler) action) (acknowledge (H := V5Handler) action') := by
  cases alike with
  | connack _ _ | suback _ _ => exact .pure rfl
  | same action =>
    cases action with
    | PublishAck pid => exact (session _).seq fun _ => .pure rfl
    | PublishComplete pid => exact (session _).seq fun _ => (session _).seq fun _ => .pure rfl
    | PublishRec pid =>
      refine (session _).seq fun found => ?_
      cases found with
      | none => exact .pure rfl
      | some message =>
        refine Lock.get.bind fun s s' _ => (creating rfl (.inl ⟨_, _, rfl, rfl⟩)).bind fun packet packet' _ => ?_
        exact (inEngine (sending packet packet')).seq fun _ => tried _
    | PublishRelease pid =>
      exact replying (fun h => create_pubcomp_packet h pid) (fun h => create_pubcomp_packet h pid)
        fun _ _ => .inl ⟨_, _, rfl, rfl⟩
    | PublishReceived topic qos retain payload pid =>
      cases pid with
      | none => cases qos <;> exact .pure rfl
      | some pid =>
        cases qos with
        | Level0 => exact .pure rfl
        | Level1 =>
          exact replying (fun h => create_puback_packet h pid) (fun h => create_puback_packet h pid)
            fun _ _ => .inl ⟨_, _, rfl, rfl⟩
        | Level2 =>
          exact replying (fun h => create_pubrec_packet h pid) (fun h => create_pubrec_packet h pid)
            fun _ _ => .inl ⟨_, _, rfl, rfl⟩
    | ConnectAck _ _ | SubscribeAck _ _ | UnsubscribeAck _ | PingResponse | None => exact .pure rfl

theorem receiving_packet : Lock sessions last ActionsAlike (receive_packet (H := V3Handler)) (receive_packet (H := V5Handler)) :=
  (inEngine receiving).bind fun _ _ alike => (acknowledging alike).seq fun _ => .pure alike

theorem retrying_publish (current_time : Nat) (pid : Pid) :
    Lock sessions last Eq (retry_publish (H := V3Handler) current_time pid) (retry_publish (H := V5Handler) current_time pid) := by
  refine Lock.get.bind fun s s' same => ?_
  dsimp only
  rw [show s'.2 = s.2 from same.2.symm]
  cases SessionState.get_outgoing_publish_mut pid s.2 with
  | none => exact .pure rfl
  | some found =>
    refine (session _).seq fun _ => (creating rfl ?_).bind fun packet packet' _ => inEngine (sending packet packet')
    exact publish_created _ _ _ _ _ _
theorem retrying_pubrel (current_time : Nat) (pid : Pid) :
    Lock sessions last Eq (retry_pubrel (H := V3Handler) current_time pid) (retry_pubrel (H := V5Handler) current_time pid) := by
  refine Lock.get.bind fun s s' same => (creating rfl (.inl ⟨_, _, rfl, rfl⟩)).bind fun packet packet' _ => ?_
  refine Lock.ite ?_ (fun _ => inEngine (sending packet packet')) fun _ => .pure rfl
  rw [show s.1.last_packet_sent_time = s'.1.last_packet_sent_time from same.1.sent]
theorem retrying (current_time : Nat) :
    Lock sessions False Eq (handle_retries (H := V3Handler) current_time) (handle_retries (H := V5Handler) current_time) := by
  refine Lock.get.bind fun s s' same => ?_
  dsimp only
  rw [show s'.2 = s.2 from same.2.symm, show s'.1.world.order = s.1.world.order from same.1.world.order.symm]
  refine (Lock.forM fun pid _ => (session _).seq fun _ => .pure rfl).seq fun _ => ?_
  refine (Lock.forM fun pid _ => retrying_publish current_time pid).seq fun _ => Lock.get.bind fun s s' same => ?_
  rw [show s'.2 = s.2 from same.2.symm, show s'.1.world.order = s.1.world.order from same.1.world.order.symm]
  exact Lock.forM fun pid _ => retrying_pubrel current_time pid

/-! ### The operations of the client -/

theorem publish_client (topic : TopicName) (payload : Bytes) (config : PublishConfig) : Lock clients last Eq
    (MqttClient.publish (H := V3Handler) topic payload config) (MqttClient.publish (H := V5Handler) topic payload config) := by
  refine whenConnected (Lock.get.bind fun c c' (same : SameClient c c') => Lock.ite ?_ (fun _ => .fail (.refl _)) fun _ => ?_)
  · simp only [MqttClient.inflight_limit_reached, same.session, same.config, same.engine.world.order]
  · exact (ofSession (publishing topic config.qos config.retain payload)).seq fun _ => counting

theorem ping : Lock clients last Eq (MqttClient.ping (H := V3Handler)) (MqttClient.ping (H := V5Handler)) :=
  whenConnected (ofEngine engine_ping)

theorem resending : Lock clients False Eq (MqttClient.resend_pending_messages (H := V3Handler))
    (MqttClient.resend_pending_messages (H := V5Handler)) := by
  refine Lock.get.bind fun c c' (same : SameClient c c') => ?_
  dsimp only
  rw [show c'.session_state = c.session_state from same.session.symm,
    show c'.protocol_engine.world.order = c.protocol_engine.world.order from same.engine.world.order.symm]
  refine Lock.forM fun entry _ => Lock.get.bind fun c c' _ => ?_
  refine (creating rfl (publish_created _ _ _ _ _ _)).bind fun packet packet' _ => ofEngine (sending packet packet')

theorem connect : Lock clients False Eq (MqttClient.connect (H := V3Handler)) (MqttClient.connect (H := V5Handler)) := by
  refine Lock.get.bind fun c c' (same : SameClient c c') => ?_
  dsimp only
  rw [show c'.config = c.config from same.config.symm]
  refine Lock.seq (Lock.ofExcept ?_) fun _ => (entering _).seq fun _ => (Lock.onlyIf Iff.rfl fun _ => ?_).seq fun _ => ?_
  · cases c.config.validate with
    | ok _ => exact .inl ⟨_, _, rfl, rfl, rfl⟩
    | error err => exact .inr ⟨err, err, rfl, rfl, .refl _⟩
  · refine Lock.modify (fun c => unobserved _ rfl) (fun c => unobserved _ rfl) fun c c' (same : SameClient c c') => ?_
    exact { same with engine := { same.engine with }, session := congrArg SessionState.clear same.session }
  have refused : ∀ {err err'}, SameError err err' → Lock clients False Eq
      (do MqttClient.set_connection_state .Error; fail err : ClientM V3Handler V3.Packet MqttProtoError Unit)
      (do MqttClient.set_connection_state .Error; fail err' : ClientM V5Handler V5.Packet ErrorV5 Unit) := fun alike =>
    (entering _).seq fun _ => .fail alike
  have ends : ∀ err, Ends clients False
      (do MqttClient.set_connection_state .Error; fail err : ClientM V3Handler V3.Packet MqttProtoError Unit) :=
    fun _ _ => ⟨rfl, .inr ⟨_, rfl⟩⟩
  have ends' : ∀ err, Ends clients.swap False
      (do MqttClient.set_connection_state .Error; fail err : ClientM V5Handler V5.Packet ErrorV5 Unit) :=
    fun _ _ => ⟨rfl, .inr ⟨_, rfl⟩⟩
  refine Lock.attempt_bind (ofEngine (connecting _ _ _ _ _ _ _ _ _)) (fun action action' (alike : action = action') => ?_)
    (fun _ _ => refused) ends ends'
  cases alike
  cases action with
  | ConnectAck session_present return_code =>
    refine Lock.ite Iff.rfl (fun _ => (entering _).seq fun _ => Lock.seq ?_ fun _ => ?_) fun _ => refused (.refl _)
    · exact changing (fun _ => rfl) (fun _ => rfl) fun _ _ same => { same with attempt := rfl, interval := rfl }
    · exact Lock.onlyIf Iff.rfl fun _ => resending
  | _ => exact refused (.refl _)

theorem reconnect : Lock clients False Eq (MqttClient.reconnect (H := V3Handler)) (MqttClient.reconnect (H := V5Handler)) := by
  refine Lock.get.bind fun c c' (same : SameClient c c') => ?_
  dsimp only
  rw [show c'.config = c.config from same.config.symm, show c'.reconnect_attempt = c.reconnect_attempt from same.attempt.symm,
    show c'.reconnect_interval_ms = c.reconnect_interval_ms from same.interval.symm]
  refine Lock.ite Iff.rfl (fun _ => .fail (.refl _)) fun _ => Lock.ite Iff.rfl (fun _ => .fail (.refl _)) fun _ => ?_
  refine Lock.seq ?_ fun _ => (ofEngine (delaying _)).seq fun _ => connect
  refine changing (fun _ => rfl) (fun _ => rfl) fun c c' same => { same with attempt := ?_, interval := rfl }
  rw [same.attempt]

theorem disconnect : Lock clients False Eq (MqttClient.disconnect (H := V3Handler)) (MqttClient.disconnect (H := V5Handler)) := by
  refine Lock.get.bind fun c c' (same : SameClient c c') => Lock.ite (by rw [same.state]) (fun _ => .pure rfl) fun _ => ?_
  refine (entering _).seq fun _ => Lock.attempt_bind (ofEngine engine_disconnect) (fun _ _ same => ?_) (fun _ _ alike => ?_)
    (fun _ _ => ⟨rfl, .inr ⟨_, rfl⟩⟩) fun _ _ => ⟨rfl, .inr ⟨_, rfl⟩⟩
  · exact (entering _).seq fun _ => .pure rfl
  · exact (entering _).seq fun _ => .fail alike

omit [Codec V3.Packet MqttProtoError] [Codec V5.Packet ErrorV5] in
theorem handling {action action' : PacketAction} (alike : ActionsAlike action action') : Lock clients last Eq
    (MqttClient.handle_packet_action (H := V3Handler) (P := V3.Packet) (E := MqttProtoError) action)
    (MqttClient.handle_packet_action (H := V5Handler) (P := V5.Packet) (E := ErrorV5) action') := by
  cases alike with
  | connack _ _ => exact .pure rfl
  | suback pid grants =>
    refine Lock.seq ?_ fun _ => .pure rfl
    rw [show SessionState.confirm_subscription pid _ = _ from funext (confirm_subscription_alike pid grants)]
    exact tried_client _
  | same action =>
    cases action with
    | PublishReceived topic qos retain payload pid =>
      refine (ofEngine clock).seq fun timestamp => Lock.seq ?_ fun _ => .pure rfl
      exact changing (fun _ => rfl) (fun _ => rfl) fun _ _ same =>
        { same with state := congrArg (ClientState.add_received_message _) same.state }
    | SubscribeAck pid codes => exact (tried_client _).seq fun _ => .pure rfl
    | _ => exact .pure rfl

theorem receive : Lock clients False Eq (MqttClient.receive (H := V3Handler)) (MqttClient.receive (H := V5Handler)) :=
  Lock.attempt_bind (ofSession receiving_packet) (fun _ _ alike => handling alike)
    (fun _ _ alike => (entering _).seq fun _ => .fail alike) (fun _ _ => ⟨rfl, .inr ⟨_, rfl⟩⟩)
    fun _ _ => ⟨rfl, .inr ⟨_, rfl⟩⟩

theorem poll_connected : Lock clients False Eq (MqttClient.poll_connected (H := V3Handler))
    (MqttClient.poll_connected (H := V5Handler)) := by
  refine (ofEngine clock).seq fun time => Lock.get.bind fun c c' (same : SameClient c c') => ?_
  refine Lock.ite ?_ (fun _ => (entering _).seq fun _ => .fail (.refl _)) fun _ => ?_
  · simp only [MqttProtocolEngine.is_connection_timeout, same.engine.interval, same.engine.received]
  refine (Lock.onlyIf ?_ fun _ => ping).seq fun _ => (ofSession (retrying time)).seq fun _ => receive
  simp only [MqttProtocolEngine.should_send_keep_alive, same.engine.interval, same.engine.sent]

theorem poll : Lock clients True Eq (MqttClient.poll (H := V3Handler)) (MqttClient.poll (H := V5Handler)) := by
  have down : Lock clients True Eq
      (do MqttClient.set_connection_state .Disconnected; return some .Disconnected :
        ClientM V3Handler V3.Packet MqttProtoError (Option ClientEvent))
      (do MqttClient.set_connection_state .Disconnected; return some .Disconnected :
        ClientM V5Handler V5.Packet ErrorV5 (Option ClientEvent)) := (entering _).seq fun _ => .pure rfl
  refine Lock.get.bind fun c c' (same : SameClient c c') => Lock.ite ?_ (fun _ => Lock.ite ?_ (fun _ => ?_) fun _ =>
    Lock.ite ?_ (fun _ => down) fun _ => .pure rfl) fun _ => poll_connected.final
  · simp only [MqttProtocolEngine.is_connected, same.engine.connected, same.engine.world.is_connected]
  · rw [same.state, same.config]
  · exact Lock.attempt_bind reconnect (fun _ _ _ => poll_connected.final) (fun _ _ _ => down)
      (fun _ _ => ⟨rfl, .inl trivial⟩) fun _ _ => ⟨rfl, .inl trivial⟩
  · rw [same.state]

omit [Codec V3.Packet MqttProtoError] [Codec V5.Packet ErrorV5] in
theorem next_message : Lock clients last Eq
    (MqttClient.next_message : ClientM V3Handler V3.Packet MqttProtoError (Option ReceivedMessage))
    (MqttClient.next_message : ClientM V5Handler V5.Packet ErrorV5 (Option ReceivedMessage)) :=
  .still fun c c' (same : SameClient c c') => ⟨rfl, rfl,
    .ok (by rw [same.state]) { same with state := congrArg (fun state => state.pop_received_message.2) same.state }⟩

/-- Every operation does the same, as far as the packets meet the same fate. -/
theorem perform (op : Op .v3) : Lock clients True Eq op.perform op.upgrade.perform := by
  have unit : ∀ {request : ClientM V3Handler V3.Packet MqttProtoError Unit}
      {request' : ClientM V5Handler V5.Packet ErrorV5 Unit}, Lock clients False Eq request request' →
      Lock clients True Eq (do request; return Reply.unit) (do request'; return Reply.unit) :=
    fun lock => lock.seq fun _ => .pure rfl
  cases op with
  | connect => exact unit connect
  | reconnect => exact unit reconnect
  | disconnect => exact unit disconnect
  | publish topic payload config => exact unit (publish_client topic payload config)
  | subscribe topic_filter qos =>
    exact unit (whenConnected ((ofSession (subscribing _)).seq fun _ => tried_client _))
  | subscribe_multiple subscriptions =>
    refine unit (whenConnected (Lock.ite Iff.rfl (fun _ => .pure rfl) fun _ => ?_))
    exact (ofSession (subscribing _)).seq fun pid => adding pid subscriptions
  | unsubscribe topic_filter =>
    exact unit (whenConnected ((ofSession (unsubscribing _)).seq fun _ => removing topic_filter))
  | unsubscribe_multiple topic_filters =>
    refine unit (whenConnected (Lock.ite Iff.rfl (fun _ => .pure rfl) fun _ => ?_))
    exact (ofSession (unsubscribing _)).seq fun _ => Lock.forM fun topic_filter _ => removing topic_filter
  | ping => exact unit ping
  | poll => exact poll.result fun _ _ => congrArg Reply.event
  | next_message => exact next_message.seq fun _ => .pure rfl

/-! ### Runs of both clients -/

/-- A call of both clients. -/
structure Twin where
  op : Op .v3
  world : World V3.Packet MqttProtoError
  world' : World V5.Packet ErrorV5

namespace Twin

def first (twin : Twin) : Call .v3 := ⟨twin.op, twin.world⟩
def second (twin : Twin) : Call .v5 := ⟨twin.op.upgrade, twin.world'⟩

/-- The clients after a call. -/
def step (s : Client .v3 × Client .v5) (twin : Twin) : Client .v3 × Client .v5 :=
  (s.1.after twin.first, s.2.after twin.second)

/-- The surroundings behave alike, and the packets that are sent meet the same fate. -/
def Alike (s : Client .v3 × Client .v5) (twin : Twin) : Prop :=
  Parallel twin.world twin.world' ∧ outcomes (s.1.events twin.first) = outcomes (s.2.events twin.second)

end Twin

/-- The results are the same, up to the wording of protocol errors. -/
inductive SameResult : Except (Halt MqttError) Reply → Except (Halt MqttError) Reply → Prop where
  | ok (reply : Reply) : SameResult (.ok reply) (.ok reply)
  | err {err err' : MqttError} : SameError err err' → SameResult (.error (.err err)) (.error (.err err'))
  | cut : SameResult (.error .cut) (.error .cut)

/-- The clients return the same from a call and hold the same after it. -/
structure Agree (s : Client .v3 × Client .v5) (twin : Twin) : Prop where
  result : SameResult (s.1.call twin.first).1 (s.2.call twin.second).1
  session : (s.1.after twin.first).session_state = (s.2.after twin.second).session_state
  state : (s.1.after twin.first).state = (s.2.after twin.second).state

/-- Between two calls, the clients are the same in surroundings that behave alike. -/
def Level (s : Client .v3 × Client .v5) : Prop :=
  ∀ world world', Parallel world world' → SameClient (s.1.withWorld world) (s.2.withWorld world')

theorem seen_events {v : Version} {c : Client v} (idle : c.Idle) (call : Call v) :
    seen (fun c : Client v => outcomes c.protocol_engine.log) (c.withWorld call.world) (c.after call) =
      outcomes (c.events call) := by
  rw [seen, Client.call_log idle, outcomes_append]
  exact List.drop_left

omit [Codec V3.Packet MqttProtoError] [Codec V5.Packet ErrorV5] in
theorem matched_same {x : Except (Halt MqttError) Reply × Client .v3} {y : Except (Halt MqttError) Reply × Client .v5}
    (matched : Matched clients Eq x y) : SameResult x.1 y.1 ∧ SameClient x.2 y.2 := by
  cases matched with
  | @ok reply reply' _ _ same related =>
    cases same
    exact ⟨.ok reply, related⟩
  | err alike related => exact ⟨.err alike, related⟩
  | cut related => exact ⟨.cut, related⟩

theorem step_agrees {s : Client .v3 × Client .v5} {twin : Twin} (level : Level s) (alike : twin.Alike s) :
    Agree s twin ∧ Level (twin.step s) := by
  obtain ⟨parallel, fate⟩ := alike
  have related := level _ _ parallel
  have left : seen clients.left (s.1.withWorld twin.world) (s.1.after twin.first) = outcomes (s.1.events twin.first) :=
    seen_events (c := s.1) related.engine.idle twin.first
  have right : seen clients.right (s.2.withWorld twin.world') (s.2.after twin.second) = outcomes (s.2.events twin.second) :=
    seen_events (c := s.2) related.engine.idle' twin.second
  have same := left.trans (fate.trans right.symm)
  have matched := ((perform twin.op _ _ related).2.2 [] [] (fun _ => rfl) (fun _ => rfl)
    ((List.append_nil _).trans (same.trans (List.append_nil _).symm))).2
  obtain ⟨result, same⟩ := matched_same (x := s.1.call twin.first) (y := s.2.call twin.second) matched
  refine ⟨⟨result, same.session, same.state⟩, fun world world' parallel => ?_⟩
  exact { same with engine := { same.engine with world := parallel } }

omit [Codec V3.Packet MqttProtoError] [Codec V5.Packet ErrorV5] in
/-- Surroundings that take every byte and deliver corresponding packets behave alike. -/
theorem obliging_parallel {packets : List V3.Packet} {packets' : List V5.Packet}
    (corresponds : List.Forall₂ Corresponds packets packets') : Parallel (.obliging true packets) (.obliging true packets') := by
  refine ⟨rfl, rfl, fun n => ?_, rfl, rfl, rfl⟩
  change ReadsAlike ((packets[n]?).elim (.waiting []) .packet) ((packets'[n]?).elim (.waiting []) .packet)
  induction corresponds generalizing n with
  | nil => exact .waiting [] []
  | cons first rest ih =>
    cases n with
    | zero => exact .packet first
    | succ n => simpa using ih n

end Versions

section
open Versions
local instance : Codec V3.Packet MqttProtoError := Wire.v3Codec
local instance : Codec V5.Packet ErrorV5 := Wire.v5Codec

namespace Versions

/-- A call in surroundings that take every byte. -/
def twin (op : Op .v3) (packets : List V3.Packet) (packets' : List V5.Packet) : Twin :=
  ⟨op, .obliging true packets, .obliging true packets'⟩

/-- Both clients connect, subscribe in vain, publish a message, are answered, and receive what no broker sends. -/
def session_of_both : List Twin :=
  [twin .connect [.Connack ⟨false, 0⟩] [.Connack ⟨false, 0, {}⟩], twin (.subscribe "a" .Level1) [] [],
    twin .poll [.Suback ⟨.default, [0x80]⟩] [.Suback ⟨.default, [0x87]⟩], twin (.publish "a" [1] ⟨.Level2, false⟩) [] [],
    twin .poll [.Pubrec (.next .default)] [.Pubrec ⟨.next .default, 0⟩], twin .poll [.Pingreq] [.Pingreq]]

end Versions
end

end Masaka
