import Masaka.Subscriptions
import Masaka.Reconnect

/-!
Requests that find the table of subscriptions full. The SUBSCRIBE is sent first, and
the table is asked afterwards, filter by filter.
-/
namespace Masaka.Overfull
open Effect Tables MqttProtocolHandler LawfulHandler MqttProtocolEngine Sending Subscriptions
open MqttClient (engine engineSession)

section
variable {H P E : Type}

/-- Every record of a request finds room, under the identifier. -/
def Fits (s : InMemorySession) (pid : Pid) (count : Nat) : Prop :=
  len s.subscriptions < s.sub_capacity ∧
    (1 < count → pid ∉ s.subscriptions → len s.subscriptions + 1 < s.sub_capacity)

/-- The records of a request are refused exactly if they do not find room; the engine is
    not asked. -/
theorem add_subscriptions_fails_iff (pid : Pid) {subscriptions : List (TopicFilter × QoS)} (nonempty : subscriptions ≠ [])
    (c : MqttClient H P E) : wp (MqttClient.add_subscriptions pid subscriptions) c fun r c' =>
      (r = .error (.err .Internal) ↔ ¬ Fits c.session_state pid subscriptions.length) ∧
        c'.protocol_engine = c.protocol_engine := by
  refine wp_mono (add_subscriptions_ends pid nonempty c) fun r c' outcome => ?_
  obtain ⟨⟨rfl, fits⟩ | ⟨rfl, unfit⟩, same⟩ := outcome
  · exact ⟨iff_of_false (fun failed => by cases failed) (not_not.mpr fits), same⟩
  · exact ⟨iff_of_true rfl unfit, same⟩

variable [MqttProtocolHandler H P E]

/-- The request gets as far as the table, where it does not find room. -/
def Refuses (c : MqttClient H P E) (created : Except E P) (count : Nat) : Prop :=
  (∃ packet, created = .ok packet ∧ Sends c.protocol_engine packet) ∧ ¬ Fits c.session_state c.session_state.next_pid count

/-- How a request for records ends: it is refused by the table exactly if it gets there, and
    then its packet has been sent. -/
structure Ends (c : MqttClient H P E) (created : Except E P) (count : Nat) (r : Except (Halt MqttError) PUnit)
    (c' : MqttClient H P E) : Prop where
  fails : r = .error (.err .Internal) ↔ Refuses c created count
  sent : r = .error (.err .Internal) → ∃ packet more, created = .ok packet ∧
    c'.protocol_engine.log = c.protocol_engine.log ++ more ∧ packet ∈ packets_sent more

/-- A request that ends with another error has not been refused by the table. -/
theorem Ends.other {c c' : MqttClient H P E} {created : Except E P} {count : Nat} {h : Halt MqttError}
    (other : h ≠ .err .Internal) (unsent : ¬ ∃ packet, created = .ok packet ∧ Sends c.protocol_engine packet) :
    Ends c created count (.error h) c' := by
  have different : (.error h : Except (Halt MqttError) PUnit) ≠ .error (.err .Internal) := fun same =>
    other (Except.error.inj same)
  exact ⟨iff_of_false different fun refuses => unsent refuses.1, fun same => absurd same different⟩

/-- A request takes an identifier, is sent, and then asks the table. -/
theorem subscribing_ends {create : Pid → Except E P} {into_error : E → MqttError}
    (proper : ∀ err, into_error err ≠ .Internal) (handled : ∀ err : E, into H err ≠ .Internal)
    {subscriptions : List (TopicFilter × QoS)} (nonempty : subscriptions ≠ []) {c : MqttClient H P E} (idle : c.Idle) :
    wp (zoom engineSession next_pid >>= fun pid => ofExcept into_error (create pid) >>= fun packet =>
      zoom engine (send_packet packet) >>= fun _ => MqttClient.add_subscriptions pid subscriptions) c
      (Ends c (create c.session_state.next_pid) subscriptions.length) := by
  rw [wp_bind, wp, Operations.exec_next_pid]
  refine wp_ofExcept_bind (fun packet created => ?_) fun err failed => ?_
  rotate_left
  · refine Ends.other (fun same => proper err (Halt.err.inj same)) ?_
    rintro ⟨packet, created, -⟩
    cases failed.symm.trans created
  rw [wp_bind, wp_zoom]
  have errors : wp (send_packet packet) (Operations.handed_out c).protocol_engine fun r _ =>
      ∀ err, r = .error (.err err) → err ≠ .Internal :=
    raises_send_packet (A := (· ≠ .Internal)) (fun _ same => by cases same) handled packet _
  refine wp_mono (wp_and (send_packet_spec packet (by exact idle)) errors) fun r e outcome => ?_
  obtain ⟨sent, errors⟩ := outcome
  have sends : r = .ok () ↔ Sends c.protocol_engine packet := sent.succeeds_iff
  cases r with
  | error h =>
    refine Ends.other (fun same => errors _ (congrArg Except.error same) rfl) ?_
    rintro ⟨packet', created', sendable⟩
    cases created.symm.trans created'
    cases sends.mpr sendable
  | ok _ =>
    have sendable := sends.mp rfl
    cases sent with
    | @encoded bytes _ events _ _ _ _ _ transmission _ =>
      cases transmission with
      | @complete writes _ _ _ _ =>
        refine wp_mono (add_subscriptions_fails_iff _ nonempty _) fun r c' outcome => ?_
        obtain ⟨fails, same⟩ := outcome
        have fits : r = .error (.err .Internal) ↔ ¬ Fits c.session_state c.session_state.next_pid subscriptions.length := fails
        have gained : ∃ more, c'.protocol_engine.log = c.protocol_engine.log ++ more ∧ packet ∈ packets_sent more := by
          refine ⟨_, (congrArg (·.log) same).trans (List.append_assoc c.protocol_engine.log _ _), ?_⟩
          exact List.mem_filterMap.mpr ⟨.sent ⟨packet, bytes⟩, by simp, rfl⟩
        obtain ⟨more, log, member⟩ := gained
        refine ⟨?_, fun _ => ⟨packet, more, created, log, member⟩⟩
        rw [fits, Refuses, and_iff_right ⟨packet, created, sendable⟩]

theorem subscribe_ends (handled : ∀ err : E, into H err ≠ .Internal) (subscriptions : List (TopicFilter × QoS))
    (nonempty : subscriptions ≠ []) {c : MqttClient H P E} (idle : c.Idle) (linked : c.protocol_engine.connected = true) :
    wp (zoom engineSession (subscribe (H := H) subscriptions) >>= fun pid =>
      MqttClient.add_subscriptions pid subscriptions) c
      (Ends c (create_subscribe_packet c.protocol_engine.handler subscriptions c.session_state.next_pid)
        subscriptions.length) := by
  simp only [MqttProtocolEngine.subscribe, zoom_bind, zoom_get, zoom_ite, zoom_fail, zoom_ofExcept,
    Operations.zoom_first, zoom_pure, bind_assoc, pure_bind]
  rw [wp_bind, wp_get]
  simp only [MqttClient.engineSession_get, linked, Bool.not_true, Bool.false_eq_true, if_false, bind_assoc, pure_bind]
  exact subscribing_ends handled handled nonempty idle

/-- A request of the client, with its check that the client is connected. -/
structure Answers (c : MqttClient H P E) (created : Except E P) (count : Nat) (r : Except (Halt MqttError) Reply)
    (c' : MqttClient H P E) : Prop where
  fails : r = .error (.err .Internal) ↔ c.state.connection_state = .Connected ∧ Refuses c created count
  sent : r = .error (.err .Internal) → ∃ packet more, created = .ok packet ∧
    c'.protocol_engine.log = c.protocol_engine.log ++ more ∧ packet ∈ packets_sent more

omit [MqttProtocolHandler H P E] in
theorem map_internal {α β : Type} {r : Except (Halt MqttError) α} {f : α → β} :
    r.map f = .error (.err .Internal) ↔ r = .error (.err .Internal) := by
  cases r with
  | error h => exact ⟨fun same => congrArg Except.error (Except.error.inj same), fun same => map_error same f⟩
  | ok a => exact iff_of_false (fun same => by cases same) fun same => by cases same

theorem whenConnected_answers {request : ClientM H P E Unit} {c : MqttClient H P E} {created : Except E P} {count : Nat}
    (ends : c.state.connection_state = .Connected → wp request c (Ends c created count)) :
    wp (MqttClient.whenConnected request >>= fun _ => pure Reply.unit) c (Answers c created count) := by
  refine wp_result ?_
  by_cases connected : c.state.connection_state = .Connected
  · have ran : exec (MqttClient.whenConnected request) c = exec request c := by
      rw [MqttClient.whenConnected, exec_bind, exec_get]
      simp only [connected, ne_eq, not_true_eq_false, if_false]
    rw [wp, ran]
    obtain ⟨fails, sent⟩ := ends connected
    exact ⟨map_internal.trans (fails.trans (and_iff_right connected).symm), fun same => sent (map_internal.mp same)⟩
  · have refused : exec (MqttClient.whenConnected request) c = (.error (.err .InvalidState), c) := by
      rw [MqttClient.whenConnected, exec_bind, exec_get]
      simp only [connected, ne_eq, not_false_eq_true, if_true]
      rfl
    rw [wp, refused]
    exact ⟨iff_of_false (fun same => by cases same) fun answers => connected answers.1, fun same => by cases same⟩

end

section
variable [Codec V3.Packet MqttProtoError] [Codec V5.Packet ErrorV5] {v : Version}

/-- The SUBSCRIBE of an operation, if it makes one. -/
def subscribe_packet : {v : Version} → Op v → Client v → Option (Except v.Error v.Packet)
  | _, .subscribe topic_filter qos, c =>
    some (create_subscribe_packet c.protocol_engine.handler [(topic_filter, qos)] c.session_state.next_pid)
  | _, .subscribe_multiple subscriptions, c =>
    some (create_subscribe_packet c.protocol_engine.handler subscriptions c.session_state.next_pid)
  | _, .subscribe_v5 subscriptions v5_config, c =>
    some (V5Handler.create_subscribe_with_config subscriptions c.session_state.next_pid v5_config)
  | _, _, _ => none

/-- It is a SUBSCRIBE. -/
theorem subscribe_packet_shape {op : Op v} {c : Client v} {packet : v.Packet}
    (created : subscribe_packet op c = some (.ok packet)) :
    ∃ pid topics, shape (H := v.Handler) packet = .subscribe pid topics := by
  cases op with
  | subscribe topic_filter qos => exact ⟨_, _, LawfulHandler.subscribe _ _ _ _ (Option.some.inj created)⟩
  | subscribe_multiple subscriptions => exact ⟨_, _, LawfulHandler.subscribe _ _ _ _ (Option.some.inj created)⟩
  | subscribe_v5 subscriptions v5_config => cases subscriptions <;> cases created; exact ⟨_, _, rfl⟩
  | _ => cases created

/-- Subscribing is a request of the client. -/
theorem op_answers {op : Op v} (subscribes : op.filters ≠ []) {c : Client v} (idle : c.Idle)
    (linked : c.state.connection_state = .Connected → c.protocol_engine.connected = true) :
    ∃ created, subscribe_packet op c = some created ∧ wp op.perform c (Answers c created op.filters.length) := by
  have handled : ∀ err : v.Error, into v.Handler err ≠ .Internal := by
    cases v <;> exact fun err same => by cases same
  cases op with
  | subscribe topic_filter qos =>
    refine ⟨_, rfl, whenConnected_answers fun connected => ?_⟩
    have one : ∀ pid, (MqttClient.trySession (SessionState.add_subscription pid topic_filter qos) :
        ClientM v.Handler v.Packet v.Error Unit) = MqttClient.add_subscriptions pid [(topic_filter, qos)] :=
      fun pid => bind_pure_unit.symm
    simp only [one]
    exact subscribe_ends handled [(topic_filter, qos)] (by simp) idle (linked connected)
  | subscribe_multiple subscriptions =>
    refine ⟨_, rfl, whenConnected_answers fun connected => ?_⟩
    cases subscriptions with
    | nil => exact absurd rfl subscribes
    | cons entry rest =>
      rw [Op.filters, List.length_map]
      exact subscribe_ends handled _ (by simp) idle (linked connected)
  | subscribe_v5 subscriptions v5_config =>
    refine ⟨_, rfl, whenConnected_answers fun connected => ?_⟩
    cases subscriptions with
    | nil => exact absurd rfl subscribes
    | cons entry rest =>
      rw [Op.filters, List.length_map]
      exact subscribing_ends handled handled (by simp) idle
  | _ => exact absurd rfl subscribes

/-- A call that subscribes and fails because of the limit has sent no SUBSCRIBE and leaves the
    table as it was. -/
def AllOrNothing (c : Client v) (call : Call v) : Prop :=
  call.op.filters ≠ [] → (c.call call).1 = .error (.err .Internal) →
    (∀ packet ∈ packets_sent (c.events call), ∀ pid topics, shape (H := v.Handler) packet ≠ .subscribe pid topics) ∧
      (c.after call).session_state.subscriptions = c.session_state.subscriptions

/-- A connected client subscribes, its SUBSCRIBE can be made and sent, and the table has no
    room for the records. -/
structure Overflows (c : Client v) (call : Call v) : Prop where
  nonempty : call.op.filters ≠ []
  connected : c.state.connection_state = .Connected
  sends : ∃ packet, subscribe_packet call.op c = some (.ok packet) ∧
    Sends (c.withWorld call.world).protocol_engine packet
  full : ¬ Fits c.session_state c.session_state.next_pid call.op.filters.length

/-- The limit is enforced before the wire only where it is not exceeded. -/
theorem all_or_nothing_iff {c : Client v} (reachable : c.Reachable) (call : Call v) :
    AllOrNothing c call ↔ ¬ Overflows c call := by
  by_cases subscribes : call.op.filters = []
  · exact iff_of_true (fun nonempty => absurd subscribes nonempty) fun overflows => overflows.nonempty subscribes
  have linked := Reconnect.connected_linked reachable
  obtain ⟨created, made, fails, sent⟩ := op_answers (c := c.withWorld call.world) subscribes reachable.idle linked
  have made' : subscribe_packet call.op c = some created := by
    rw [← made]
    cases call.op <;> rfl
  have overflows_iff : Overflows c call ↔ (c.call call).1 = .error (.err .Internal) := by
    refine Iff.trans ?_ fails.symm
    constructor
    · rintro ⟨-, connected, ⟨packet, same, sends⟩, full⟩
      exact ⟨connected, ⟨packet, Option.some.inj (made'.symm.trans same), sends⟩, full⟩
    · rintro ⟨connected, ⟨packet, rfl, sends⟩, full⟩
      exact ⟨subscribes, connected, ⟨packet, made', sends⟩, full⟩
  rw [overflows_iff]
  constructor
  · intro nothing failed
    obtain ⟨packet, more, rfl, log, member⟩ := sent failed
    obtain ⟨pid, topics, shaped⟩ := subscribe_packet_shape made'
    have events : c.events call = more := by
      rw [Client.events, show (c.after call).protocol_engine.log = _ from log]
      exact List.drop_left
    exact (nothing subscribes failed).1 packet (events ▸ member) pid topics shaped
  · intro fine _ failed
    exact absurd failed fine

end

/-! ### A full table -/

section
local instance : Codec V3.Packet MqttProtoError := Wire.v3Codec
local instance : Codec V5.Packet ErrorV5 := Wire.v5Codec

/-- A client with room for one record, which has subscribed to a filter. -/
def full : Client .v3 :=
  Client.run (MqttClient.new (.obliging true []) (Version.handler .v3 ()) { max_subscriptions := 1 })
    [⟨.connect, .obliging true [.Connack ⟨false, 0⟩]⟩, ⟨.subscribe "a" .Level1, .obliging true []⟩]

def subscribing : Call .v3 := ⟨.subscribe "b" .Level1, .obliging true []⟩

theorem full_reachable : full.Reachable := ⟨_, (), _, _, rfl⟩

theorem all_or_nothing_full : AllOrNothing full subscribing ↔ ¬ Overflows full subscribing :=
  all_or_nothing_iff full_reachable subscribing

/-- The SUBSCRIBE is sent, and the table refuses its record. -/
theorem sent_first : ¬ ∀ (c : Client .v3) (call : Call .v3), c.Reachable → AllOrNothing c call := by
  intro nothing
  have failed : (full.call subscribing).1 = .error (.err .Internal) := by decide +kernel
  have sent : packets_sent (full.events subscribing) = [.Subscribe ⟨Pid.default.next, [("b", .Level1)]⟩] := by decide +kernel
  have unsent := (nothing full subscribing full_reachable (by decide) failed).1
  rw [sent] at unsent
  exact unsent _ List.mem_cons_self _ _ rfl

end

end Masaka.Overfull
