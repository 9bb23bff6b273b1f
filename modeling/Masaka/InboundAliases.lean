import Masaka.Responses

/-!
The topic aliases of received messages. A broker may leave out the topic of a PUBLISH
whose alias it has bound before, once the client has announced how many aliases it takes;
the client hands on the topic as it came.
-/
namespace Masaka.InboundAliases
open Effect Runs MqttProtocolHandler MqttProtocolEngine Sending Polling

/-! ### What the aliases of a connection stand for -/

/-- The topic that each alias is bound to. -/
abbrev Bindings := UInt16 → Option TopicName

/-- A PUBLISH with a topic binds its alias to it. -/
def bind (bindings : Bindings) (publish : V5.Publish) : Bindings := fun topic_alias =>
  if publish.properties.topic_alias = some topic_alias ∧ publish.topic_name ≠ "" then some publish.topic_name
  else bindings topic_alias

/-- The topic of a PUBLISH: its own, or the one that its alias is bound to. -/
def resolve (bindings : Bindings) (publish : V5.Publish) : Option TopicName :=
  if publish.topic_name = "" then publish.properties.topic_alias.bind bindings else some publish.topic_name

/-- What an event does to the bindings: they start anew with a connection. -/
def note (bindings : Bindings) : Event V5.Packet → Bindings
  | .queued frame => match frame.packet with
    | .Connect _ => fun _ => none
    | _ => bindings
  | .received (.Publish publish) => bind bindings publish
  | _ => bindings

/-- The bindings of the connection so far. -/
def bindings (log : List (Event V5.Packet)) : Bindings := log.foldl note fun _ => none

/-- An alias is never bound to the empty topic. -/
theorem bindings_named (log : List (Event V5.Packet)) (topic_alias : UInt16) : bindings log topic_alias ≠ some "" := by
  have step : ∀ (known : Bindings) event, (∀ a, known a ≠ some "") → ∀ a, note known event a ≠ some "" := by
    intro known event named a
    cases event with
    | queued frame =>
      obtain ⟨packet, bytes⟩ := frame
      cases packet with
      | Connect _ => exact fun same => by cases same
      | _ => exact named a
    | received packet =>
      cases packet with
      | Publish publish =>
        simp only [note, bind]
        split
        · rename_i bound
          exact fun same => bound.2 (Option.some.inj same)
        · exact named a
      | _ => exact named a
    | _ => exact named a
  have start : ∀ (log : List (Event V5.Packet)) (known : Bindings), (∀ a, known a ≠ some "") →
      ∀ a, log.foldl note known a ≠ some "" := by
    intro log
    induction log with
    | nil => exact fun known named => named
    | cons event rest ih => exact fun known named => ih _ (step known event named)
  exact start log _ (fun _ same => by cases same) topic_alias

/-! ### Polls -/

section
variable [Codec V3.Packet MqttProtoError] [Codec V5.Packet ErrorV5]

/-- The PUBLISH that a call comes to process, with the client as it does. -/
def Processes (c : Client .v5) (call : Call .v5) (c₁ : Client .v5) (publish : V5.Publish) : Prop :=
  c.waiting call = some c₁ ∧ next_packet c₁.protocol_engine = some (.Publish publish)

/-- An alias that stands in for a topic was bound before on the connection. -/
def FirstBound (c : Client .v5) (call : Call .v5) : Prop := ∀ c₁ publish, Processes c call c₁ publish →
  (resolve (bindings c₁.protocol_engine.log) publish).isSome = true

/-- The message of a PUBLISH is handed on with the topic that the PUBLISH has, or that its
    alias is bound to. -/
def Resolved (c : Client .v5) (call : Call .v5) : Prop := ∀ c₁ publish topic, Processes c call c₁ publish →
  resolve (bindings c₁.protocol_engine.log) publish = some topic →
    received c₁.protocol_engine = .ok (.PublishReceived topic publish.qos_pid.qos publish.retain publish.payload
      publish.qos_pid.pid) ∧
    ∀ message, (c.call call).1 = .ok (.event (some (.MessageReceived message))) → message.topic = topic ∧
      (c.after call).state.received_messages.getLast? = some message

/-- No PUBLISH comes without a topic. -/
def Named (c : Client .v5) (call : Call .v5) : Prop := ∀ c₁ publish, Processes c call c₁ publish →
  publish.topic_name ≠ ""

theorem processes_received {c c₁ : Client .v5} {call : Call .v5} {publish : V5.Publish}
    (processes : Processes c call c₁ publish) : received c₁.protocol_engine = .ok (.PublishReceived publish.topic_name
      publish.qos_pid.qos publish.retain publish.payload publish.qos_pid.pid) := by
  rw [received, next_packet_iff.mp processes.2]
  rfl

/-- A message that is returned has the topic of its PUBLISH and is the last one in the queue. -/
theorem processes_message {c c₁ : Client .v5} {call : Call .v5} {publish : V5.Publish}
    (processes : Processes c call c₁ publish) {message : ReceivedMessage}
    (returned : (c.call call).1 = .ok (.event (some (.MessageReceived message)))) : message.topic = publish.topic_name ∧
      (c.after call).state.received_messages.getLast? = some message := by
  rw [Client.after, Client.call_waiting processes.1] at *
  cases result : (exec MqttClient.receive c₁).1 with
  | error h => rw [result] at returned; cases returned
  | ok event =>
    rw [result] at returned
    cases returned
    obtain ⟨action, arrived, brings⟩ := receive_brings c₁ _ result
    cases arrived.symm.trans (processes_received processes)
    constructor
    · generalize acted : PacketAction.PublishReceived _ _ _ _ _ = action at brings
      cases brings
      exact (PacketAction.PublishReceived.inj acted).1.symm
    · rw [Responses.receive_message result]
      exact List.getLast?_concat

/-- The topic of a PUBLISH whose alias was bound is right exactly if it comes with one. -/
theorem call_resolved_iff {c : Client .v5} {call : Call .v5} (bound : FirstBound c call) :
    Resolved c call ↔ Named c call := by
  constructor
  · intro resolved c₁ publish processes empty
    obtain ⟨topic, stands⟩ := Option.isSome_iff_exists.mp (bound c₁ publish processes)
    cases (resolved c₁ publish topic processes stands).1.symm.trans (processes_received processes)
    rw [resolve, if_pos empty, empty] at stands
    obtain ⟨topic_alias, -, same⟩ := Option.bind_eq_some_iff.mp stands
    exact bindings_named _ topic_alias same
  · intro named c₁ publish topic processes stands
    rw [resolve, if_neg (named c₁ publish processes)] at stands
    cases stands
    exact ⟨processes_received processes, fun message => processes_message processes⟩

/-- In every run in which the aliases are bound before they stand in for a topic, every
    message is handed on with the right topic exactly if none comes without. -/
theorem run_resolved_iff {c : Client .v5} {calls : List (Call .v5)} (bound : Along Client.after FirstBound c calls) :
    Along Client.after Resolved c calls ↔ Along Client.after Named c calls := by
  constructor
  · intro resolved
    have known : Along Client.after (fun c call => FirstBound c call ∧ Resolved c call) c calls :=
      along_and.mpr ⟨bound, resolved⟩
    exact along_imp (I := fun _ => True) (fun _ _ _ _ => trivial)
      (fun c call _ known => (call_resolved_iff known.1).mp known.2) trivial known
  · intro named
    have known : Along Client.after (fun c call => FirstBound c call ∧ Named c call) c calls :=
      along_and.mpr ⟨bound, named⟩
    exact along_imp (I := fun _ => True) (fun _ _ _ _ => trivial)
      (fun c call _ known => (call_resolved_iff known.1).mpr known.2) trivial known

end

section
local instance : Codec V3.Packet MqttProtoError := Wire.v3Codec
local instance : Codec V5.Packet ErrorV5 := Wire.v5Codec

/-- A connected client that has announced that it takes ten aliases. -/
def announcing : Client .v5 :=
  Client.run (MqttClient.new (.obliging true []) (V5Handler.with_config { topic_alias_maximum := some 10 }) {})
    [⟨.connect, .obliging true [.Connack ⟨false, 0, {}⟩]⟩]

theorem announcing_reachable : announcing.Reachable := ⟨_, { topic_alias_maximum := some 10 }, _, _, rfl⟩

def aliased (topic : TopicName) : V5.Publish := ⟨false, .Level0, false, topic, [], { topic_alias := some 1 }⟩

/-- A poll that reads the PUBLISH. -/
def reading (publish : V5.Publish) : Call .v5 := ⟨.poll, .obliging true [.Publish publish]⟩

/-- Whether the alias was bound, if the call comes to process a PUBLISH. -/
def bound (c : Client .v5) (call : Call .v5) : Bool := (c.waiting call).elim true fun c₁ =>
  match next_packet c₁.protocol_engine with
  | some (.Publish publish) => (resolve (bindings c₁.protocol_engine.log) publish).isSome
  | _ => true

theorem first_bound {c : Client .v5} {call : Call .v5} (holds : bound c call = true) : FirstBound c call := by
  rintro c₁ publish ⟨waits, next⟩
  rw [bound, waits] at holds
  simpa only [Option.elim_some, next] using holds

theorem run_bound : Along Client.after FirstBound announcing [reading (aliased "a"), reading (aliased "")] :=
  ⟨first_bound (by decide +kernel), first_bound (by decide +kernel), trivial⟩

theorem run_resolved_two : Along Client.after Resolved announcing [reading (aliased "a"), reading (aliased "")] ↔
    Along Client.after Named announcing [reading (aliased "a"), reading (aliased "")] :=
  run_resolved_iff run_bound

/-- A message whose topic is left out is handed on without one. -/
theorem alias_unresolved : ¬ ∀ (c : Client .v5) (calls : List (Call .v5)), c.Reachable →
    Along Client.after FirstBound c calls → Along Client.after Resolved c calls := by
  intro resolved
  have along := resolved announcing _ announcing_reachable run_bound
  let c := announcing.after (reading (aliased "a"))
  obtain ⟨c₁, waits⟩ := Option.isSome_iff_exists.mp
    (by decide +kernel : (c.waiting (reading (aliased ""))).isSome = true)
  have known : ∀ c₁ ∈ c.waiting (reading (aliased "")), next_packet c₁.protocol_engine = some (.Publish (aliased "")) ∧
      resolve (bindings c₁.protocol_engine.log) (aliased "") = some "a" := by decide +kernel
  obtain ⟨next, stands⟩ := known c₁ waits
  have processes : Processes c (reading (aliased "")) c₁ (aliased "") := ⟨waits, next⟩
  have same := (along.2.1 c₁ _ "a" processes stands).1.symm.trans (processes_received processes)
  exact absurd (PacketAction.PublishReceived.inj (Except.ok.inj same)).1 (by decide)

end

end Masaka.InboundAliases
