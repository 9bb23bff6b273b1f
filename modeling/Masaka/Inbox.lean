import Masaka.Polling
import Masaka.Undelivered
import Masaka.Updates

/-!
The way of a message from the broker to the application: a PUBLISH arrives, a poll
reports it and puts it in the receive queue, and `next_message` takes it out. On the
whole way nothing is made up, repeated, changed or put in another order, though a
message may get lost.
-/
namespace Masaka.Inbox
open Effect Runs MqttProtocolHandler LawfulHandler
open Undelivered (received_message)

/-- The message that a call reports. -/
def reported : Except (Halt MqttError) Reply → List ReceivedMessage
  | .ok (.event (some (.MessageReceived message))) => [message]
  | _ => []

/-- The message that a call hands to the application. -/
def taken : Except (Halt MqttError) Reply → List ReceivedMessage
  | .ok (.message message) => message.toList
  | _ => []

/-- What a PUBLISH says, whenever it is received. -/
def content (message : ReceivedMessage) : ReceivedMessage := { message with timestamp := 0 }

section
variable {H P E : Type} [MqttProtocolHandler H P E] [LawfulHandler H P E]

/-- The messages that have arrived. -/
def arrivals (H : Type) {P E : Type} [MqttProtocolHandler H P E] [LawfulHandler H P E] (log : List (Event P)) :
    List ReceivedMessage := log.filterMap fun
  | .received packet => match shape (H := H) packet with
    | .publish message => some (received_message message 0)
    | _ => none
  | _ => none

@[simp] theorem arrivals_append (log more : List (Event P)) :
    arrivals H (log ++ more) = arrivals H log ++ arrivals H more := List.filterMap_append

/-- What is reported as received has arrived. -/
theorem receive_reports {c : MqttClient H P E} {message : ReceivedMessage}
    (returned : (exec MqttClient.receive c).1 = .ok (some (.MessageReceived message))) :
    ∃ more, (exec MqttClient.receive c).2.protocol_engine.log = c.protocol_engine.log ++ more ∧
      content message ∈ arrivals H more := by
  obtain ⟨action, arrived, brings⟩ := Polling.receive_brings c _ returned
  obtain ⟨more, log⟩ := Polling.receive_log c
  cases brings
  obtain ⟨packet, next, handled⟩ := Polling.received_packet arrived
  have asks := LawfulHandler.handled _ packet _ handled (by simp)
  refine ⟨Sending.arrival c.protocol_engine ++ more, by rw [log, List.append_assoc], ?_⟩
  rw [arrivals_append]
  refine List.mem_append_left _ ?_
  rw [Sending.arrival, Polling.next_packet_iff.mp next]
  cases shaped : shape (H := H) packet with
  | publish publish =>
    rw [shaped] at asks
    obtain ⟨topic, qos, retain, payload, pid⟩ := PacketAction.PublishReceived.inj (Option.some.inj asks)
    simp [arrivals, shaped, content, received_message, topic, qos, retain, payload, pid]
  | _ =>
    rw [shaped] at asks
    cases asks

end

section
variable [Codec V3.Packet MqttProtoError] [Codec V5.Packet ErrorV5] {v : Version}

/-- Only `next_message` hands out a message. -/
theorem taken_other (op : Op v) (other : op ≠ .next_message) (c : Client v) : taken (exec op.perform c).1 = [] := by
  have nothing : ∀ {α : Type} {request : ClientM v.Handler v.Packet v.Error α} {f : α → Reply},
      (∀ a message, f a ≠ .message message) → taken (exec (request >>= fun a => pure (f a)) c).1 = [] := by
    intro α request f apart
    rw [exec_result_value]
    cases (exec request c).1 with
    | error halt => rfl
    | ok a =>
      cases returned : f a with
      | message message => exact absurd returned (apart a message)
      | _ => simp [Except.map, returned, taken]
  cases op with
  | next_message => exact absurd rfl other
  | _ => exact nothing fun _ _ same => by cases same

omit [Codec V3.Packet MqttProtoError] [Codec V5.Packet ErrorV5] in
/-- What an operation does to the receive queue. -/
theorem reported_queued (op : Op v) (r : Except (Halt MqttError) Reply) : Updates.queued op r = [.pop] ∧ op = .next_message ∨
    Updates.queued op r = (reported r).map .add ∧ op = .poll ∨ Updates.queued op r = [] ∧ op ≠ .next_message := by
  cases op with
  | next_message => exact .inl ⟨rfl, rfl⟩
  | poll =>
    refine .inr (.inl ⟨?_, rfl⟩)
    rcases r with _ | _ | event | _
    · rfl
    · rfl
    · rcases event with _ | event
      · rfl
      · cases event <;> rfl
    · rfl
  | _ => exact .inr (.inr ⟨rfl, by simp⟩)

/-- What a call reports is put at the end of the receive queue, which may lose its first message; what it takes was
    the first one. -/
theorem call_queues {c : Client v} (reachable : c.Reachable) (call : Call v) :
    (taken (c.call call).1 ++ (c.after call).state.received_messages).Sublist
      (c.state.received_messages ++ reported (c.call call).1) := by
  obtain ⟨updates, does, state⟩ := Updates.call_does reachable call
  have queue : (c.after call).state.received_messages =
      (run ReceiveQueue.step c.state (Updates.queued call.op (c.call call).1)).received_messages := by
    rw [state]
    exact congrArg Prod.fst does.summary.contents
  rw [queue]
  obtain ⟨op, world⟩ := call
  rcases reported_queued op (c.call ⟨op, world⟩).1 with ⟨pops, rfl⟩ | ⟨adds, rfl⟩ | ⟨nothing, other⟩
  · rw [pops]
    have whole : c.state.received_messages.head?.toList ++ c.state.received_messages.tail = c.state.received_messages := by
      cases c.state.received_messages <;> rfl
    change (c.state.received_messages.head?.toList ++ c.state.received_messages.tail).Sublist _
    rw [whole]
    exact List.sublist_append_left _ _
  · rw [adds, show taken (c.call ⟨.poll, world⟩).1 = [] from taken_other .poll (by simp) _, List.nil_append]
    have few : reported (c.call ⟨.poll, world⟩).1 = [] ∨ ∃ message, reported (c.call ⟨.poll, world⟩).1 = [message] := by
      unfold reported
      split <;> simp
    rcases few with none | ⟨message, one⟩
    · rw [none]
      exact List.sublist_append_left _ _
    · rw [one]
      have kept : (if c.state.received_messages.length ≥ c.state.msg_capacity then c.state.received_messages.tail
          else c.state.received_messages).Sublist c.state.received_messages := by
        split
        · exact List.tail_sublist _
        · exact List.Sublist.refl _
      exact kept.append_right [message]
  · rw [nothing, show taken (c.call ⟨op, world⟩).1 = [] from taken_other op other _]
    exact List.sublist_append_left _ _

/-- What a call reports has arrived in it. -/
theorem call_reports {c : Client v} (reachable : c.Reachable) (call : Call v) :
    (arrivals v.Handler c.protocol_engine.log ++ (reported (c.call call).1).map content).Sublist
      (arrivals v.Handler (c.after call).protocol_engine.log) := by
  rw [Client.call_log reachable.idle, arrivals_append]
  refine List.Sublist.append_left ?_ _
  unfold reported
  split
  · rename_i message returned
    obtain ⟨c₁, waits, event⟩ := Client.call_event reachable returned (by simp)
    obtain ⟨-, -, acts, path⟩ := Client.waiting_follows waits reachable.idle
    obtain ⟨more, log, member⟩ := receive_reports event
    have after : c.after call = (exec MqttClient.receive c₁).2 := congrArg Prod.snd (Client.call_waiting waits)
    have events : c.events call = acts.flatMap Act.events ++ more := by
      rw [Client.events, after, log, path.log, List.append_assoc]
      exact List.drop_left
    rw [List.map_singleton, List.singleton_sublist, events, arrivals_append]
    exact List.mem_append_right _ member
  · exact List.nil_sublist _

/-- In every run, what `next_message` has handed to the application, and what is still in the receive queue after it,
    is a part of what polls have reported, in the same order; and what polls have reported is a part of what has
    arrived, in the same order and with the same content. -/
theorem messages_in_order (world : World v.Packet v.Error) (setup : v.Setup) (config : ClientConfig) (calls : List (Call v)) :
    let c := MqttClient.new world (v.handler setup) config
    let reports := gather Client.after (fun c call => reported (c.call call).1) c calls
    (gather Client.after (fun c call => taken (c.call call).1) c calls ++
        (Client.run c calls).state.received_messages).Sublist reports ∧
      (reports.map content).Sublist (arrivals v.Handler (Client.run c calls).protocol_engine.log) := by
  intro c reports
  have keeps : ∀ (c : Client v) (call : Call v), c.Reachable → (c.after call).Reachable := fun _ call reachable =>
    reachable.after call
  have start : Client.Reachable c := ⟨world, setup, config, [], rfl⟩
  constructor
  · exact gather_flow keeps (f := fun c => c.state.received_messages) (fun c call reachable =>
      call_queues reachable call) start calls
  · rw [map_gather]
    exact gather_stored keeps (f := fun c => arrivals v.Handler c.protocol_engine.log)
      (fun c call reachable => call_reports reachable call) start calls

end

end Masaka.Inbox
