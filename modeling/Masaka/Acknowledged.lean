import Masaka.Polling
import Masaka.Provenance

/-!
The events that report an acknowledgment. They are made from the packet, whatever the
session holds; as long as the broker acknowledges nothing but what is outstanding, every
event reports a message that still was, and no message is reported twice.
-/
namespace Masaka.Acknowledged
open Effect Tables Runs MqttProtocolHandler LawfulHandler Sending Polling Provenance

/-- A message of a level above 0 is pending under the identifier, or its PUBREL is. -/
def Outstanding (s : InMemorySession) (pid : Pid) : Prop :=
  (∃ message, s.pending_publishes.lookup pid = some message ∧ message.qos ≠ .Level0) ∨ pid ∈ s.pending_pubrels

/-- A packet that acknowledges nothing but what the session holds. -/
def Fits (s : InMemorySession) : Shape → Prop
  | .puback pid => pid ∈ s.pending_publishes
  | .pubcomp pid => pid ∈ s.pending_publishes ∨ pid ∈ s.pending_pubrels
  | _ => True

instance (s : InMemorySession) : (shape : Shape) → Decidable (Fits s shape)
  | .puback pid => inferInstanceAs (Decidable (pid ∈ s.pending_publishes))
  | .pubcomp pid => inferInstanceAs (Decidable (pid ∈ s.pending_publishes ∨ pid ∈ s.pending_pubrels))
  | .connect _ | .connack _ _ | .publish _ | .pubrec _ | .pubrel _ | .subscribe _ _ | .suback _ _ | .unsubscribe _ _
  | .unsuback _ | .pingreq | .pingresp | .disconnect | .auth => isTrue trivial

section
variable {H P E : Type} [MqttProtocolHandler H P E] [LawfulHandler H P E]

/-- A message that waits for an acknowledgment is of a level above 0. -/
def Leveled (s : InMemorySession) : Prop :=
  ∀ pid message, s.pending_publishes.lookup pid = some message → message.qos ≠ .Level0

theorem leveled_after {config : ClientConfig} {grant : Grant} {v : View P} {act : Act P}
    (allowed : act.Allowed H config grant v) (leveled : Leveled v.session) : Leveled (act.after v).session := by
  intro pid message stored
  rcases allowed.pending stored with rfl | ⟨old, found, same⟩
  · exact allowed.2.2
  · rw [same]
    exact leveled pid old found

/-- A message that an acknowledgment event reports is outstanding, if the packet fits. -/
theorem receive_outstanding {c : MqttClient H P E} (leveled : Leveled c.session_state)
    (fits : ∀ shape ∈ arriving c.protocol_engine, Fits c.session_state shape) {pid : Pid}
    (returned : (exec MqttClient.receive c).1 = .ok (some (.MessageAcknowledged pid))) :
    Outstanding c.session_state pid := by
  have pending : pid ∈ c.session_state.pending_publishes → Outstanding c.session_state pid := fun member => by
    obtain ⟨message, stored⟩ := mem_iff_lookup.mp member
    exact .inl ⟨message, stored, leveled pid message stored⟩
  obtain ⟨action, arrived, brings⟩ := receive_brings c _ returned
  cases brings with
  | puback => exact pending (fits _ (arriving_iff.mpr (Discharge.arrives_puback.mpr arrived)))
  | pubcomp => exact (fits _ (arriving_iff.mpr (Discharge.arrives_pubcomp.mpr arrived))).elim pending .inr

/-- An acknowledgment that is reported takes a handshake out of the session. -/
theorem receive_weight {c : MqttClient H P E} (idle : c.Idle)
    (fits : ∀ shape ∈ arriving c.protocol_engine, Fits c.session_state shape) {pid : Pid}
    (returned : (exec MqttClient.receive c).1 = .ok (some (.MessageAcknowledged pid))) :
    weight (exec MqttClient.receive c).2.session_state pid + 1 ≤ weight c.session_state pid := by
  have acknowledges := receive_acknowledges idle
  rw [wp] at acknowledges
  generalize (exec MqttClient.receive c).2.session_state = after at acknowledges
  obtain ⟨action, arrived, brings⟩ := receive_brings c _ returned
  cases brings with
  | puback =>
    have pending : pid ∈ c.session_state.pending_publishes :=
      fits _ (arriving_iff.mpr (Discharge.arrives_puback.mpr arrived))
    have tables := acknowledges.of_puback arrived
    have gone : pid ∉ after.pending_publishes := by
      rw [show after.pending_publishes = _ from congrArg Prod.fst tables]
      exact fun member => (AList.mem_erase.mp member).1 rfl
    have kept : pid ∈ after.pending_pubrels → pid ∈ c.session_state.pending_pubrels := by
      rw [show after.pending_pubrels = _ from congrArg Prod.snd tables]
      exact id
    have pubrels := count_if_le kept
    rw [weight_pubrel gone, weight_publish pending]
    omega
  | pubcomp =>
    have outstanding := fits _ (arriving_iff.mpr (Discharge.arrives_pubcomp.mpr arrived))
    have tables := acknowledges.of_pubcomp arrived
    have gone : pid ∉ after.pending_publishes := by
      rw [show after.pending_publishes = _ from congrArg Prod.fst tables]
      exact fun member => (AList.mem_erase.mp member).1 rfl
    have finished : pid ∉ after.pending_pubrels := by
      rw [show after.pending_pubrels = _ from congrArg Prod.snd tables]
      exact fun member => (AList.mem_erase.mp member).1 rfl
    rw [weight_pubrel gone, if_neg finished]
    rcases outstanding with pending | released
    · rw [weight_publish pending]
      omega
    · rw [weight, if_pos released]
      omega

end

/-! ### Runs -/

section
variable [Codec V3.Packet MqttProtoError] [Codec V5.Packet ErrorV5] {v : Version}

/-- The broker acknowledges nothing but what is outstanding as the packet arrives. -/
def Expected (c : Client v) (call : Call v) : Prop :=
  ∀ c₁ ∈ c.waiting call, ∀ shape ∈ arriving c₁.protocol_engine, Fits c₁.session_state shape

instance (c : Client v) (call : Call v) : Decidable (Expected c call) :=
  inferInstanceAs (Decidable (∀ c₁ ∈ c.waiting call, ∀ shape ∈ arriving c₁.protocol_engine, Fits c₁.session_state shape))

/-- A message that the call reports as acknowledged was outstanding as the packet arrived. -/
def Backed (c : Client v) (call : Call v) : Prop :=
  ∀ pid, (c.call call).1 = .ok (.event (some (.MessageAcknowledged pid))) →
    ∃ c₁, c.waiting call = some c₁ ∧ Outstanding c₁.session_state pid

/-- The identifier that a call reports as acknowledged. -/
def reported : Except (Halt MqttError) Reply → List Pid
  | .ok (.event (some (.MessageAcknowledged pid))) => [pid]
  | _ => []

/-- The identifiers that a run reports as acknowledged. -/
def acknowledgments : Client v → List (Call v) → List Pid :=
  gather Client.after fun c call => reported (c.call call).1

theorem leveled_reachable {c : Client v} (reachable : c.Reachable) : Leveled c.session_state := by
  refine reachable.invariant (I := fun _ view => Leveled view.session) (fun config _ pid message stored => ?_)
    (fun _ _ _ leveled => leveled) fun _ _ _ _ => leveled_after
  cases (AList.lookup_empty pid).symm.trans stored

theorem leveled_call {c : Client v} (reachable : c.Reachable) {call : Call v} {c₁ : Client v}
    (waits : c.waiting call = some c₁) : Leveled c₁.session_state := by
  obtain ⟨-, -, acts, path⟩ := Client.waiting_follows waits reachable.idle
  exact path.invariant (I := fun view => Leveled view.session) (fun view act => leveled_after)
    (leveled_reachable (c := c) reachable)

theorem call_backed {c : Client v} (reachable : c.Reachable) {call : Call v} (expected : Expected c call) :
    Backed c call := by
  intro pid returned
  obtain ⟨c₁, waits, event⟩ := Client.call_event reachable returned (by simp)
  exact ⟨c₁, waits, receive_outstanding (leveled_call reachable waits) (expected c₁ waits) event⟩

/-- A call reports no more than what leaves the session. -/
theorem call_weight {c : Client v} (reachable : c.Reachable) {call : Call v} (expected : Expected c call) (pid : Pid) :
    (reported (c.call call).1).count pid + weight (c.after call).session_state pid +
        (acceptances c.protocol_engine.log).count pid ≤
      weight c.session_state pid + (acceptances (c.after call).protocol_engine.log).count pid := by
  by_cases returned : (c.call call).1 = .ok (.event (some (.MessageAcknowledged pid)))
  · obtain ⟨c₁, waits, event⟩ := Client.call_event reachable returned (by simp)
    have before := follows_weight (Client.waiting_follows waits) reachable.idle pid
    have idle : c₁.Idle := (Client.waiting_follows waits reachable.idle).1
    have step := receive_weight idle (expected c₁ waits) event
    have receives : Operations.Acting grant (MqttClient.receive (H := v.Handler)) := Operations.receive
    obtain ⟨-, -, acts, path⟩ := receives c₁ idle
    have after : c.after call = (exec MqttClient.receive c₁).2 := congrArg Prod.snd (Client.call_waiting waits)
    have once : (reported (c.call call).1).count pid = 1 := by
      rw [returned]
      exact List.count_singleton_self
    rw [once, after, path.log, acceptances_append, List.count_append]
    change _ ≤ weight (c.withWorld call.world).session_state pid + _
    change _ + (acceptances c.protocol_engine.log).count pid ≤ _ at before
    omega
  · have none : (reported (c.call call).1).count pid = 0 := by
      refine List.count_eq_zero.mpr fun member => returned ?_
      unfold reported at member
      split at member
      · rename_i p result
        rw [result, List.mem_singleton.mp member]
      · cases member
    rw [none, Nat.zero_add]
    exact follows_weight (call.op.perform_follows (c.withWorld call.world)) reachable.idle pid

/-- As long as the broker acknowledges only what is outstanding, every acknowledgment that a
    poll reports is for a message that was outstanding as the packet arrived, and no
    identifier is reported more often than messages were accepted under it. -/
theorem acknowledgments_backed (world : World v.Packet v.Error) (setup : v.Setup) (config : ClientConfig)
    {calls : List (Call v)}
    (expected : Along Client.after Expected (MqttClient.new world (v.handler setup) config) calls) :
    Along Client.after Backed (MqttClient.new world (v.handler setup) config) calls ∧ ∀ pid,
      (acknowledgments (MqttClient.new world (v.handler setup) config) calls).count pid ≤
        (acceptances (Client.run (MqttClient.new world (v.handler setup) config) calls).protocol_engine.log).count pid := by
  have reachable : Client.Reachable (MqttClient.new world (v.handler setup) config) := ⟨world, setup, config, [], rfl⟩
  refine ⟨along_imp (I := Client.Reachable) (fun c call reachable _ => reachable.after call)
    (fun c call reachable expected => call_backed reachable expected) reachable expected, fun pid => ?_⟩
  have nothing : weight (MqttClient.new world (v.handler setup) config).session_state pid = 0 := by
    simp [weight, MqttClient.new, InMemorySession.new]
  exact gather_earned (fun c call => reported (Client.call c call).1) (fun c : Client v => weight c.session_state pid)
    (fun c => (acceptances c.protocol_engine.log).count pid) (fun c call reachable _ => reachable.after call)
    (fun c call reachable expected => call_weight reachable expected pid) nothing reachable expected

end

/-! ### An acknowledgment that nobody has waited for -/

section
local instance : Codec V3.Packet MqttProtoError := Wire.v3Codec
local instance : Codec V5.Packet ErrorV5 := Wire.v5Codec

def fresh : Client .v3 := MqttClient.new (.obliging true []) (Version.handler .v3 ()) {}
def connecting : Call .v3 := ⟨.connect, .obliging true [.Connack ⟨false, 0⟩]⟩
def publishing : Call .v3 := ⟨.publish "a" [1] ⟨.Level1, false⟩, .obliging true []⟩
def acknowledging : Call .v3 := ⟨.poll, .obliging true [.Puback .default]⟩

theorem acknowledgments_backed_once : Along Client.after Backed fresh [connecting, publishing, acknowledging] ∧
    ∀ pid, (acknowledgments fresh [connecting, publishing, acknowledging]).count pid ≤
      (acceptances (Client.run fresh [connecting, publishing, acknowledging]).protocol_engine.log).count pid := by
  have expected : Along Client.after Expected fresh [connecting, publishing, acknowledging] := by decide +kernel
  exact acknowledgments_backed (v := .v3) (.obliging true []) () {} expected

/-- A PUBACK that comes unasked is reported as the acknowledgment of a message. -/
theorem unsolicited_reported : ¬ ∀ (world : World V3.Packet MqttProtoError) (config : ClientConfig)
    (calls : List (Call .v3)), Along Client.after Backed
      (MqttClient.new world (Version.handler .v3 ()) config : Client .v3) calls := by
  intro backed
  have along : Along Client.after Backed fresh [connecting, acknowledging] := backed (.obliging true []) {} _
  obtain ⟨c₁, waits, outstanding⟩ := along.2.1 .default (by decide +kernel)
  have nothing : ∀ c₁ ∈ (fresh.after connecting).waiting acknowledging,
      Pid.default ∉ c₁.session_state.pending_publishes ∧ Pid.default ∉ c₁.session_state.pending_pubrels := by
    decide +kernel
  obtain ⟨publishes, pubrels⟩ := nothing c₁ waits
  rcases outstanding with ⟨message, stored, -⟩ | released
  · exact publishes (mem_iff_lookup.mpr ⟨message, stored⟩)
  · exact pubrels released

end

end Masaka.Acknowledged
