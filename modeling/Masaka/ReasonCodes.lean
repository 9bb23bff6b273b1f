import Masaka.Provenance
import Masaka.Responses

/-!
Acknowledgments with a reason code of failure. The code is dropped as the packet is
handled, so that a PUBACK and a PUBCOMP are always reported as a success, and a PUBREC
releases its message; it ends the handshake only where nothing is left to release.
-/
namespace Masaka.ReasonCodes
open Effect Tables Runs MqttProtocolHandler LawfulHandler MqttProtocolEngine Sending Polling
open Tracking (Tracked)

/-- An acknowledgment with a reason code of failure. -/
def Negative : V5.Packet → Prop
  | .Puback ack | .Pubrec ack | .Pubcomp ack => 0x80 ≤ ack.reason_code
  | _ => False

/-- No PUBREL for the identifier has been sent. -/
def Unreleased (pid : Pid) (events : List (Event V5.Packet)) : Prop :=
  ∀ frame, .sent frame ∈ events → frame.packet.shape ≠ .pubrel pid

section
variable [Codec V3.Packet MqttProtoError] [Codec V5.Packet ErrorV5]

/-- The handshake is over: nothing is tracked under the identifier, and no PUBREL for it
    was sent, nor will be as long as no other message is accepted under it. -/
structure Ended (c₁ c' : Client .v5) (pid : Pid) : Prop where
  untracked : ¬ Tracked c'.session_state pid
  unreleased : ∀ events, c'.protocol_engine.log = c₁.protocol_engine.log ++ events → Unreleased pid events
  later : ∀ calls events, (c'.run calls).protocol_engine.log = c'.protocol_engine.log ++ events →
    .accepted pid ∉ events → Unreleased pid events

/-- The call that processes the packet does not take it for a success. -/
structure Heeded (c c₁ : Client .v5) (call : Call .v5) (packet : V5.Packet) : Prop where
  unreported : ∀ pid, (c.call call).1 ≠ .ok (.event (some (.MessageAcknowledged pid)))
  ended : ∀ ack, packet = .Pubrec ack → Ended c₁ (c.after call) ack.pid

/-- The PUBREL for the identifier can be encoded, and the transport takes all of it. -/
def Releasable (e : MqttProtocolEngine V5Handler V5.Packet ErrorV5) (pid : Pid) : Prop :=
  ∃ bytes, encode_packet e.handler (.Pubrel ⟨pid, 0⟩) = .ok bytes ∧ Takes e.world.write bytes.length

/-- A PUBREC that leaves nothing to release: no PUBREL is pending under its identifier, nor
    a message whose PUBREL can be sent. -/
def Final (c₁ : Client .v5) : V5.Packet → Prop
  | .Pubrec ack => ack.pid ∉ c₁.session_state.pending_pubrels ∧
      (ack.pid ∈ c₁.session_state.pending_publishes → ¬ Releasable c₁.protocol_engine ack.pid)
  | _ => False

/-! ### Later runs -/

/-- What is not tracked is not released in a run in which nothing is accepted under it. -/
theorem run_unreleased {c : Client .v5} (reachable : c.Reachable) {pid : Pid} (untracked : ¬ Tracked c.session_state pid)
    {calls : List (Call .v5)} {events : List (Event V5.Packet)}
    (log : (c.run calls).protocol_engine.log = c.protocol_engine.log ++ events) (unaccepted : .accepted pid ∉ events) :
    Unreleased pid events := by
  intro frame sent pubrel
  obtain ⟨before, after, rfl⟩ := List.append_of_mem (Provenance.run_sent reachable log sent)
  have belongs : Provenance.handshake (shape (H := V5Handler) frame.packet) = some pid := by
    rw [show shape (H := V5Handler) frame.packet = _ from pubrel]
    rfl
  rcases Provenance.run_sources reachable log belongs with tracked | accepted
  · exact untracked tracked
  · exact unaccepted (List.mem_append_left _ accepted)

/-! ### The packet -/

omit [Codec V3.Packet MqttProtoError] in
/-- The reply to a PUBREC is the PUBREL of a message that is pending. -/
theorem reply_pubrec_iff {h : V5Handler} {s : InMemorySession} {pid : Pid} {packet : V5.Packet} :
    Responses.reply h s (.PublishRec pid) = some (.ok packet) ↔ pid ∈ s.pending_publishes ∧ packet = .Pubrel ⟨pid, 0⟩ := by
  rw [Responses.reply]
  split
  · rename_i pending
    refine ⟨fun same => ?_, fun known => by rw [known.2]; rfl⟩
    cases same
    exact ⟨pending, rfl⟩
  · rename_i absent
    refine ⟨fun same => ?_, fun known => absurd known.1 absent⟩
    cases same

omit [Codec V3.Packet MqttProtoError] in
theorem received_next {e : MqttProtocolEngine V5Handler V5.Packet ErrorV5} {packet : V5.Packet} {action : PacketAction}
    (next : next_packet e = some packet) (handled : V5Handler.handle_packet packet = .ok action) :
    received e = .ok action := by
  rw [received, next_packet_iff.mp next]
  change ((V5Handler.handle_packet packet).mapError _ : Except (Halt MqttError) PacketAction) = _
  rw [handled]
  rfl

/-- What the call that processes a PUBREC sends is the PUBREL of a pending message, if it can be sent. -/
theorem call_releases {c : Client .v5} (reachable : c.Reachable) {call : Call .v5} {c₁ : Client .v5}
    (waits : c.waiting call = some c₁) {ack : V5.Ack} (next : next_packet c₁.protocol_engine = some (.Pubrec ack)) :
    ∃ events, (c.after call).protocol_engine.log = c₁.protocol_engine.log ++ events ∧
      ((∃ frame, .sent frame ∈ events ∧ frame.packet.shape = .pubrel ack.pid) ↔
        ack.pid ∈ c₁.session_state.pending_publishes ∧ Releasable c₁.protocol_engine ack.pid) := by
  have after : c.after call = (exec MqttClient.receive c₁).2 := congrArg Prod.snd (Client.call_waiting waits)
  have arrived : received c₁.protocol_engine = .ok (.PublishRec ack.pid) := received_next next rfl
  obtain ⟨events, log, sent⟩ := Responses.receive_sent_iff (Client.waiting_follows waits reachable.idle).1
  refine ⟨events, by rw [after]; exact log, ?_⟩
  constructor
  · rintro ⟨frame, member, -⟩
    obtain ⟨action, done, replies, encodes, takes⟩ := (sent frame).mp member
    cases arrived.symm.trans done
    obtain ⟨pending, same⟩ := reply_pubrec_iff.mp replies
    rw [same] at encodes
    exact ⟨pending, frame.bytes, encodes, takes⟩
  · rintro ⟨pending, bytes, encodes, takes⟩
    refine ⟨⟨.Pubrel ⟨ack.pid, 0⟩, bytes⟩, (sent _).mpr ⟨_, arrived, ?_, encodes, takes⟩, rfl⟩
    exact reply_pubrec_iff.mpr ⟨pending, rfl⟩

/-- What the call that processes a PUBREC makes of the tables. -/
theorem call_pubrec {c : Client .v5} (reachable : c.Reachable) {call : Call .v5} {c₁ : Client .v5}
    (waits : c.waiting call = some c₁) {ack : V5.Ack} (next : next_packet c₁.protocol_engine = some (.Pubrec ack)) :
    ack.pid ∉ (c.after call).session_state.pending_publishes ∧
      (ack.pid ∈ c₁.session_state.pending_pubrels → ack.pid ∈ (c.after call).session_state.pending_pubrels) ∧
      (ack.pid ∈ (c.after call).session_state.pending_pubrels → ack.pid ∈ c₁.session_state.pending_pubrels ∨
        ack.pid ∈ c₁.session_state.pending_publishes ∧ Releasable c₁.protocol_engine ack.pid) := by
  have after : c.after call = (exec MqttClient.receive c₁).2 := congrArg Prod.snd (Client.call_waiting waits)
  have arrived : received c₁.protocol_engine = .ok (.PublishRec ack.pid) := received_next next rfl
  have acknowledges := receive_acknowledges (Client.waiting_follows waits reachable.idle).1
  rw [wp, ← after] at acknowledges
  have erased : ack.pid ∉ c₁.session_state.pending_publishes.erase ack.pid := fun member =>
    (AList.mem_erase.mp member).1 rfl
  rcases acknowledges.of_pubrec arrived rfl with ⟨pending, ⟨bytes, encodes, takes, -⟩, tables⟩ | ⟨-, -, tables⟩ | ⟨absent, tables⟩
  · rw [show (c.after call).session_state.pending_publishes = _ from congrArg Prod.fst tables,
      show (c.after call).session_state.pending_pubrels = _ from congrArg Prod.snd tables]
    refine ⟨erased, fun member => (AList.mem_insert _).mpr (.inr member), fun _ => .inr ⟨pending, bytes, encodes, takes⟩⟩
  · rw [show (c.after call).session_state.pending_publishes = _ from congrArg Prod.fst tables,
      show (c.after call).session_state.pending_pubrels = _ from congrArg Prod.snd tables]
    exact ⟨erased, id, .inl⟩
  · rw [show (c.after call).session_state.pending_publishes = _ from congrArg Prod.fst tables,
      show (c.after call).session_state.pending_pubrels = _ from congrArg Prod.snd tables]
    exact ⟨absent, id, .inl⟩

/-- The handshake of a PUBREC is over exactly if nothing was left to release. -/
theorem ended_iff {c : Client .v5} (reachable : c.Reachable) {call : Call .v5} {c₁ : Client .v5}
    (waits : c.waiting call = some c₁) {ack : V5.Ack} (next : next_packet c₁.protocol_engine = some (.Pubrec ack)) :
    Ended c₁ (c.after call) ack.pid ↔ Final c₁ (.Pubrec ack) := by
  obtain ⟨completed, kept, released⟩ := call_pubrec reachable waits next
  obtain ⟨events, log, sent⟩ := call_releases reachable waits next
  constructor
  · intro ended
    refine ⟨fun member => ended.untracked (.inr (kept member)), fun pending releasable => ?_⟩
    obtain ⟨frame, member, pubrel⟩ := sent.mpr ⟨pending, releasable⟩
    exact ended.unreleased events log frame member pubrel
  · rintro ⟨unrecorded, unreleasable⟩
    have untracked : ¬ Tracked (c.after call).session_state ack.pid := by
      rintro (pending | recorded)
      · exact completed pending
      · rcases released recorded with before | ⟨pending, releasable⟩
        · exact unrecorded before
        · exact unreleasable pending releasable
    refine ⟨untracked, fun events' log' frame member pubrel => ?_, fun calls events log unaccepted => ?_⟩
    · cases List.append_cancel_left (log.symm.trans log')
      obtain ⟨pending, releasable⟩ := sent.mp ⟨frame, member, pubrel⟩
      exact unreleasable pending releasable
    · exact run_unreleased (reachable.after call) untracked log unaccepted

/-- The event that a PUBACK or a PUBCOMP brings, whatever its reason code. -/
theorem call_reports {c : Client .v5} (reachable : c.Reachable) {call : Call .v5} {c₁ : Client .v5}
    (waits : c.waiting call = some c₁) {pid : Pid}
    (arrived : received c₁.protocol_engine = .ok (.PublishAck pid) ∨ received c₁.protocol_engine = .ok (.PublishComplete pid)) :
    (c.call call).1 = .ok (.event (some (.MessageAcknowledged pid))) := by
  have idle : c₁.Idle := (Client.waiting_follows waits reachable.idle).1
  rw [Client.call_waiting waits]
  rcases arrived with arrived | arrived
  · obtain ⟨s, ran⟩ := Responses.receive_silent idle arrived rfl
    rw [ran]
    rfl
  · obtain ⟨s, ran⟩ := Responses.receive_silent idle arrived rfl
    rw [ran]
    rfl

/-- A PUBREC is never reported. -/
theorem pubrec_unreported {c : Client .v5} {call : Call .v5} {c₁ : Client .v5} (waits : c.waiting call = some c₁)
    {ack : V5.Ack} (next : next_packet c₁.protocol_engine = some (.Pubrec ack)) (pid : Pid) :
    (c.call call).1 ≠ .ok (.event (some (.MessageAcknowledged pid))) := by
  have arrived : received c₁.protocol_engine = .ok (.PublishRec ack.pid) := received_next next rfl
  rw [Client.call_waiting waits]
  intro returned
  cases result : (exec MqttClient.receive c₁).1 with
  | error h => rw [result] at returned; cases returned
  | ok event =>
    rw [result] at returned
    cases returned
    obtain ⟨action, done, brings⟩ := receive_brings c₁ _ result
    cases arrived.symm.trans done
    cases brings

/-- A negative acknowledgment is not taken for a success exactly if it is a PUBREC that
    leaves nothing to release. -/
theorem heeded_iff {c : Client .v5} (reachable : c.Reachable) {call : Call .v5} {c₁ : Client .v5}
    (waits : c.waiting call = some c₁) {packet : V5.Packet} (next : next_packet c₁.protocol_engine = some packet)
    (negative : Negative packet) : Heeded c c₁ call packet ↔ Final c₁ packet := by
  cases packet with
  | Puback ack =>
    refine ⟨fun heeded => ?_, False.elim⟩
    exact (heeded.unreported ack.pid (call_reports reachable waits (.inl (received_next next rfl)))).elim
  | Pubcomp ack =>
    refine ⟨fun heeded => ?_, False.elim⟩
    exact (heeded.unreported ack.pid (call_reports reachable waits (.inr (received_next next rfl)))).elim
  | Pubrec ack =>
    rw [← ended_iff reachable waits next]
    refine ⟨fun heeded => heeded.ended ack rfl, fun ended => ⟨pubrec_unreported waits next, fun ack' same => ?_⟩⟩
    cases same
    exact ended
  | _ => exact negative.elim

end

section
local instance : Codec V3.Packet MqttProtoError := Wire.v3Codec
local instance : Codec V5.Packet ErrorV5 := Wire.v5Codec

/-- A connected client with a message of level 1 pending. -/
def publishing : Client .v5 := Client.run (MqttClient.new (.obliging true []) (V5Handler.with_config {}) {})
  [⟨.connect, .obliging true [.Connack ⟨false, 0, {}⟩]⟩, ⟨.publish "a" [1] ⟨.Level1, false⟩, .obliging true []⟩]

theorem publishing_reachable : publishing.Reachable := ⟨_, {}, _, _, rfl⟩

/-- A poll that reads the packet. -/
def reading (packet : V5.Packet) : Call .v5 := ⟨.poll, .obliging true [packet]⟩

theorem heeded_pubrec : ∃ c₁, publishing.waiting (reading (.Pubrec ⟨.default, 0x80⟩)) = some c₁ ∧
    (Heeded publishing c₁ (reading (.Pubrec ⟨.default, 0x80⟩)) (.Pubrec ⟨.default, 0x80⟩) ↔
      Final c₁ (.Pubrec ⟨.default, 0x80⟩)) := by
  obtain ⟨c₁, waits⟩ := Option.isSome_iff_exists.mp
    (by decide +kernel : (publishing.waiting (reading (.Pubrec ⟨.default, 0x80⟩))).isSome = true)
  have next : ∀ c₁ ∈ publishing.waiting (reading (.Pubrec ⟨.default, 0x80⟩)),
      next_packet c₁.protocol_engine = some (.Pubrec ⟨.default, 0x80⟩) := by decide +kernel
  exact ⟨c₁, waits, heeded_iff publishing_reachable waits (next c₁ waits) (by decide : (0x80 : UInt8) ≤ 0x80)⟩

/-- A PUBACK with a reason code of failure is reported as the acknowledgment of the message. -/
theorem refusal_reported : ¬ ∀ (c c₁ : Client .v5) (call : Call .v5) (packet : V5.Packet), c.Reachable →
    c.waiting call = some c₁ → next_packet c₁.protocol_engine = some packet → Negative packet →
      Heeded c c₁ call packet := by
  intro heeded
  obtain ⟨c₁, waits⟩ := Option.isSome_iff_exists.mp
    (by decide +kernel : (publishing.waiting (reading (.Puback ⟨.default, 0x97⟩))).isSome = true)
  have next : ∀ c₁ ∈ publishing.waiting (reading (.Puback ⟨.default, 0x97⟩)),
      next_packet c₁.protocol_engine = some (.Puback ⟨.default, 0x97⟩) := by decide +kernel
  have ended := heeded publishing c₁ _ _ publishing_reachable waits (next c₁ waits) (by decide : (0x80 : UInt8) ≤ 0x97)
  exact ended.unreported .default (by decide +kernel)

end

end Masaka.ReasonCodes
