import Masaka.Operations
import Masaka.Wire

/-!
Which handshakes survive an error of `receive_packet`. The message of a PUBREC is
taken out of the session before the PUBREL is sent, and the PUBREL stored after
it; an error in between loses the handshake.
-/
namespace Masaka.Tracking
open Effect Tables MqttProtocolHandler LawfulHandler MqttProtocolEngine Sending

/-- The identifier's handshake is not finished: its message or its PUBREL is pending. -/
def Tracked (s : InMemorySession) (pid : Pid) : Prop := pid ∈ s.pending_publishes ∨ pid ∈ s.pending_pubrels

instance (s : InMemorySession) (pid : Pid) : Decidable (Tracked s pid) := inferInstanceAs (Decidable (_ ∨ _))

/-- If the outcome is an error, the same identifiers are tracked as before. -/
def ErrorKeeps {α : Type} (s : InMemorySession) (r : Except (Halt MqttError) α) (s' : InMemorySession) : Prop :=
  ∀ err, r = .error (.err err) → ∀ pid, Tracked s' pid ↔ Tracked s pid

theorem ErrorKeeps.ok {α : Type} (s : InMemorySession) (a : α) (s' : InMemorySession) : ErrorKeeps s (.ok a) s' :=
  fun _ failed => by cases failed
theorem ErrorKeeps.same {α : Type} (s : InMemorySession) (r : Except (Halt MqttError) α) : ErrorKeeps s r s :=
  fun _ _ _ => Iff.rfl

section
variable {H P E : Type} [MqttProtocolHandler H P E]

/-- A reply leaves the session alone. -/
theorem reply (create : H → Pid → Except E P) (pid : Pid) (e : MqttProtocolEngine H P E) (s : InMemorySession) :
    wp (do
      let (e, _) ← get
      let packet ← ofExcept (into H) (create e.handler pid)
      zoom first (send_packet packet) : SessionM H P E Unit) (e, s) fun r s' => ErrorKeeps s r s'.2 := by
  simp only [wp_bind, wp_get]
  cases create e.handler pid with
  | error err => exact .same _ _
  | ok packet => exact .same _ _

/-- The other actions leave the session alone, or do not fail. -/
theorem acknowledge_other {action : PacketAction} (other : ∀ pid, action ≠ .PublishRec pid) (e : MqttProtocolEngine H P E)
    (s : InMemorySession) :
    wp (acknowledge (H := H) action) (e, s) fun r s' => ErrorKeeps s r s'.2 := by
  cases action with
  | PublishRec pid => exact absurd rfl (other pid)
  | PublishAck pid => exact .ok _ _ _
  | PublishComplete pid => exact .ok _ _ _
  | PublishRelease pid => exact reply _ pid e s
  | PublishReceived topic qos retain payload pid =>
    cases pid with
    | none => cases qos <;> exact .same _ _
    | some pid =>
      cases qos with
      | Level0 => exact .same _ _
      | Level1 => exact reply _ pid e s
      | Level2 => exact reply _ pid e s
  | ConnectAck _ _ | SubscribeAck _ _ | UnsubscribeAck _ | PingResponse | None => exact .same _ _

variable [LawfulHandler H P E]

/-- The PUBREL that answers a PUBREC of a pending message cannot be sent, and is not stored yet. -/
def LosesHandshake (e : MqttProtocolEngine H P E) (s : InMemorySession) (pid : Pid) : Prop :=
  pid ∈ s.pending_publishes ∧ pid ∉ s.pending_pubrels ∧
    ∃ pubrel, create_pubrel_packet e.handler pid = .ok pubrel ∧ Unsendable e pubrel

/-- Answering a PUBREC. -/
theorem acknowledge_pubrec {e : MqttProtocolEngine H P E} (idle : e.write_queue = []) (s : InMemorySession) (pid : Pid) :
    wp (acknowledge (H := H) (.PublishRec pid)) (e, s) fun r s' =>
      ErrorKeeps s r s'.2 ↔ ¬ LosesHandshake e s pid := by
  simp only [acknowledge, wp_bind, onSession, wp_ofExec, SessionState.complete_outgoing_publish]
  cases stored : s.pending_publishes.lookup pid with
  | none =>
    have absent : pid ∉ s.pending_publishes := fun member => by
      obtain ⟨message, found⟩ := mem_iff_lookup.mp member
      cases stored.symm.trans found
    exact ⟨fun _ loses => absent loses.1, fun _ => .ok _ _ _⟩
  | some message =>
    have pending : pid ∈ s.pending_publishes := mem_iff_lookup.mpr ⟨message, stored⟩
    obtain ⟨pubrel, created, -⟩ := LawfulHandler.pubrel e.handler pid
    simp only [wp_bind, wp_get, created, ofExcept_ok, wp_pure, wp_zoom]
    refine wp_mono (send_packet_spec (e := e) pubrel idle) fun r e' sent => ?_
    have fails := sent.fails_iff
    -- Unless sending fails, nothing is lost.
    have safe : (¬ ∃ err, r = .error (.err err)) → ¬ LosesHandshake e s pid := by
      rintro sends ⟨-, -, pubrel', created', unsendable⟩
      cases created.symm.trans created'
      exact sends (fails.mpr unsendable)
    rcases r with (err | _) | _
    · have unsendable := fails.mp ⟨err, rfl⟩
      constructor
      · rintro keeps ⟨-, absent, -⟩
        rcases (keeps err rfl pid).mpr (.inl pending) with publish | pubrel
        · exact (AList.mem_erase.mp publish).1 rfl
        · exact absent pubrel
      · intro keeps _ _ p
        have stays : pid ∈ s.pending_pubrels := by
          by_contra absent
          exact keeps ⟨pending, absent, pubrel, created, unsendable⟩
        constructor
        · rintro (publish | pubrel)
          · exact .inl (AList.mem_erase.mp publish).2
          · exact .inr pubrel
        · rintro (publish | pubrel)
          · by_cases same : p = pid
            · exact .inr (same ▸ stays)
            · exact .inl (AList.mem_erase.mpr ⟨same, publish⟩)
          · exact .inr pubrel
    · exact ⟨fun _ => safe (by simp), fun _ _ failed => by cases failed⟩
    · exact ⟨fun _ => safe (by simp), fun _ => .ok _ _ _⟩

/-- The packet that arrives is the PUBREC of a handshake that is lost. -/
def LosesAny (e : MqttProtocolEngine H P E) (s : InMemorySession) : Prop :=
  ∃ packet pid, e.world.read 0 = .packet packet ∧ shape (H := H) packet = .pubrec pid ∧ LosesHandshake e s pid

theorem received_pubrec {e : MqttProtocolEngine H P E} {pid : Pid} (pubrec : received e = .ok (.PublishRec pid)) :
    ∃ packet, e.world.read 0 = .packet packet ∧ shape (H := H) packet = .pubrec pid := by
  unfold received at pubrec
  split at pubrec
  · rename_i packet arrived
    refine ⟨packet, arrived, ?_⟩
    cases handled : handle_packet e.handler packet with
    | error err => rw [handled] at pubrec; cases pubrec
    | ok action =>
      rw [handled] at pubrec
      cases pubrec
      have same := LawfulHandler.handled _ _ _ handled (by simp)
      cases shaped : shape (H := H) packet <;> rw [shaped] at same <;> cases same
      rfl
  · cases pubrec
  · cases pubrec

theorem loses_received {e : MqttProtocolEngine H P E} {s : InMemorySession} (loses : LosesAny e s) :
    ∃ pid, received e = .ok (.PublishRec pid) ∧ LosesHandshake e s pid := by
  obtain ⟨packet, pid, arrived, shaped, lost⟩ := loses
  refine ⟨pid, ?_, lost⟩
  rw [received, arrived]
  simp only [LawfulHandler.handle e.handler packet (.PublishRec pid) (by rw [shaped]; rfl)]
  rfl

/-- An error of `receive_packet` keeps what is tracked exactly if no handshake is lost. -/
theorem receive_packet_keeps_iff {e : MqttProtocolEngine H P E} (idle : e.write_queue = []) (s : InMemorySession) :
    wp (receive_packet (H := H)) (e, s) fun r s' => ErrorKeeps s r s'.2 ↔ ¬ LosesAny e s := by
  rw [receive_packet, wp_bind, wp_zoom]
  refine wp_mono (receive_packet_unlogged_spec e) fun r e' after => ?_
  obtain ⟨rfl, -, handler, -, queue, write, flush, -⟩ := after
  have safe : (∀ pid, received e ≠ .ok (.PublishRec pid)) → ¬ LosesAny e s := fun other loses => by
    obtain ⟨pid, arrived, -⟩ := loses_received loses
    exact other pid arrived
  cases outcome : received e with
  | error halt => exact ⟨fun _ => safe fun _ arrived => (by cases outcome.symm.trans arrived), fun _ => .same _ _⟩
  | ok action =>
    simp only [wp_bind]
    by_cases pubrec : ∃ pid, action = .PublishRec pid
    · obtain ⟨pid, rfl⟩ := pubrec
      refine wp_mono (acknowledge_pubrec (queue.trans idle) s pid) fun r s' keeps => ?_
      have lost : LosesAny e s ↔ LosesHandshake e' s pid := by
        rw [LosesHandshake, handler]
        simp only [Unsendable, handler, write, flush]
        constructor
        · intro loses
          obtain ⟨pid', arrived, lost⟩ := loses_received loses
          cases outcome.symm.trans arrived
          exact lost
        · intro lost
          obtain ⟨packet, arrived, shaped⟩ := received_pubrec outcome
          exact ⟨packet, pid, arrived, shaped, lost⟩
      rw [lost, ← keeps]
      cases r with
      | ok _ => exact ⟨fun _ => .ok _ _ _, fun _ => .ok _ _ _⟩
      | error halt => simp only [ErrorKeeps, Except.error.injEq]
    · have other : ∀ pid, action ≠ .PublishRec pid := fun pid same => pubrec ⟨pid, same⟩
      refine wp_mono (acknowledge_other other e' s) fun r s' keeps => ?_
      have unlost : ¬ LosesAny e s := safe fun pid arrived => other pid (by cases outcome.symm.trans arrived; rfl)
      cases r with
      | ok _ => exact ⟨fun _ => unlost, fun _ => .ok _ _ _⟩
      | error halt => exact ⟨fun _ => unlost, fun _ err failed => keeps err (by cases failed; rfl)⟩

end

section
variable [Codec V3.Packet MqttProtoError] [Codec V5.Packet ErrorV5] {v : Version}

/-- Whatever the session, the packet and the transport: if `receive_packet` fails,
    what is tracked stays exactly if no PUBREC is lost. -/
theorem tracked_after_error_iff {c : Client v} (reachable : c.Reachable) (world : World v.Packet v.Error)
    (s : InMemorySession) :
    ErrorKeeps s (exec receive_packet ((c.withWorld world).protocol_engine, s)).1
      (exec receive_packet ((c.withWorld world).protocol_engine, s)).2.2 ↔
        ¬ LosesAny (c.withWorld world).protocol_engine s :=
  receive_packet_keeps_iff (e := (c.withWorld world).protocol_engine) reachable.idle s

end

section
local instance : Codec V3.Packet MqttProtoError := Wire.v3Codec
local instance : Codec V5.Packet ErrorV5 := Wire.v5Codec

/-- A client with a message of level 2 pending. -/
def publishing : Client .v3 := Client.run (MqttClient.new (.obliging true []) {} {})
  [⟨.connect, .obliging true [.Connack ⟨false, 0⟩]⟩, ⟨.publish "a" [1] ⟨.Level2, false⟩, .obliging true []⟩]

/-- The PUBREC arrives, and nothing can be written any more. -/
def pubrec_arrives : World V3.Packet MqttProtoError :=
  { World.obliging true [.Pubrec .default] with write := fun _ => some (.error .ConnectionLost) }

theorem publishing_reachable : publishing.Reachable := ⟨_, (), _, _, rfl⟩

theorem tracked_after_error_publishing :
    ErrorKeeps publishing.session_state
      (exec receive_packet ((publishing.withWorld pubrec_arrives).protocol_engine, publishing.session_state)).1
      (exec receive_packet ((publishing.withWorld pubrec_arrives).protocol_engine, publishing.session_state)).2.2 ↔
        ¬ LosesAny (publishing.withWorld pubrec_arrives).protocol_engine publishing.session_state :=
  tracked_after_error_iff publishing_reachable pubrec_arrives publishing.session_state

/-- The handshake of a message is lost when its PUBREL cannot be sent. -/
theorem handshake_lost : ¬ ∀ (c : Client .v3) (world : World V3.Packet MqttProtoError) (s : InMemorySession),
    c.Reachable → ErrorKeeps s (exec receive_packet ((c.withWorld world).protocol_engine, s)).1
      (exec receive_packet ((c.withWorld world).protocol_engine, s)).2.2 := by
  intro keeps
  have same := keeps publishing pubrec_arrives publishing.session_state publishing_reachable
    (.Transport .ConnectionLost) (by decide) .default
  have before : Tracked publishing.session_state .default := by decide
  have after : ¬ Tracked (exec receive_packet ((publishing.withWorld pubrec_arrives).protocol_engine,
    publishing.session_state)).2.2 .default := by decide
  exact after (same.mpr before)

end

end Masaka.Tracking
