import Masaka.Operations
import Masaka.Wire

/-!
Which acknowledgment discharges a pending message. A PUBACK and a PUBCOMP take the
message of their identifier out of the session, and a PUBREC moves it on to the
PUBRELs, whatever its level and its position in the handshake.
-/
namespace Masaka.Discharge
open Effect Tables MqttProtocolHandler LawfulHandler MqttProtocolEngine Sending
open SessionState (handshakes)

/-- A message of the level is pending under the identifier. -/
def Awaits (s : InMemorySession) (pid : Pid) (qos : QoS) : Prop :=
  ∃ message, s.pending_publishes.lookup pid = some message ∧ message.qos = qos

theorem Awaits.pending {s : InMemorySession} {pid : Pid} {qos : QoS} (awaits : Awaits s pid qos) :
    pid ∈ s.pending_publishes := by
  obtain ⟨message, stored, -⟩ := awaits
  exact mem_iff_lookup.mpr ⟨message, stored⟩
theorem Awaits.level {s : InMemorySession} {pid : Pid} {qos qos' : QoS} (awaits : Awaits s pid qos)
    (awaits' : Awaits s pid qos') : qos = qos' := by
  obtain ⟨message, stored, rfl⟩ := awaits
  obtain ⟨message', stored', rfl⟩ := awaits'
  cases stored.symm.trans stored'
  rfl

section
variable {H P E : Type} [MqttProtocolHandler H P E]

/-- The other actions leave the tables alone. -/
theorem acknowledge_handshakes {action : PacketAction} (puback : ∀ pid, action ≠ .PublishAck pid)
    (pubrec : ∀ pid, action ≠ .PublishRec pid) (pubcomp : ∀ pid, action ≠ .PublishComplete pid)
    (e : MqttProtocolEngine H P E) (s : InMemorySession) :
    wp (acknowledge (H := H) action) (e, s) fun _ s' => handshakes s'.2 = handshakes s := by
  have replying : ∀ create : H → Except E P, wp (get >>= fun s => ofExcept (into H) (create s.1.handler) >>= fun packet =>
      zoom first (send_packet packet) : SessionM H P E Unit) (e, s) fun _ s' => handshakes s'.2 = handshakes s := by
    intro create
    rw [wp_bind, wp_get]
    dsimp only
    cases create e.handler <;> rfl
  cases action with
  | PublishAck pid => exact absurd rfl (puback pid)
  | PublishRec pid => exact absurd rfl (pubrec pid)
  | PublishComplete pid => exact absurd rfl (pubcomp pid)
  | PublishRelease pid => exact replying fun h => create_pubcomp_packet h pid
  | PublishReceived topic qos retain payload pid =>
    cases pid with
    | none => cases qos <;> rfl
    | some pid =>
      cases qos with
      | Level0 => rfl
      | Level1 => exact replying fun h => create_puback_packet h pid
      | Level2 => exact replying fun h => create_pubrec_packet h pid
  | ConnectAck _ _ | SubscribeAck _ _ | UnsubscribeAck _ | PingResponse | None => rfl

theorem sends_waited {e e' : MqttProtocolEngine H P E} {r : Except (Halt MqttError) PacketAction}
    (waited : Waited e r e') (packet : P) : Sends e' packet ↔ Sends e packet := by
  simp only [Sends, waited.handler, waited.write, waited.flush]
variable [LawfulHandler H P E]

/-- The next packet has the shape. -/
def Arrives (e : MqttProtocolEngine H P E) (arriving : Shape) : Prop :=
  ∃ packet, e.world.read 0 = .packet packet ∧ shape (H := H) packet = arriving

/-- A packet arrives exactly if its action is received. -/
theorem arrives_iff {e : MqttProtocolEngine H P E} {arriving : Shape} {action : PacketAction}
    (asks : ∀ other : Shape, other.action = some action ↔ other = arriving) (some : action ≠ .None) :
    Arrives e arriving ↔ received e = .ok action := by
  constructor
  · rintro ⟨packet, arrived, shaped⟩
    have handled := LawfulHandler.handle e.handler packet action ((asks _).mpr shaped)
    rw [received, arrived]
    simp only [handled]
    rfl
  · intro outcome
    unfold received at outcome
    split at outcome
    · rename_i packet arrived
      refine ⟨packet, arrived, (asks _).mp (LawfulHandler.handled e.handler packet action ?_ some)⟩
      cases handled : handle_packet e.handler packet with
      | error err => rw [handled] at outcome; cases outcome
      | ok action' => rw [handled] at outcome; cases outcome; rfl
    · cases outcome
    · cases outcome

theorem Arrives.unique {e : MqttProtocolEngine H P E} {arriving other : Shape} (arrives : Arrives e arriving)
    (arrives' : Arrives e other) : arriving = other := by
  obtain ⟨packet, arrived, rfl⟩ := arrives
  obtain ⟨packet', arrived', rfl⟩ := arrives'
  cases arrived.symm.trans arrived'
  rfl

theorem arrives_puback {e : MqttProtocolEngine H P E} {pid : Pid} :
    Arrives e (.puback pid) ↔ received e = .ok (.PublishAck pid) :=
  arrives_iff (fun other => by cases other <;> simp [Shape.action]) (by simp)
theorem arrives_pubrec {e : MqttProtocolEngine H P E} {pid : Pid} :
    Arrives e (.pubrec pid) ↔ received e = .ok (.PublishRec pid) :=
  arrives_iff (fun other => by cases other <;> simp [Shape.action]) (by simp)
theorem arrives_pubcomp {e : MqttProtocolEngine H P E} {pid : Pid} :
    Arrives e (.pubcomp pid) ↔ received e = .ok (.PublishComplete pid) :=
  arrives_iff (fun other => by cases other <;> simp [Shape.action]) (by simp)

/-- What receiving makes of the tables. -/
inductive Acknowledges (e : MqttProtocolEngine H P E) (s : InMemorySession) :
    HashMap Pid InflightMessage × HashSet Pid → Prop where
  | puback {pid : Pid} : received e = .ok (.PublishAck pid) →
      Acknowledges e s (s.pending_publishes.erase pid, s.pending_pubrels)
  | pubcomp {pid : Pid} : received e = .ok (.PublishComplete pid) →
      Acknowledges e s (s.pending_publishes.erase pid, s.pending_pubrels.erase pid)
  | pubrec {pid : Pid} {pubrel : P} : received e = .ok (.PublishRec pid) → pid ∈ s.pending_publishes →
      create_pubrel_packet e.handler pid = .ok pubrel → Sends e pubrel →
      Acknowledges e s (s.pending_publishes.erase pid, s.pending_pubrels.insert pid ())
  | unsent {pid : Pid} {pubrel : P} : received e = .ok (.PublishRec pid) → pid ∈ s.pending_publishes →
      create_pubrel_packet e.handler pid = .ok pubrel → ¬ Sends e pubrel →
      Acknowledges e s (s.pending_publishes.erase pid, s.pending_pubrels)
  | unknown {pid : Pid} : received e = .ok (.PublishRec pid) → pid ∉ s.pending_publishes → Acknowledges e s (handshakes s)
  | other : (∀ pid, received e ≠ .ok (.PublishAck pid)) → (∀ pid, received e ≠ .ok (.PublishRec pid)) →
      (∀ pid, received e ≠ .ok (.PublishComplete pid)) → Acknowledges e s (handshakes s)

theorem receive_packet_handshakes {e : MqttProtocolEngine H P E} (idle : e.write_queue = []) (s : InMemorySession) :
    wp (receive_packet (H := H)) (e, s) fun _ s' => Acknowledges e s (handshakes s'.2) := by
  rw [receive_packet, wp_bind, wp_zoom]
  refine wp_mono (receive_packet_unlogged_spec e) fun r e' waited => ?_
  have outcome : received e = r := waited.outcome.symm
  cases r with
  | error h => exact .other (by simp [outcome]) (by simp [outcome]) (by simp [outcome])
  | ok action =>
    dsimp only
    rw [wp_bind]
    -- Only the session counts, whatever the call returns.
    suffices acknowledged : wp (acknowledge (H := H) action) (e', s) fun _ s' => Acknowledges e s (handshakes s'.2) from
      wp_mono acknowledged fun r s' holds => by cases r <;> exact holds
    by_cases puback : ∃ pid, action = .PublishAck pid
    · obtain ⟨pid, rfl⟩ := puback
      exact .puback outcome
    by_cases pubcomp : ∃ pid, action = .PublishComplete pid
    · obtain ⟨pid, rfl⟩ := pubcomp
      exact .pubcomp outcome
    by_cases pubrec : ∃ pid, action = .PublishRec pid
    · obtain ⟨pid, rfl⟩ := pubrec
      simp only [acknowledge, wp_bind, onSession, wp_ofExec, SessionState.complete_outgoing_publish]
      cases stored : s.pending_publishes.lookup pid with
      | none =>
        have absent : pid ∉ s.pending_publishes := AList.lookup_eq_none.mp stored
        simp only [wp_pure, handshakes, erase_absent absent]
        exact .unknown outcome absent
      | some message =>
        have pending : pid ∈ s.pending_publishes := mem_iff_lookup.mpr ⟨message, stored⟩
        obtain ⟨pubrel, created, -⟩ := LawfulHandler.pubrel e'.handler pid
        simp only [wp_bind, wp_get, created, ofExcept_ok, wp_pure, wp_zoom]
        refine wp_mono (send_packet_spec (e := e') pubrel (waited.queue.trans idle)) fun r e'' sent => ?_
        have sends := sent.succeeds_iff.trans (sends_waited waited pubrel)
        rw [waited.handler] at created
        cases r with
        | error h => exact .unsent outcome pending created fun taken => by cases sends.mpr taken
        | ok _ => exact .pubrec outcome pending created (sends.mp rfl)
    · refine wp_mono (acknowledge_handshakes ?_ ?_ ?_ e' s) fun _ s' same => ?_
      · exact fun pid same => puback ⟨pid, same⟩
      · exact fun pid same => pubrec ⟨pid, same⟩
      · exact fun pid same => pubcomp ⟨pid, same⟩
      · rw [same]
        refine .other ?_ ?_ ?_ <;> intro pid arrived <;> rw [outcome] at arrived
        · exact puback ⟨pid, Except.ok.inj arrived⟩
        · exact pubrec ⟨pid, Except.ok.inj arrived⟩
        · exact pubcomp ⟨pid, Except.ok.inj arrived⟩

/-- Only the matching acknowledgment has discharged a message. -/
structure Discharged (e : MqttProtocolEngine H P E) (s s' : InMemorySession) : Prop where
  level1 : ∀ pid, Awaits s pid .Level1 → pid ∉ s'.pending_publishes → Arrives e (.puback pid)
  level2 : ∀ pid, Awaits s pid .Level2 → pid ∉ s'.pending_publishes → Arrives e (.pubrec pid) ∧ pid ∈ s'.pending_pubrels
  pubrel : ∀ pid, pid ∈ s.pending_pubrels → pid ∉ s'.pending_pubrels → Arrives e (.pubcomp pid)
  early : ∀ pid, Awaits s pid .Level2 → Arrives e (.puback pid) ∨ Arrives e (.pubcomp pid) → handshakes s' = handshakes s
  wrong : ∀ pid, Awaits s pid .Level1 → Arrives e (.pubrec pid) → handshakes s' = handshakes s

/-- An acknowledgment that does not match the message pending under its identifier, or
    a PUBREC whose PUBREL is not sent and not yet recorded. -/
inductive Mistaken (e : MqttProtocolEngine H P E) (s : InMemorySession) : Prop where
  | puback {pid : Pid} : Arrives e (.puback pid) → Awaits s pid .Level2 → Mistaken e s
  | pubcomp {pid : Pid} {qos : QoS} : Arrives e (.pubcomp pid) → Awaits s pid qos → qos ≠ .Level0 → Mistaken e s
  | pubrec {pid : Pid} : Arrives e (.pubrec pid) → Awaits s pid .Level1 → Mistaken e s
  | unsent {pid : Pid} {pubrel : P} : Arrives e (.pubrec pid) → Awaits s pid .Level2 → pid ∉ s.pending_pubrels →
      create_pubrel_packet e.handler pid = .ok pubrel → ¬ Sends e pubrel → Mistaken e s

/-- Whichever acknowledgment arrives, the message of its identifier is not pending any more. -/
theorem Acknowledges.gone {e : MqttProtocolEngine H P E} {s : InMemorySession} {t : HashMap Pid InflightMessage × HashSet Pid}
    (acknowledges : Acknowledges e s t) {pid : Pid}
    (arrives : Arrives e (.puback pid) ∨ Arrives e (.pubcomp pid) ∨ Arrives e (.pubrec pid)) : pid ∉ t.1 := by
  rw [arrives_puback, arrives_pubcomp, arrives_pubrec] at arrives
  cases acknowledges with
  | @puback p outcome | @pubcomp p outcome | @pubrec p _ outcome _ _ _ | @unsent p _ outcome _ _ _ =>
    have same : pid = p := by simpa [outcome, eq_comm] using arrives
    rw [same]
    exact fun member => (AList.mem_erase.mp member).1 rfl
  | @unknown p outcome absent =>
    have same : pid = p := by simpa [outcome, eq_comm] using arrives
    rw [same]
    exact absent
  | other puback pubrec pubcomp =>
    rcases arrives with arrived | arrived | arrived
    · exact absurd arrived (puback pid)
    · exact absurd arrived (pubcomp pid)
    · exact absurd arrived (pubrec pid)

omit [LawfulHandler H P E] in
theorem Acknowledges.of_puback {e : MqttProtocolEngine H P E} {s : InMemorySession}
    {t : HashMap Pid InflightMessage × HashSet Pid} (acknowledges : Acknowledges e s t) {pid : Pid}
    (arrived : received e = .ok (.PublishAck pid)) : t = (s.pending_publishes.erase pid, s.pending_pubrels) := by
  cases acknowledges with
  | puback outcome => cases arrived.symm.trans outcome; rfl
  | pubcomp outcome | pubrec outcome | unsent outcome | unknown outcome => cases arrived.symm.trans outcome
  | other puback => exact absurd arrived (puback pid)
omit [LawfulHandler H P E] in
theorem Acknowledges.of_pubcomp {e : MqttProtocolEngine H P E} {s : InMemorySession}
    {t : HashMap Pid InflightMessage × HashSet Pid} (acknowledges : Acknowledges e s t) {pid : Pid}
    (arrived : received e = .ok (.PublishComplete pid)) :
    t = (s.pending_publishes.erase pid, s.pending_pubrels.erase pid) := by
  cases acknowledges with
  | pubcomp outcome => cases arrived.symm.trans outcome; rfl
  | puback outcome | pubrec outcome | unsent outcome | unknown outcome => cases arrived.symm.trans outcome
  | other _ _ pubcomp => exact absurd arrived (pubcomp pid)

omit [LawfulHandler H P E] in
/-- A PUBREC moves a pending message on to the PUBRELs if its PUBREL is sent, and drops it otherwise. -/
theorem Acknowledges.of_pubrec {e : MqttProtocolEngine H P E} {s : InMemorySession}
    {t : HashMap Pid InflightMessage × HashSet Pid} (acknowledges : Acknowledges e s t) {pid : Pid}
    (arrived : received e = .ok (.PublishRec pid)) {pubrel : P} (created : create_pubrel_packet e.handler pid = .ok pubrel) :
    (pid ∈ s.pending_publishes ∧ Sends e pubrel ∧
      t = (s.pending_publishes.erase pid, s.pending_pubrels.insert pid ())) ∨
    (pid ∈ s.pending_publishes ∧ ¬ Sends e pubrel ∧ t = (s.pending_publishes.erase pid, s.pending_pubrels)) ∨
    (pid ∉ s.pending_publishes ∧ t = handshakes s) := by
  cases acknowledges with
  | puback outcome | pubcomp outcome => cases arrived.symm.trans outcome
  | pubrec outcome pending created' sends =>
    cases arrived.symm.trans outcome
    cases created.symm.trans created'
    exact .inl ⟨pending, sends, rfl⟩
  | unsent outcome pending created' unsent =>
    cases arrived.symm.trans outcome
    cases created.symm.trans created'
    exact .inr (.inl ⟨pending, unsent, rfl⟩)
  | unknown outcome absent =>
    cases arrived.symm.trans outcome
    exact .inr (.inr ⟨absent, rfl⟩)
  | other _ pubrec => exact absurd arrived (pubrec pid)

/-- How a message has left the table. -/
theorem Acknowledges.left {e : MqttProtocolEngine H P E} {s : InMemorySession} {t : HashMap Pid InflightMessage × HashSet Pid}
    (acknowledges : Acknowledges e s t) {pid : Pid} (before : pid ∈ s.pending_publishes) (after : pid ∉ t.1) :
    Arrives e (.puback pid) ∨ Arrives e (.pubcomp pid) ∨ Arrives e (.pubrec pid) ∧ (pid ∈ t.2 ∨
      t.2 = s.pending_pubrels ∧ ∃ pubrel, create_pubrel_packet e.handler pid = .ok pubrel ∧ ¬ Sends e pubrel) := by
  rw [arrives_puback, arrives_pubcomp, arrives_pubrec]
  have erased : ∀ p, pid ∉ s.pending_publishes.erase p → pid = p := by
    intro p gone
    by_contra other
    exact gone (AList.mem_erase.mpr ⟨other, before⟩)
  cases acknowledges with
  | puback outcome => rw [erased _ after]; exact .inl outcome
  | pubcomp outcome => rw [erased _ after]; exact .inr (.inl outcome)
  | pubrec outcome _ _ _ =>
    rw [erased _ after]
    exact .inr (.inr ⟨outcome, .inl ((AList.mem_insert _).mpr (.inl rfl))⟩)
  | unsent outcome _ created unsent =>
    rw [erased _ after]
    exact .inr (.inr ⟨outcome, .inr ⟨rfl, _, created, unsent⟩⟩)
  | unknown _ _ | other _ _ _ => exact absurd before after

theorem Acknowledges.released {e : MqttProtocolEngine H P E} {s : InMemorySession}
    {t : HashMap Pid InflightMessage × HashSet Pid} (acknowledges : Acknowledges e s t) {pid : Pid}
    (before : pid ∈ s.pending_pubrels) (after : pid ∉ t.2) : Arrives e (.pubcomp pid) := by
  rw [arrives_pubcomp]
  cases acknowledges with
  | @pubcomp p outcome =>
    have same : pid = p := by
      by_contra other
      exact after (AList.mem_erase.mpr ⟨other, before⟩)
    rw [same]
    exact outcome
  | pubrec _ _ _ _ => exact absurd ((AList.mem_insert _).mpr (.inr before)) after
  | puback _ | unsent _ _ _ _ | unknown _ _ | other _ _ _ => exact absurd before after

/-- A PUBREL that is not sent is not recorded. -/
theorem Acknowledges.unrecorded {e : MqttProtocolEngine H P E} {s : InMemorySession}
    {t : HashMap Pid InflightMessage × HashSet Pid} (acknowledges : Acknowledges e s t) {pid : Pid} {pubrel : P}
    (arrives : Arrives e (.pubrec pid)) (created : create_pubrel_packet e.handler pid = .ok pubrel)
    (unsent : ¬ Sends e pubrel) : t.2 = s.pending_pubrels := by
  rw [arrives_pubrec] at arrives
  cases acknowledges with
  | puback outcome | pubcomp outcome => cases outcome.symm.trans arrives
  | pubrec outcome _ created' sends =>
    cases outcome.symm.trans arrives
    cases created.symm.trans created'
    exact absurd sends unsent
  | unsent _ _ _ _ | unknown _ _ | other _ _ _ => rfl

theorem discharged_iff {e : MqttProtocolEngine H P E} {s s' : InMemorySession} (acknowledges : Acknowledges e s (handshakes s')) :
    Discharged e s s' ↔ ¬ Mistaken e s := by
  constructor
  · intro discharged mistaken
    cases mistaken with
    | puback arrives awaits =>
      have same := discharged.early _ awaits (.inl arrives)
      exact acknowledges.gone (.inl arrives) (same ▸ awaits.pending)
    | @pubcomp pid qos arrives awaits level =>
      have gone : pid ∉ s'.pending_publishes := acknowledges.gone (.inr (.inl arrives))
      cases qos with
      | Level0 => exact level rfl
      | Level1 => cases (discharged.level1 pid awaits gone).unique arrives
      | Level2 => cases (discharged.level2 pid awaits gone).1.unique arrives
    | pubrec arrives awaits =>
      have same := discharged.wrong _ awaits arrives
      exact acknowledges.gone (.inr (.inr arrives)) (same ▸ awaits.pending)
    | @unsent pid pubrel arrives awaits absent created unsent =>
      have gone : pid ∉ s'.pending_publishes := acknowledges.gone (.inr (.inr arrives))
      have recorded : pid ∈ (handshakes s').2 := (discharged.level2 pid awaits gone).2
      rw [acknowledges.unrecorded arrives created unsent] at recorded
      exact absent recorded
  · intro fits
    constructor
    case level1 =>
      intro pid awaits after
      rcases acknowledges.left awaits.pending after with puback | pubcomp | ⟨pubrec, -⟩
      · exact puback
      · exact absurd (.pubcomp pubcomp awaits (by decide)) fits
      · exact absurd (.pubrec pubrec awaits) fits
    case level2 =>
      intro pid awaits after
      rcases acknowledges.left awaits.pending after with
        puback | pubcomp | ⟨pubrec, recorded | ⟨same, pubrel, created, unsent⟩⟩
      · exact absurd (.puback puback awaits) fits
      · exact absurd (.pubcomp pubcomp awaits (by decide)) fits
      · exact ⟨pubrec, recorded⟩
      · refine ⟨pubrec, ?_⟩
        by_contra absent
        refine fits (.unsent pubrec awaits ?_ created unsent)
        rw [← same]
        exact absent
    case pubrel => exact fun pid before after => acknowledges.released before after
    case early =>
      rintro pid awaits (puback | pubcomp)
      · exact absurd (.puback puback awaits) fits
      · exact absurd (.pubcomp pubcomp awaits (by decide)) fits
    case wrong => exact fun pid awaits pubrec => absurd (.pubrec pubrec awaits) fits

end

section
variable [Codec V3.Packet MqttProtoError] [Codec V5.Packet ErrorV5] {v : Version}

/-- Whatever the session and the packet that arrives: only the matching acknowledgment
    discharges a message, exactly if the packet is not one that is mistaken. -/
theorem discharged_after_receive_iff {e : MqttProtocolEngine v.Handler v.Packet v.Error} (idle : e.write_queue = [])
    (s : InMemorySession) : Discharged e s (exec receive_packet (e, s)).2.2 ↔ ¬ Mistaken e s :=
  discharged_iff (receive_packet_handshakes idle s)

end

section
local instance : Codec V3.Packet MqttProtoError := Wire.v3Codec
local instance : Codec V5.Packet ErrorV5 := Wire.v5Codec

/-- A client with a message of level 1 pending. -/
def publishing : Client .v3 := Client.run (MqttClient.new (.obliging true []) {} {})
  [⟨.connect, .obliging true [.Connack ⟨false, 0⟩]⟩, ⟨.publish "a" [1] ⟨.Level1, false⟩, .obliging true []⟩]

def pubrec_arrives : Client .v3 := publishing.withWorld (.obliging true [.Pubrec .default])

theorem publishing_reachable : publishing.Reachable := ⟨_, (), _, _, rfl⟩

theorem discharged_after_receive_publishing :
    Discharged pubrec_arrives.protocol_engine publishing.session_state
      (exec receive_packet (pubrec_arrives.protocol_engine, publishing.session_state)).2.2 ↔
        ¬ Mistaken pubrec_arrives.protocol_engine publishing.session_state :=
  discharged_after_receive_iff (v := .v3) (e := pubrec_arrives.protocol_engine) publishing_reachable.idle
    publishing.session_state

/-- A PUBREC moves a message of level 1 on to the PUBRELs. -/
theorem level1_released : ¬ ∀ (c : Client .v3) (world : World V3.Packet MqttProtoError), c.Reachable →
    Discharged (c.withWorld world).protocol_engine c.session_state
      (exec receive_packet ((c.withWorld world).protocol_engine, c.session_state)).2.2 := by
  intro discharged
  have pending : Awaits publishing.session_state .default .Level1 := ⟨⟨"a", .Level1, false, [1], 0, 0⟩, by decide, rfl⟩
  have arrives : Arrives pubrec_arrives.protocol_engine (.pubrec .default) := ⟨.Pubrec .default, rfl, rfl⟩
  have same := (discharged publishing _ publishing_reachable).wrong .default pending arrives
  have gone : Pid.default ∉ (handshakes (exec receive_packet (pubrec_arrives.protocol_engine,
    publishing.session_state)).2.2).1 := by decide
  rw [pubrec_arrives, same] at gone
  exact gone pending.pending

end

end Masaka.Discharge
