import Masaka.Acknowledged
import Masaka.ConnectResult
import Masaka.Resume
import Masaka.Retries

/-!
Building PUBLISHes. Every PUBLISH is built with an identifier exactly if its level is above 0,
and so is every message that is stored: a client does the same whatever its handler would answer
to another level with an identifier, or to a level above 0 without one.
-/
namespace Masaka.Rebuilding
open Effect Tables Runs MqttProtocolHandler LawfulHandler MqttProtocolEngine Acknowledged
open ConnectResult (again)
open MqttClient (engine engineSession)

/-- An identifier is there exactly if the level is above 0. -/
def Fits (qos : QoS) (pid : Option Pid) : Prop := pid.isSome = true ↔ qos ≠ .Level0

instance (qos : QoS) (pid : Option Pid) : Decidable (Fits qos pid) := inferInstanceAs (Decidable (_ ↔ _))

theorem fits_carried {qos : QoS} {pid : Option Pid} (fits : Fits qos pid) : ∃ qp, qos_pid qos pid = .ok qp := by
  cases pid with
  | none =>
    have level : qos = .Level0 := by simpa [Fits] using fits
    rw [level]
    exact ⟨.Level0, rfl⟩
  | some pid =>
    have level : qos ≠ .Level0 := by simpa [Fits] using fits
    cases qos with
    | Level0 => exact absurd rfl level
    | Level1 => exact ⟨.Level1 pid, rfl⟩
    | Level2 => exact ⟨.Level2 pid, rfl⟩

theorem fits_some {qos : QoS} (level : qos ≠ .Level0) (pid : Pid) : Fits qos (some pid) :=
  ⟨fun _ => level, fun _ => rfl⟩

/-- A message of a level above 0 can be built again. -/
theorem again_built {H P E : Type} [MqttProtocolHandler H P E] [LawfulHandler H P E] {message : InflightMessage}
    (level : message.qos ≠ .Level0) (h : H) (pid : Pid) : ∃ packet, again h (pid, message) = .ok packet := by
  obtain ⟨qp, carried⟩ := fits_carried (fits_some level pid)
  exact publish_ok h _ _ _ _ _ true qp carried

/-- What a handler answers when a PUBLISH is to be built. -/
abbrev Answers (H P E : Type) := H → TopicName → QoS → Bool → Bytes → Option Pid → Bool → Except E P

section
variable {H P E α : Type} [MqttProtocolHandler H P E]

/-- The handler, which answers as it likes when a level and an identifier do not fit. -/
@[reducible] def misled (answers : Answers H P E) : MqttProtocolHandler H P E :=
  { (inferInstance : MqttProtocolHandler H P E) with
    create_publish_packet := fun h topic qos retain payload pid dup =>
      if Fits qos pid then create_publish_packet h topic qos retain payload pid dup
      else answers h topic qos retain payload pid dup }

variable (answers : Answers H P E)

theorem misled_fits {qos : QoS} {pid : Option Pid} (fits : Fits qos pid) (h : H) (topic : TopicName) (retain : Bool)
    (payload : Bytes) (dup : Bool) : (misled answers).create_publish_packet h topic qos retain payload pid dup =
      create_publish_packet h topic qos retain payload pid dup := if_pos fits

/-- The session of the state has only messages that wait for an acknowledgment. -/
abbrev LeveledS (s : MqttProtocolEngine H P E × InMemorySession) : Prop := Leveled s.2
abbrev LeveledC (c : MqttClient H P E) : Prop := Leveled c.session_state

omit [MqttProtocolHandler H P E] in
theorem aside {m : EngineM H P E α} : Keeps LeveledC (zoom engine m) := fun _ leveled => leveled
omit [MqttProtocolHandler H P E] in
theorem asideS {m : EngineM H P E α} : Keeps LeveledS (zoom first m) := fun _ leveled => leveled

/-! ### Publishing -/

omit [MqttProtocolHandler H P E] in
/-- An identifier is taken exactly for the levels above 0. -/
theorem publish_pid_eq (qos : QoS) : qos = .Level0 ∧ (publish_pid qos : SessionM H P E (Option Pid)) = pure none ∨
    qos ≠ .Level0 ∧ (publish_pid qos : SessionM H P E (Option Pid)) = next_pid >>= fun pid => pure (some pid) := by
  cases qos with
  | Level0 => exact .inl ⟨rfl, rfl⟩
  | Level1 => exact .inr ⟨by decide, map_eq_pure_bind some next_pid⟩
  | Level2 => exact .inr ⟨by decide, map_eq_pure_bind some next_pid⟩

omit [MqttProtocolHandler H P E] in
/-- What is done with it may assume that it fits. -/
theorem publish_pid_bind (qos : QoS) {f g : Option Pid → SessionM H P E α} (same : ∀ pid, Fits qos pid → f pid = g pid) :
    publish_pid qos >>= f = publish_pid qos >>= g := by
  rcases publish_pid_eq (H := H) (P := P) (E := E) qos with ⟨rfl, nothing⟩ | ⟨level, taken⟩
  · rw [nothing]
    exact same none (by decide)
  · rw [taken, bind_assoc, bind_assoc]
    exact bind_congr fun pid => by rw [pure_bind, pure_bind, same (some pid) (fits_some level pid)]
omit [MqttProtocolHandler H P E] in
theorem zoom_publish_pid_bind {σ : Type} (l : Lens σ (MqttProtocolEngine H P E × InMemorySession)) (qos : QoS)
    {f g : Option Pid → Eff MqttError σ α} (same : ∀ pid, Fits qos pid → f pid = g pid) :
    zoom l (publish_pid qos) >>= f = zoom l (publish_pid qos) >>= g := by
  rcases publish_pid_eq (H := H) (P := P) (E := E) qos with ⟨rfl, nothing⟩ | ⟨level, taken⟩
  · rw [nothing, zoom_pure]
    exact same none (by decide)
  · rw [taken, zoom_bind, bind_assoc, bind_assoc]
    exact bind_congr fun pid => by rw [zoom_pure, pure_bind, pure_bind, same (some pid) (fits_some level pid)]

theorem publish_same (topic : TopicName) (qos : QoS) (retain : Bool) (payload : Bytes) :
    @publish H P E (misled answers) topic qos retain payload = publish topic qos retain payload := by
  unfold MqttProtocolEngine.publish
  refine bind_congr fun st => ?_
  obtain ⟨e, s⟩ := st
  simp only []
  congr 1
  refine publish_pid_bind qos fun pid fits => ?_
  rw [misled_fits answers fits]
  rfl

/-! ### Retrying and resuming -/

omit [MqttProtocolHandler H P E] in
theorem complete_keeps (pid : Pid) : Keeps LeveledS (do
    let _ ← onSession (SessionState.complete_outgoing_publish pid) : SessionM H P E Unit) := by
  intro s leveled other message stored
  refine leveled other message ?_
  change ((SessionState.complete_outgoing_publish pid s.2).2).pending_publishes.lookup other = some message at stored
  rw [SessionState.complete_outgoing_publish, lookup_erase_if] at stored
  split at stored
  · cases stored
  · exact stored

theorem retry_publish_keeps (current_time : Nat) (pid : Pid) :
    Keeps LeveledS (retry_publish current_time pid : SessionM H P E Unit) := by
  intro s leveled
  change wp (retry_publish current_time pid) s fun _ t => LeveledS t
  rw [retry_publish, wp_bind, wp_get]
  simp only [SessionState.get_outgoing_publish_mut]
  cases found : s.2.pending_publishes.lookup pid with
  | none => exact leveled
  | some message =>
    simp only [Option.map_some]
    rw [wp_bind, onSession, wp_ofExec]
    have kept : Leveled (Retries.count current_time s.2 (pid, message)) := by
      intro other message' stored
      rw [Retries.count, lookup_insert_if] at stored
      split at stored
      · cases stored
        exact leveled pid message found
      · exact leveled other message' stored
    exact wp_ofExcept_bind (fun packet _ => kept) fun _ _ => kept

theorem retry_publish_same (current_time : Nat) (pid : Pid) :
    Agrees LeveledS (@retry_publish H P E (misled answers) current_time pid) (retry_publish current_time pid) := by
  unfold retry_publish
  refine Agrees.get_bind fun s leveled => ?_
  simp only [SessionState.get_outgoing_publish_mut]
  cases found : s.2.pending_publishes.lookup pid with
  | none => exact Agrees.refl _
  | some message =>
    simp only [Option.map_some]
    rw [misled_fits answers (fits_some (leveled pid message found) pid)]
    exact Agrees.refl _

theorem handle_retries_same (current_time : Nat) :
    Agrees LeveledS (@handle_retries H P E (misled answers) current_time) (handle_retries current_time) := by
  unfold handle_retries
  refine Agrees.get_bind fun s _ => (Agrees.refl _).bind (Keeps.forM complete_keeps _) fun _ => ?_
  refine Agrees.bind ?_ (Keeps.forM (retry_publish_keeps current_time) _) fun _ => Agrees.refl _
  refine Agrees.forM (fun pid _ => ?_) fun pid _ => retry_publish_keeps current_time pid
  exact retry_publish_same answers current_time pid

theorem resend_same {entry : Pid × InflightMessage} (level : entry.2.qos ≠ .Level0) :
    @MqttClient.resend H P E (misled answers) entry = MqttClient.resend entry := by
  unfold MqttClient.resend
  refine bind_congr fun c => ?_
  rw [misled_fits answers (fits_some level entry.1)]
  rfl

theorem resend_keeps (entry : Pid × InflightMessage) : Keeps LeveledC (MqttClient.resend entry : ClientM H P E Unit) :=
  Keeps.bind (fun _ leveled => leveled) fun _ => Keeps.bind (Keeps.ofExcept _ _) fun _ => aside

theorem resend_pending_messages_same :
    Agrees LeveledC (@MqttClient.resend_pending_messages H P E (misled answers)) MqttClient.resend_pending_messages := by
  unfold MqttClient.resend_pending_messages
  refine Agrees.get_bind fun c leveled => ?_
  refine Agrees.forM (fun entry member => ?_) fun entry _ => ?_
  · rw [resend_same answers (leveled entry.1 entry.2 (mem_iter.mp member))]
    exact Agrees.refl _
  · exact resend_keeps entry

/-! ### The operations of the client -/

theorem client_publish_same (topic : TopicName) (payload : Bytes) (config : PublishConfig) :
    @MqttClient.publish H P E (misled answers) topic payload config = MqttClient.publish topic payload config := by
  unfold MqttClient.publish
  rw [publish_same answers]

omit [MqttProtocolHandler H P E] in
theorem clear_keeps (condition : Prop) [Decidable condition] :
    Keeps LeveledC (onlyIf condition MqttClient.clear_session : ClientM H P E Unit) := by
  unfold onlyIf
  split
  · intro c _ pid message stored
    cases (AList.lookup_empty pid).symm.trans stored
  · exact fun _ leveled => leveled

theorem connect_keeps : Keeps LeveledC (MqttClient.connect : ClientM H P E Unit) := by
  unfold MqttClient.connect
  refine Keeps.bind (fun _ leveled => leveled) fun c => Keeps.bind (Keeps.ofExcept _ _) fun _ => ?_
  refine Keeps.bind (fun _ leveled => leveled) fun _ => Keeps.bind (clear_keeps _) fun _ => ?_
  refine Keeps.bind (Keeps.attempt aside) fun result => ?_
  cases result with
  | error err => exact fun _ leveled => leveled
  | ok action =>
    cases action with
    | ConnectAck session_present return_code =>
      refine either (Keeps.bind (fun _ leveled => leveled) fun _ => Keeps.bind (fun _ leveled => leveled) fun _ => ?_)
        fun _ leveled => leveled
      refine either ?_ fun _ leveled => leveled
      exact Keeps.bind (fun _ leveled => leveled) fun c => Keeps.forM resend_keeps _
    | _ => exact fun _ leveled => leveled

theorem connect_same : Agrees LeveledC (@MqttClient.connect H P E (misled answers)) MqttClient.connect := by
  unfold MqttClient.connect
  refine Agrees.get_bind fun c _ => (Agrees.refl _).bind (Keeps.ofExcept _ _) fun _ => ?_
  refine (Agrees.refl _).bind (fun _ leveled => leveled) fun _ => (Agrees.refl _).bind (clear_keeps _) fun _ => ?_
  refine (Agrees.refl _).bind (Keeps.attempt aside) fun result => ?_
  cases result with
  | error err => exact Agrees.refl _
  | ok action =>
    cases action with
    | ConnectAck session_present return_code =>
      refine Agrees.ite ?_ (Agrees.refl _)
      refine (Agrees.refl _).bind (fun _ leveled => leveled) fun _ => ?_
      refine (Agrees.refl _).bind (fun _ leveled => leveled) fun _ => ?_
      exact Agrees.ite (resend_pending_messages_same answers) (Agrees.refl _)
    | _ => exact Agrees.refl _

theorem reconnect_keeps : Keeps LeveledC (MqttClient.reconnect : ClientM H P E Unit) := by
  unfold MqttClient.reconnect
  refine Keeps.bind (fun _ leveled => leveled) fun c => either (fun _ leveled => leveled) ?_
  refine either (fun _ leveled => leveled) (Keeps.bind (fun _ leveled => leveled) fun _ => ?_)
  exact Keeps.bind aside fun _ => connect_keeps

theorem reconnect_same : Agrees LeveledC (@MqttClient.reconnect H P E (misled answers)) MqttClient.reconnect := by
  unfold MqttClient.reconnect
  refine Agrees.get_bind fun c _ => Agrees.ite (Agrees.refl _) ?_
  refine Agrees.ite (Agrees.refl _) ((Agrees.refl _).bind (fun _ leveled => leveled) fun _ => ?_)
  exact (Agrees.refl _).bind aside fun _ => connect_same answers

theorem ping_keeps : Keeps LeveledC (MqttClient.ping : ClientM H P E Unit) :=
  Keeps.bind (fun _ leveled => leveled) fun _ => either (fun _ leveled => leveled) aside

theorem handle_retries_keeps (current_time : Nat) : Keeps LeveledS (handle_retries current_time : SessionM H P E Unit) := by
  refine Keeps.bind (fun _ leveled => leveled) fun _ => Keeps.bind (Keeps.forM complete_keeps _) fun _ => ?_
  refine Keeps.bind (Keeps.forM (retry_publish_keeps current_time) _) fun _ => ?_
  refine Keeps.bind (fun _ leveled => leveled) fun _ => ?_
  refine Keeps.forM (fun pid => Keeps.bind (fun _ leveled => leveled) fun _ => ?_) _
  exact Keeps.bind (Keeps.ofExcept _ _) fun _ => either asideS fun _ leveled => leveled

theorem poll_connected_same :
    Agrees LeveledC (@MqttClient.poll_connected H P E (misled answers)) MqttClient.poll_connected := by
  unfold MqttClient.poll_connected
  refine (Agrees.refl _).bind aside fun current_time => Agrees.get_bind fun c _ => Agrees.ite (Agrees.refl _) ?_
  have pinged : Keeps LeveledC (onlyIf (c.protocol_engine.should_send_keep_alive current_time)
      (MqttClient.ping : ClientM H P E Unit)) := either ping_keeps fun _ leveled => leveled
  refine (Agrees.refl _).bind pinged fun _ => ?_
  refine Agrees.bind ?_ (fun c leveled => handle_retries_keeps current_time _ leveled) fun _ => Agrees.refl _
  exact Agrees.zoom engineSession (handle_retries_same answers current_time) fun _ leveled => leveled

theorem poll_same : Agrees LeveledC (@MqttClient.poll H P E (misled answers)) MqttClient.poll := by
  unfold MqttClient.poll
  refine Agrees.get_bind fun c _ => Agrees.ite (Agrees.ite ?_ (Agrees.refl _)) (poll_connected_same answers)
  have keeps : Keeps LeveledC (attempt (MqttClient.reconnect : ClientM H P E Unit)) := Keeps.attempt reconnect_keeps
  refine (reconnect_same answers).attempt.bind keeps fun result => ?_
  cases result with
  | ok _ => exact poll_connected_same answers
  | error err => exact Agrees.refl _

end

section
variable [Codec V5.Packet ErrorV5]

/-- What the handler of version 5.0 answers when a PUBLISH is to be built, and the handler after that. -/
abbrev AnswersV5 := TopicName → QoS → Bool → Bytes → Option Pid → Bool → V5PublishConfig → V5Handler →
  Except ErrorV5 V5.Packet × V5Handler

/-- `publish_v5` with some way to build its PUBLISH. -/
def publish_v5_by (create : AnswersV5) (topic : TopicName) (payload : Bytes) (config : PublishConfig)
    (v5_config : V5PublishConfig) : ClientM V5Handler V5.Packet ErrorV5 Unit := MqttClient.whenConnected do
  let c ← get
  if c.inflight_limit_reached then fail .PublishFailed
  else
    let pid ← zoom engineSession (MqttProtocolEngine.publish_pid config.qos)
    let created := create topic config.qos config.retain payload pid false v5_config c.protocol_engine.handler
    zoom engine (modify fun e => { e with handler := created.2 })
    let packet ← ofExcept (fun err => .Protocol (.V5Specific err)) created.1
    zoom engineSession (MqttProtocolEngine.store_pending pid topic config.qos config.retain payload)
    zoom engine (MqttProtocolEngine.send_packet packet)
    modify fun c => { c with state := c.state.record_message_sent }

theorem publish_v5_eq (topic : TopicName) (payload : Bytes) (config : PublishConfig) (v5_config : V5PublishConfig) :
    MqttClient.publish_v5 topic payload config v5_config =
      publish_v5_by V5Handler.create_publish_with_config topic payload config v5_config := rfl

/-- The handler, which answers as it likes when a level and an identifier do not fit. -/
def misled_v5 (answers : AnswersV5) : AnswersV5 := fun topic qos retain payload pid dup config h =>
  if Fits qos pid then V5Handler.create_publish_with_config topic qos retain payload pid dup config h
  else answers topic qos retain payload pid dup config h

theorem publish_v5_same (answers : AnswersV5) (topic : TopicName) (payload : Bytes) (config : PublishConfig)
    (v5_config : V5PublishConfig) :
    publish_v5_by (misled_v5 answers) topic payload config v5_config =
      MqttClient.publish_v5 topic payload config v5_config := by
  rw [publish_v5_eq]
  unfold publish_v5_by
  congr 1
  refine bind_congr fun c => ?_
  congr 1
  refine zoom_publish_pid_bind _ config.qos fun pid fits => ?_
  simp only [misled_v5, if_pos fits]

variable [Codec V3.Packet MqttProtoError]

/-- What an operation runs if its handler is misled. -/
def perform : {v : Version} → Answers v.Handler v.Packet v.Error → AnswersV5 → Op v →
    ClientM v.Handler v.Packet v.Error Reply
  | _, answers, _, .connect => do @MqttClient.connect _ _ _ (misled answers); return .unit
  | _, answers, _, .reconnect => do @MqttClient.reconnect _ _ _ (misled answers); return .unit
  | _, answers, _, .disconnect => do @MqttClient.disconnect _ _ _ (misled answers); return .unit
  | _, answers, _, .publish topic payload config => do
    @MqttClient.publish _ _ _ (misled answers) topic payload config; return .unit
  | _, answers, _, .subscribe topic_filter qos => do
    @MqttClient.subscribe _ _ _ (misled answers) topic_filter qos; return .unit
  | _, answers, _, .subscribe_multiple subscriptions => do
    @MqttClient.subscribe_multiple _ _ _ (misled answers) subscriptions; return .unit
  | _, answers, _, .unsubscribe topic_filter => do
    @MqttClient.unsubscribe _ _ _ (misled answers) topic_filter; return .unit
  | _, answers, _, .unsubscribe_multiple topic_filters => do
    @MqttClient.unsubscribe_multiple _ _ _ (misled answers) topic_filters; return .unit
  | _, answers, _, .ping => do @MqttClient.ping _ _ _ (misled answers); return .unit
  | _, answers, _, .poll => do return .event (← @MqttClient.poll _ _ _ (misled answers))
  | _, _, answers, .publish_v5 topic payload config v5_config => do
    publish_v5_by (misled_v5 answers) topic payload config v5_config; return .unit
  -- The other operations ask the handler for no PUBLISH.
  | _, _, _, .next_message => Op.next_message.perform
  | _, _, _, .subscribe_v5 subscriptions v5_config => (Op.subscribe_v5 subscriptions v5_config).perform
  | _, _, _, .set_v5_config config => (Op.set_v5_config config).perform

variable {v : Version}

/-- The client does the same. -/
theorem perform_same (answers : Answers v.Handler v.Packet v.Error) (configured : AnswersV5) (op : Op v) :
    Agrees LeveledC (perform answers configured op) op.perform := by
  have result : ∀ {α : Type} {m n : ClientM v.Handler v.Packet v.Error α} (f : α → Reply), Agrees LeveledC m n →
      Agrees LeveledC (m >>= fun a => pure (f a)) (n >>= fun a => pure (f a)) := by
    intro α m n f same c leveled
    rw [exec_bind, exec_bind, same c leveled]
  cases op with
  | connect => exact result _ (connect_same answers)
  | reconnect => exact result _ (reconnect_same answers)
  | poll => exact result _ (poll_same answers)
  | publish topic payload config =>
    refine result (fun _ => Reply.unit) ?_
    rw [client_publish_same answers]
    exact Agrees.refl _
  | publish_v5 topic payload config v5_config =>
    refine result (fun _ => Reply.unit) ?_
    rw [publish_v5_same configured]
    exact Agrees.refl _
  | _ => exact Agrees.refl _

/-- Every stored message has a level above 0 and can be built again; and every PUBLISH that the
    handler is asked for has a level and an identifier that fit, and can be built. -/
theorem rebuilt {c : Client v} (reachable : c.Reachable) :
    (∀ pid message, c.session_state.pending_publishes.lookup pid = some message →
      (message.qos = .Level1 ∨ message.qos = .Level2) ∧ ∀ h : v.Handler, ∃ packet, again h (pid, message) = .ok packet) ∧
    (∀ (answers : Answers v.Handler v.Packet v.Error) (configured : AnswersV5) (call : Call v),
      exec (perform answers configured call.op) (c.withWorld call.world) = c.call call) ∧
    (∀ (h : v.Handler) topic qos retain payload pid dup, Fits qos pid →
      ∃ packet, create_publish_packet h topic qos retain payload pid dup = .ok packet) ∧
    ∀ topic qos retain payload pid dup config h, Fits qos pid →
      ∃ packet, (V5Handler.create_publish_with_config topic qos retain payload pid dup config h).1 = .ok packet := by
  have leveled : Leveled c.session_state := leveled_reachable reachable
  refine ⟨fun pid message stored => ?_, fun answers configured call => ?_, ?_, ?_⟩
  · have level : message.qos ≠ .Level0 := leveled pid message stored
    refine ⟨?_, fun h => again_built level h pid⟩
    cases qos : message.qos with
    | Level0 => exact absurd qos level
    | Level1 => exact .inl rfl
    | Level2 => exact .inr rfl
  · exact perform_same answers configured call.op (c.withWorld call.world) leveled
  · intro h topic qos retain payload pid dup fits
    obtain ⟨qp, carried⟩ := fits_carried fits
    exact publish_ok h topic qos retain payload pid dup qp carried
  · intro topic qos retain payload pid dup config h fits
    obtain ⟨qp, carried⟩ := fits_carried fits
    exact Operations.create_publish_with_config_ok topic retain payload dup config h carried

end

/-! ### A message that waits -/

section
local instance : Codec V3.Packet MqttProtoError := Wire.v3Codec
local instance : Codec V5.Packet ErrorV5 := Wire.v5Codec

theorem rebuilt_interrupted : (∀ pid message,
      (Resume.interrupted .Level2 []).session_state.pending_publishes.lookup pid = some message →
        (message.qos = .Level1 ∨ message.qos = .Level2) ∧ ∀ h : V3Handler, ∃ packet, again h (pid, message) = .ok packet) ∧
    ∀ (answers : Answers V3Handler V3.Packet MqttProtoError) (configured : AnswersV5) (call : Call .v3),
      exec (perform answers configured call.op) ((Resume.interrupted .Level2 []).withWorld call.world) =
        (Resume.interrupted .Level2 []).call call := by
  obtain ⟨stored, same, -⟩ := rebuilt (Resume.interrupted_reachable .Level2 [])
  exact ⟨stored, same⟩

end

end Masaka.Rebuilding
