import Masaka.Acts

/-!
Every operation of a client does allowed acts only, whatever its outcome and
wherever it is dropped.
-/
namespace Masaka.Operations
open Effect Tables Runs MqttProtocolHandler LawfulHandler MqttProtocolEngine Sending
open MqttClient (engine engineSession)

variable {H P E α β : Type}

theorem zoom_first (m : EngineM H P E α) :
    (zoom engineSession (zoom first m) : ClientM H P E α) = zoom engine m := rfl

/-- The state after the next identifier was handed out. -/
def handed_out (c : MqttClient H P E) : MqttClient H P E := { c with
  protocol_engine := record (.handed_out c.session_state.next_pid) c.protocol_engine
  session_state := (SessionState.next_pid c.session_state).2 }

/-- The message that a publish stores. -/
def stored (c : MqttClient H P E) (topic : TopicName) (qos : QoS) (retain : Bool) (payload : Bytes) : InflightMessage where
  topic := topic
  qos := qos
  retain := retain
  payload := payload
  retry_count := 0
  timestamp := c.protocol_engine.world.now 0

/-- The state after a message was stored under the next identifier. -/
def accepted (c : MqttClient H P E) (topic : TopicName) (qos : QoS) (retain : Bool) (payload : Bytes) :
    MqttClient H P E := { c with
  protocol_engine := { c.protocol_engine with
    world := { c.protocol_engine.world with now := fun n => c.protocol_engine.world.now (n + 1) }
    log := c.protocol_engine.log ++ [.handed_out c.session_state.next_pid] ++ [.clock (c.protocol_engine.world.now 0)] ++
      [.accepted c.session_state.next_pid] }
  session_state := (SessionState.store_outgoing_publish c.session_state.next_pid (stored c topic qos retain payload)
    (SessionState.next_pid c.session_state).2).2 }

theorem exec_next_pid (c : MqttClient H P E) :
    exec (zoom engineSession next_pid) c = (.ok c.session_state.next_pid, handed_out c) := rfl
theorem exec_publish_pid {qos : QoS} (level : qos ≠ .Level0) (c : MqttClient H P E) :
    exec (zoom engineSession (publish_pid qos)) c = (.ok (some c.session_state.next_pid), handed_out c) := by
  cases qos with
  | Level0 => exact absurd rfl level
  | Level1 | Level2 => rfl

theorem exec_store_pending (topic : TopicName) (qos : QoS) (retain : Bool) (payload : Bytes) (c : MqttClient H P E) :
    exec (zoom engineSession (store_pending (some c.session_state.next_pid) topic qos retain payload)) (handed_out c) =
      (.ok (), accepted c topic qos retain payload) := rfl

theorem exec_trySession (f : InMemorySession → Except MqttError α × InMemorySession) (c : MqttClient H P E) :
    exec (MqttClient.trySession f) c =
      ((f c.session_state).1.mapError .err, { c with session_state := (f c.session_state).2 }) := by
  simp only [MqttClient.trySession, MqttProtocolEngine.trySession, zoom_bind, zoom_ofExcept, exec_bind]
  change exec (Effect.ofExcept id (f c.session_state).1) { c with session_state := (f c.session_state).2 } = _
  cases (f c.session_state).1 <;> rfl

/-- A message of a level above 0 goes with the identifier it is given. -/
theorem publish_pid_level {qos : QoS} (level : qos ≠ .Level0) (pid : Pid) :
    ∃ qp, qos_pid qos (some pid) = .ok qp ∧ qp.pid = some pid := by
  cases qos with
  | Level0 => exact absurd rfl level
  | Level1 => exact ⟨.Level1 pid, rfl, rfl⟩
  | Level2 => exact ⟨.Level2 pid, rfl, rfl⟩

variable [MqttProtocolHandler H P E] [LawfulHandler H P E] {grant : Grant}

/-- Whatever its outcome, the computation does allowed acts. -/
abbrev Acting (grant : Grant) (m : ClientM H P E α) : Prop := Moves (Follows grant) m

/-- The computation does allowed acts where the next identifier is the one it may take. -/
def Requesting (grant : Grant) (m : ClientM H P E α) : Prop :=
  ∀ c, grant.identifier = some c.session_state.next_pid → Follows grant c (exec m c).2

theorem Requesting.get {f : MqttClient H P E → ClientM H P E α} (next : ∀ c, Requesting grant (f c)) :
    Requesting grant (get >>= f) := fun c granted => next c c granted
theorem Requesting.ite {b : Prop} [Decidable b] {m n : ClientM H P E α} (yes : Acting grant m)
    (no : Requesting grant n) : Requesting grant (if b then m else n) := by
  split
  · exact fun c _ => yes c
  · exact no
theorem Requesting.bind {m : ClientM H P E α} {f : α → ClientM H P E β} (first : Requesting grant m)
    (next : ∀ a, Acting grant (f a)) : Requesting grant (m >>= f) := fun c granted =>
  Follows.seq (K := fun _ _ => True) (fun _ => ⟨first c granted, fun _ _ => trivial⟩) fun a c' _ _ => next a c'

/-! ### Elementary computations -/

/-- What the engine does aside: timers and the decoding state. -/
theorem engine_aside {f : MqttProtocolEngine H P E → MqttProtocolEngine H P E}
    (connected : ∀ e, (f e).connected = e.connected) (world : ∀ e, (f e).world = e.world) (log : ∀ e, (f e).log = e.log)
    (queue : ∀ e, (f e).write_queue = e.write_queue) :
    Acting grant (zoom engine (modify f) : ClientM H P E PUnit) := fun c => by
  refine Follows.aside ?_ (log _) (queue _) rfl
  change (_, (f c.protocol_engine).connected, _, (f c.protocol_engine).world.write) = _
  rw [connected, world]
  rfl

/-- What the client does aside: statistics, the receive queue and the reconnect counters. -/
theorem client_aside {f : MqttClient H P E → MqttClient H P E}
    (engine : ∀ c, (f c).protocol_engine = c.protocol_engine) (session : ∀ c, (f c).session_state = c.session_state)
    (state : ∀ c, (f c).state.connection_state = c.state.connection_state) (config : ∀ c, (f c).config = c.config) :
    Acting grant (modify f : ClientM H P E PUnit) := fun c => by
  change Follows grant c (f c)
  refine Follows.aside ?_ (by rw [engine]) (by rw [engine]) (config c)
  simp only [View.rest, MqttClient.view, engine, session, state]

theorem clock : Acting grant (zoom engine current_timestamp_ms : ClientM H P E Nat) := fun _ =>
  Follows.act (.note (.clock _)) trivial rfl rfl rfl rfl

theorem waiting (ms : UInt32) : Acting grant (zoom engine (delay ms) : ClientM H P E Unit) := fun _ =>
  Follows.act (.note (.delay ms)) trivial rfl rfl rfl rfl

theorem reading : Acting grant (zoom engine (read_from_transport (H := H))) := fun c => by
  change Follows grant c (engine.set (exec read_from_transport c.protocol_engine).2 c)
  simp only [read_from_transport, exec_ofExec]
  cases answer : c.protocol_engine.world.read 0 with
  | packet packet => exact Follows.act (.note (.received packet)) trivial rfl rfl rfl rfl
  | failed consumed err => exact Follows.aside rfl rfl rfl rfl
  | waiting consumed => exact Follows.aside rfl rfl rfl rfl

/-- A packet that may go out at any time. -/
theorem sending {packet : P} (permitted : ∀ v, Permitted H grant.plain v packet) :
    Acting grant (zoom engine (send_packet (H := H) packet)) := fun _ idle =>
  Follows.sent (send_packet_spec packet idle) (permitted _) idle

/-- A packet that may go out if it could be created. -/
theorem sending_created {create : Except E P} {c : MqttClient H P E}
    (permitted : ∀ packet, create = .ok packet → Permitted H grant.plain c.view packet) :
    Follows grant c (exec (ofExcept (into H) create >>= fun packet => zoom engine (send_packet packet)) c).2 :=
  Follows.ofExcept fun packet created idle => Follows.sent (send_packet_spec packet idle) (permitted packet created) idle

/-- A change of the session that is one act. -/
theorem session_act (act : Act P) {f : InMemorySession → α × InMemorySession}
    (allowed : ∀ (config : ClientConfig) v, act.Allowed H config grant v) (same : ∀ s, (f s).2 = act.session s)
    (alone : ∀ v, (Act.after v act).rest = { v with session := act.session v.session }.rest)
    (quiet : act.events = []) :
    Acting grant (zoom engineSession (onSession f) : ClientM H P E α) := fun c => by
  change Follows grant c { c with session_state := (f c.session_state).2 }
  refine Follows.act act (allowed _ _) ?_ (by simp [quiet]) rfl rfl
  rw [alone, same]
  rfl

theorem trySession_act (act : Act P) {f : InMemorySession → Except MqttError α × InMemorySession}
    (allowed : ∀ (config : ClientConfig) v, act.Allowed H config grant v) (same : ∀ s, (f s).2 = act.session s)
    (alone : ∀ v, (Act.after v act).rest = { v with session := act.session v.session }.rest)
    (quiet : act.events = []) :
    Acting grant (MqttClient.trySession f : ClientM H P E α) := by
  simp only [MqttClient.trySession, MqttProtocolEngine.trySession, zoom_bind, zoom_ofExcept]
  exact (session_act act allowed same alone quiet).bind fun _ => Moves.ofExcept _ _

theorem completing (pid : Pid) : Acting grant
    (zoom engineSession (onSession (SessionState.complete_outgoing_publish pid)) : ClientM H P E _) :=
  session_act (.complete pid) (fun _ _ => trivial) (fun _ => rfl) (fun _ => rfl) rfl
theorem finishing (pid : Pid) : Acting grant
    (zoom engineSession (onSession (SessionState.complete_outgoing_pubrel pid)) : ClientM H P E _) :=
  session_act (.finish pid) (fun _ _ => trivial) (fun _ => rfl) (fun _ => rfl) rfl

/-- Leaving the connected state, or entering another one. -/
theorem entering {new : ConnectionState} (other : new ≠ .Connected) :
    Acting grant (MqttClient.set_connection_state new : ClientM H P E Unit) := fun _ =>
  Follows.act (.state new) (fun same => absurd same other) rfl (by simp [Act.events]; rfl) rfl rfl

theorem receive_packet_unlogged : Acting grant (zoom engine (receive_packet_unlogged (H := H))) := by
  simp only [MqttProtocolEngine.receive_packet_unlogged, zoom_bind, zoom_get, zoom_ofExcept, bind_assoc, pure_bind]
  refine reading.bind fun packet => clock.bind fun time => ?_
  refine Moves.bind ?_ fun _ => Moves.get.bind fun c => Moves.ofExcept _ _
  exact engine_aside (fun _ => rfl) (fun _ => rfl) (fun _ => rfl) fun _ => rfl

/-! ### Requests -/

/-- A PUBLISH of level 0, which is never stored. -/
theorem permitted_unstored {v : View P} {packet : P} {publish : V3.Publish}
    (shaped : shape (H := H) packet = .publish publish) (level : publish.qos_pid.pid = none) :
    Permitted H grant.plain v packet := by
  simp only [Permitted, shaped]
  intro pid carried
  cases level.symm.trans carried

/-- A PUBLISH that is sent for the first time. -/
theorem permitted_first {v : View P} {packet : P} {publish : V3.Publish} {message : InflightMessage} {pid : Pid}
    (shaped : shape (H := H) packet = .publish publish) (first : publish.dup = false)
    (carries : publish.qos_pid.pid = some pid) (stored : v.session.pending_publishes.lookup pid = some message)
    (last : v.log.getLast? = some (.accepted pid))
    (repeats : grant.plain = true → ∀ again, Retransmits H message pid again → Repeats (H := H) packet again) :
    Permitted H grant.plain v packet := by
  simp only [Permitted, shaped]
  intro pid' carries'
  cases carries.symm.trans carries'
  refine ⟨message, stored, fun dup => ?_, fun _ => ⟨last, repeats⟩⟩
  cases first.symm.trans dup

theorem handed_out_follows (c : MqttClient H P E) (granted : grant.identifier = some c.session_state.next_pid) :
    Follows grant c (handed_out c) :=
  Follows.act (.hand_out c.session_state.next_pid) ⟨granted, rfl⟩ rfl rfl rfl rfl

theorem accepted_follows (c : MqttClient H P E) (granted : grant.identifier = some c.session_state.next_pid)
    (topic : TopicName) {qos : QoS} (level : qos ≠ .Level0) (retain : Bool) (payload : Bytes) :
    Follows grant c (accepted c topic qos retain payload) := by
  refine Follows.act (.accept c.session_state.next_pid (stored c topic qos retain payload)) ⟨granted, rfl, level⟩ rfl
    ?_ rfl rfl
  simp [accepted, Act.events, stored]

/-- The rest of a publish, once the message is stored. -/
theorem sent_accepted {packet : P} {c : MqttClient H P E} (permitted : Permitted H grant.plain c.view packet)
    {next : Unit → ClientM H P E α} (rest : ∀ a, Acting grant (next a)) :
    Follows grant c (exec (zoom engine (send_packet packet) >>= next) c).2 := by
  refine Follows.seq (K := fun _ _ => True) (fun idle => ?_) fun a c' _ _ => rest a c'
  rw [wp_zoom]
  exact wp_mono (send_packet_spec packet idle) fun r e sent => ⟨Follows.sent sent permitted, fun _ _ => trivial⟩

theorem publish (topic : TopicName) (qos : QoS) (retain : Bool) (payload : Bytes) :
    Requesting grant (zoom engineSession (publish (H := H) topic qos retain payload)) := by
  simp only [MqttProtocolEngine.publish, zoom_bind, zoom_get, zoom_ite, zoom_fail, zoom_ofExcept, zoom_first, zoom_pure,
    bind_assoc, pure_bind]
  refine Requesting.get fun c => Requesting.ite (Moves.fail _) ?_
  generalize (engineSession.get c).1.handler = handler
  intro c granted
  by_cases level : qos = .Level0
  · subst level
    simp only [publish_pid, zoom_pure, pure_bind, store_pending]
    refine Moves.bind_ofExcept (R := Follows grant) (fun packet created => fun c => ?_) c
    obtain ⟨qp, carried, shaped⟩ := LawfulHandler.publish _ _ _ _ _ _ _ _ created
    exact sent_accepted (permitted_unstored shaped (qos_pid_level carried).2) fun _ => Moves.pure _
  · obtain ⟨qp, carried, pid⟩ := publish_pid_level level c.session_state.next_pid
    obtain ⟨packet, created⟩ := publish_ok handler topic qos retain payload _ false qp carried
    obtain ⟨qp', carried', shaped⟩ := LawfulHandler.publish _ _ _ _ _ _ _ _ created
    cases carried.symm.trans carried'
    rw [exec_bind, exec_publish_pid level]
    simp only [created, ofExcept_ok, pure_bind]
    rw [exec_bind, exec_store_pending]
    refine (accepted_follows c granted topic level retain payload).trans ?_
    refine sent_accepted (c := accepted c topic qos retain payload) ?_ fun _ => Moves.pure _
    refine permitted_first shaped rfl pid (AList.lookup_insert _) (List.getLast?_concat ..) fun _ again => ?_
    rintro ⟨h, created'⟩
    exact publish_repeats _ _ _ _ _ _ _ _ _ created created'

theorem permitted_plain {packet : P} {shaped : Shape} (same : shape (H := H) packet = shaped)
    (plain : shaped.Plain) (v : View P) : Permitted H grant.plain v packet := by
  simp only [Permitted, same]
  cases shaped with
  | connect | publish | pubrel => exact plain.elim
  | _ => trivial

/-- The identifier that was handed out last is the one that the call may use. -/
def Using (grant : Grant) (pid : Pid) (c : MqttClient H P E) : Prop :=
  grant.identifier = some pid ∧ (handed c.view.log).getLast? = some pid ∧ c.session_state.next_pid = pid.next

/-- A request that takes an identifier and is sent, with what is done under the identifier. -/
theorem request (create : Pid → Except E P) {rest : Pid → ClientM H P E α}
    (plain : ∀ pid packet, create pid = .ok packet → ∀ v, Permitted H grant.plain v packet)
    (next : ∀ pid c, Using grant pid c → Follows grant c (exec (rest pid) c).2) :
    Requesting grant (zoom engineSession next_pid >>= fun pid =>
      ofExcept (into H) (create pid) >>= fun packet => zoom engine (send_packet packet) >>= fun _ => rest pid) := by
  intro c granted
  rw [exec_bind, exec_next_pid]
  refine (handed_out_follows c granted).trans ?_
  simp only []
  cases created : create c.session_state.next_pid with
  | error err => exact Follows.refl _
  | ok packet =>
    simp only [ofExcept_ok, pure_bind]
    refine Follows.seq (K := fun _ c' => handed c'.view.log = handed (handed_out c).view.log ∧
      c'.session_state = (handed_out c).session_state) (fun idle => ?_) fun _ c' _ same => next _ c' ⟨granted, ?_, ?_⟩
    rotate_left
    · rw [same.1]; simp [MqttClient.view, handed_out, handed, record]
    · rw [same.2]; rfl
    rw [wp_zoom]
    refine wp_mono (send_packet_spec packet idle) fun r e sent => ⟨?_, fun _ _ => ⟨sent_handed sent, rfl⟩⟩
    exact Follows.sent sent (plain _ _ created _)

/-- A record under the identifier of the call. -/
theorem adding (pid : Pid) {topic_filter : TopicFilter} (member : topic_filter ∈ grant.addable) (qos : QoS)
    (c : MqttClient H P E) (last : Using grant pid c) :
    Follows grant c (exec (MqttClient.trySession (SessionState.add_subscription pid topic_filter qos)) c).2 := by
  rw [exec_trySession]
  exact Follows.act (.add pid topic_filter qos) ⟨last.1, member, last.2⟩ rfl (by simp [Act.events]) rfl rfl

theorem add_subscriptions (pid : Pid) {subscriptions : List (TopicFilter × QoS)}
    (members : ∀ entry ∈ subscriptions, entry.1 ∈ grant.addable) (c : MqttClient H P E) (last : Using grant pid c) :
    Follows grant c (exec (MqttClient.add_subscriptions pid subscriptions) c).2 := by
  refine Follows.forM (I := Using grant pid) (fun entry member c _ last => ⟨?_, ?_⟩) last
  · exact adding pid (members entry member) entry.2 c last
  rw [exec_trySession]
  refine ⟨last.1, last.2.1, ?_⟩
  exact (congrArg Prod.fst (SessionState.add_subscription_untouched ..)).trans last.2.2

theorem whenConnected {request : ClientM H P E Unit} (requesting : Requesting grant request) :
    Requesting grant (MqttClient.whenConnected request) :=
  Requesting.get fun _ => Requesting.ite (Moves.fail _) requesting

/-- `publish` of the client. -/
theorem publish_client (topic : TopicName) (payload : Bytes) (config : PublishConfig) :
    Requesting grant (MqttClient.publish (H := H) topic payload config) := by
  refine whenConnected (Requesting.get fun c => Requesting.ite (Moves.fail _) ?_)
  refine (publish topic config.qos config.retain payload).bind fun _ => ?_
  exact client_aside (fun _ => rfl) (fun _ => rfl) (fun _ => rfl) fun _ => rfl

theorem subscribe (subscriptions : List (TopicFilter × QoS)) {rest : Pid → ClientM H P E α}
    (next : ∀ pid c, Using grant pid c → Follows grant c (exec (rest pid) c).2) :
    Requesting grant (zoom engineSession (subscribe (H := H) subscriptions) >>= rest) := by
  simp only [MqttProtocolEngine.subscribe, zoom_bind, zoom_get, zoom_ite, zoom_fail, zoom_ofExcept, zoom_first,
    zoom_pure, bind_assoc, pure_bind]
  refine Requesting.get fun c => ?_
  split
  · exact fun c _ => Follows.refl c
  · simp only [bind_assoc, pure_bind]
    refine request _ (fun pid packet created => permitted_plain (LawfulHandler.subscribe _ _ _ _ created) trivial) next

theorem subscribe_client {topic_filter : TopicFilter} (member : topic_filter ∈ grant.addable) (qos : QoS) :
    Requesting grant (MqttClient.subscribe (H := H) topic_filter qos) :=
  whenConnected (subscribe _ fun pid c last => adding pid member qos c last)

theorem subscribe_multiple {subscriptions : List (TopicFilter × QoS)}
    (members : ∀ entry ∈ subscriptions, entry.1 ∈ grant.addable) :
    Requesting grant (MqttClient.subscribe_multiple (H := H) subscriptions) := by
  refine whenConnected (Requesting.ite (Moves.pure _) ?_)
  exact subscribe _ fun pid c last => add_subscriptions pid members c last

theorem unsubscribe (topics : List TopicFilter) :
    Requesting grant (zoom engineSession (unsubscribe (H := H) topics)) := by
  simp only [MqttProtocolEngine.unsubscribe, zoom_bind, zoom_get, zoom_ite, zoom_fail, zoom_ofExcept, zoom_first,
    zoom_pure, bind_assoc, pure_bind]
  refine Requesting.get fun c => Requesting.ite (Moves.fail _) ?_
  refine request _ (fun pid packet created => ?_) fun _ c _ => Follows.refl c
  exact permitted_plain (LawfulHandler.unsubscribe _ _ _ _ created) trivial

theorem remove_local_subscription {topic_filter : TopicFilter} (member : topic_filter ∈ grant.removable) :
    Acting grant (MqttClient.remove_local_subscription topic_filter : ClientM H P E Unit) := fun c =>
  Follows.act (.remove c.protocol_engine.world.order topic_filter) member rfl (by simp [Act.events]; rfl) rfl rfl

theorem unsubscribe_client {topic_filter : TopicFilter} (member : topic_filter ∈ grant.removable) :
    Requesting grant (MqttClient.unsubscribe (H := H) topic_filter) :=
  whenConnected ((unsubscribe _).bind fun _ => remove_local_subscription member)

theorem unsubscribe_multiple {topic_filters : List TopicFilter} (members : ∀ f ∈ topic_filters, f ∈ grant.removable) :
    Requesting grant (MqttClient.unsubscribe_multiple (H := H) topic_filters) := by
  refine whenConnected (Requesting.ite (Moves.pure _) ((unsubscribe _).bind fun _ => ?_))
  intro c
  refine Follows.forM (I := fun _ => True) (fun f member c _ _ => ⟨?_, trivial⟩) trivial
  exact remove_local_subscription (members f member) c

theorem ping : Acting grant (MqttClient.ping (H := H)) := by
  refine Moves.get.bind fun c => Moves.ite (fun _ => Moves.fail _) fun _ => ?_
  simp only [MqttProtocolEngine.ping, zoom_bind, zoom_get, zoom_ite, zoom_fail, bind_assoc, pure_bind]
  refine Moves.get.bind fun c => Moves.ite (fun _ => Moves.fail _) fun _ => sending ?_
  exact permitted_plain (LawfulHandler.pingreq _) trivial

/-! ### Acknowledgments and retransmission -/

/-- A reply that may go out at any time. -/
theorem reply {create : H → Pid → Except E P} {shaped : Pid → Shape}
    (lawful : ∀ h pid, ∃ packet, create h pid = .ok packet ∧ shape (H := H) packet = shaped pid)
    (plain : ∀ pid, (shaped pid).Plain) (pid : Pid) :
    Acting grant (zoom engineSession (do
      let (e, _) ← get
      let packet ← ofExcept (into H) (create e.handler pid)
      zoom first (send_packet packet))) := by
  simp only [zoom_bind, zoom_get, zoom_ofExcept, zoom_first, bind_assoc, pure_bind]
  refine Moves.get.bind fun c => ?_
  obtain ⟨packet, created, shape⟩ := lawful (engineSession.get c).1.handler pid
  simp only [created, ofExcept_ok, pure_bind]
  exact sending (permitted_plain shape (plain pid))

/-- The answer to a PUBREC of a pending message: either the PUBREL was sent and
    stored, or the message is no longer tracked. -/
theorem releasing (pid : Pid) (c : MqttClient H P E) (pending : pid ∈ c.session_state.pending_publishes) {packet : P}
    (shaped : shape (H := H) packet = .pubrel pid) :
    wp (zoom engine (send_packet packet) >>= fun _ =>
      zoom engineSession (trySession (SessionState.store_outgoing_pubrel pid)))
      { c with session_state := (SessionState.complete_outgoing_publish pid c.session_state).2 }
      fun _ c' => Follows grant c c' := by
  have completed : Follows grant c
      { c with session_state := (SessionState.complete_outgoing_publish pid c.session_state).2 } :=
    Follows.act (.complete pid) trivial rfl (by simp [Act.events]) rfl rfl
  have gone : pid ∉ (SessionState.complete_outgoing_publish pid c.session_state).2.pending_publishes := by
    simp [SessionState.complete_outgoing_publish, AList.mem_erase]
  by_cases idle : c.Idle
  · rw [wp_bind, wp_zoom]
    refine wp_mono (send_packet_spec packet idle) fun r e sent => ?_
    cases r with
    | error halt =>
      refine completed.trans (Follows.sent sent ?_)
      simp only [Permitted, shaped]
      exact .inl gone
    | ok _ =>
      cases sent with
      | encoded encoded transmission =>
        intro _
        exact ⟨rfl, rfl, [.release pid _ _ _], ⟨⟨⟨_, transmission⟩, pending, shaped⟩, trivial⟩,
          rfl⟩
  · exact fun is_idle => absurd is_idle idle

theorem acknowledge (action : PacketAction) : Acting grant (zoom engineSession (acknowledge (H := H) action)) := by
  cases action with
  | PublishAck pid =>
    simp only [MqttProtocolEngine.acknowledge, zoom_bind, zoom_pure]
    exact (completing pid).bind fun _ => Moves.pure _
  | PublishComplete pid =>
    simp only [MqttProtocolEngine.acknowledge, zoom_bind, zoom_pure]
    exact (completing pid).bind fun _ => (finishing pid).bind fun _ => Moves.pure _
  | PublishRec pid =>
    intro c
    simp only [MqttProtocolEngine.acknowledge, zoom_bind]
    have done : exec (zoom engineSession (onSession (SessionState.complete_outgoing_publish pid))) c =
      (.ok (c.session_state.pending_publishes.lookup pid),
        { c with session_state := (SessionState.complete_outgoing_publish pid c.session_state).2 }) := rfl
    rw [exec_bind, done]
    cases stored : c.session_state.pending_publishes.lookup pid with
    | none => exact Follows.act (.complete pid) trivial rfl (by simp [Act.events]; rfl) rfl rfl
    | some message =>
      obtain ⟨packet, created, shaped⟩ := LawfulHandler.pubrel c.protocol_engine.handler pid
      simp only [zoom_bind, zoom_get, zoom_ofExcept, zoom_first, bind_assoc, pure_bind]
      rw [exec_bind, exec_get]
      change Follows grant c (exec (Effect.ofExcept _ (create_pubrel_packet c.protocol_engine.handler pid) >>= _) _).2
      rw [created]
      simp only [ofExcept_ok, pure_bind]
      exact releasing pid c (mem_iff_lookup.mpr ⟨message, stored⟩) shaped
  | PublishRelease pid => exact reply LawfulHandler.pubcomp (fun _ => trivial) pid
  | PublishReceived topic qos retain payload pid =>
    cases pid with
    | none => cases qos <;> exact Moves.pure _
    | some pid =>
      cases qos with
      | Level0 => exact Moves.pure _
      | Level1 => exact reply LawfulHandler.puback (fun _ => trivial) pid
      | Level2 => exact reply LawfulHandler.pubrec (fun _ => trivial) pid
  | ConnectAck _ _ | SubscribeAck _ _ | UnsubscribeAck _ | PingResponse | None => exact Moves.pure _

theorem receive_packet : Acting grant (zoom engineSession (receive_packet (H := H))) := by
  simp only [MqttProtocolEngine.receive_packet, zoom_bind, zoom_first, zoom_pure]
  exact receive_packet_unlogged.bind fun action => (acknowledge action).bind fun _ => Moves.pure _

theorem retry_publish (current_time : Nat) (pid : Pid) :
    Acting grant (zoom engineSession (retry_publish (H := H) current_time pid)) := by
  intro c
  simp only [MqttProtocolEngine.retry_publish, zoom_bind, zoom_get, bind_assoc, pure_bind]
  rw [exec_bind, exec_get]
  simp only [SessionState.get_outgoing_publish_mut, MqttClient.engineSession_get]
  cases stored : c.session_state.pending_publishes.lookup pid with
  | none => exact Follows.refl c
  | some message =>
    simp only [Option.map_some, zoom_bind, zoom_ofExcept, zoom_first]
    -- The count and the time are written before the packet is made.
    have counted : Follows grant c { c with session_state := (SessionState.store_outgoing_publish pid
        { message with retry_count := message.retry_count + 1, timestamp := current_time } c.session_state).2 } :=
      Follows.act (.retry pid _) ⟨message, stored, by exact rfl⟩ rfl (by simp [Act.events]) rfl rfl
    rw [exec_bind]
    refine counted.trans (sending_created fun packet created => ?_)
    obtain ⟨qp, carried, shaped⟩ := LawfulHandler.publish _ _ _ _ _ _ _ _ created
    simp only [Permitted, shaped]
    intro pid' same
    cases (qos_pid_level carried).2.symm.trans same
    exact ⟨_, AList.lookup_insert _, fun _ => ⟨_, created⟩, fun first => by cases first⟩

/-- Sending a PUBREL that is stored. -/
theorem retry_pubrel (current_time : Nat) (pid : Pid) (c : MqttClient H P E)
    (stored : pid ∈ c.session_state.pending_pubrels) :
    Follows grant c (exec (zoom engineSession (retry_pubrel (H := H) current_time pid)) c).2 ∧
      (exec (zoom engineSession (retry_pubrel (H := H) current_time pid)) c).2.session_state = c.session_state := by
  simp only [MqttProtocolEngine.retry_pubrel, zoom_bind, zoom_get, bind_assoc, pure_bind, zoom_ofExcept]
  obtain ⟨packet, created, shaped⟩ := LawfulHandler.pubrel (engineSession.get c).1.handler pid
  rw [exec_bind, exec_get]
  simp only [created, ofExcept_ok, pure_bind]
  split
  · refine ⟨fun idle => Follows.sent (send_packet_spec packet idle) ?_ idle, rfl⟩
    simp only [Permitted, shaped]
    exact .inr stored
  · exact ⟨Follows.refl c, rfl⟩

theorem handle_retries (current_time : Nat) :
    Acting grant (zoom engineSession (handle_retries (H := H) current_time)) := by
  simp only [MqttProtocolEngine.handle_retries, zoom_bind, zoom_get, bind_assoc, pure_bind, zoom_forM]
  refine Moves.get.bind fun c => (Moves.forM (fun pid => (completing pid).bind fun _ => Moves.pure _) _).bind fun _ => ?_
  refine (Moves.forM (retry_publish current_time) _).bind fun _ => fun c => ?_
  rw [exec_bind, exec_get]
  -- Sending the PUBRELs leaves the session as it was when they were collected.
  refine Follows.forM (I := fun c' => c'.session_state = c.session_state) (fun pid member c' _ same => ?_) rfl
  have stored : pid ∈ c'.session_state.pending_pubrels := by
    obtain ⟨⟨_, _⟩, found, rfl⟩ := List.mem_map.mp (List.mem_of_mem_take member)
    rw [same]
    exact mem_iff_lookup.mpr ⟨_, mem_iter.mp found⟩
  have sent : Follows grant c' _ ∧ _ := retry_pubrel current_time pid c' stored
  exact ⟨sent.1, sent.2.trans same⟩

/-! ### Connecting -/

theorem resend_pending_messages : Acting grant (MqttClient.resend_pending_messages (H := H)) := by
  intro c
  rw [MqttClient.resend_pending_messages, exec_bind, exec_get]
  -- Sending leaves the session as it was when its messages were collected.
  refine Follows.forM (I := fun c' => c'.session_state = c.session_state) (fun entry member c' _ same => ?_) rfl
  rw [MqttClient.resend, exec_bind, exec_get]
  refine ⟨sending_created fun packet created => ?_, ?_⟩
  · obtain ⟨qp, carried, shaped⟩ := LawfulHandler.publish _ _ _ _ _ _ _ _ created
    simp only [Permitted, shaped]
    intro pid carries
    cases (qos_pid_level carried).2.symm.trans carries
    rw [show c'.view.session = c.session_state from same]
    exact ⟨entry.2, mem_iter.mp member, fun _ => ⟨_, created⟩, fun first => by cases first⟩
  · simp only []
    cases create_publish_packet c'.protocol_engine.handler entry.2.topic entry.2.qos entry.2.retain entry.2.payload
      (some entry.1) true with
    | error err => exact same
    | ok packet => exact same

omit [LawfulHandler H P E] in
/-- A CONNECT that was accepted has set the engine's flag. -/
theorem connect_with_will_connected (id : String) (user : Option String) (pass : Option Bytes) (alive : UInt16)
    (clean : Bool) (topic : Option TopicName) (message : Option Bytes) (qos : Option QoS) (retain : Bool) :
    Ensures (fun _ (e : MqttProtocolEngine H P E) => e.connected = true)
      (connect_with_will id user pass alive clean topic message qos retain) := by
  refine Ensures.bind fun e => Ensures.ite (Ensures.fail _) (Ensures.bind fun _ => Ensures.bind fun packet => ?_)
  refine Ensures.bind fun _ => Ensures.bind fun action => ?_
  cases action with
  | ConnectAck session_present return_code =>
    refine Ensures.ite (fun e action returned => ?_) (Ensures.fail _)
    rw [exec_bind] at returned ⊢
    cases returned
    rfl
  | _ => exact Ensures.fail _

/-- The CONNECT of a client whose session is empty if it has to be. -/
theorem connect_with_will (id : String) (user : Option String) (pass : Option Bytes) (alive : UInt16) (clean : Bool)
    (topic : Option TopicName) (message : Option Bytes) (qos : Option QoS) (retain : Bool) (c : MqttClient H P E)
    (ready : clean = true → c.session_state.pending_publishes = ∅ ∧ c.session_state.pending_pubrels = ∅) :
    Follows grant c
      (exec (zoom engine (connect_with_will id user pass alive clean topic message qos retain)) c).2 := by
  simp only [MqttProtocolEngine.connect_with_will, zoom_bind, zoom_get, zoom_ite, zoom_fail, zoom_ofExcept, bind_assoc,
    pure_bind]
  rw [exec_bind, exec_get]
  simp only []
  split
  · exact Follows.refl c
  refine Follows.seq (K := fun _ c' => c'.session_state = c.session_state) (fun _ => ⟨?_, fun _ _ => rfl⟩)
    fun _ c' _ same => ?_
  · exact engine_aside (fun _ => rfl) (fun _ => rfl) (fun _ => rfl) (fun _ => rfl) c
  refine Follows.ofExcept fun packet created => ?_
  have shaped : shape (H := H) packet = .connect clean := by
    split at created
    · exact LawfulHandler.connect_with_will _ _ _ _ _ _ _ _ _ _ _ created
    · exact LawfulHandler.connect _ _ _ _ _ _ _ created
  refine Follows.seq (K := fun _ _ => True) (fun idle => ⟨?_, fun _ _ => trivial⟩) fun _ c' _ _ => ?_
  · refine Follows.sent (send_packet_spec packet idle) ?_
    simp only [Permitted, shaped]
    rw [show c'.view.session = c.session_state from same]
    exact ready
  refine receive_packet_unlogged.bind (fun action => ?_) c'
  cases action with
  | ConnectAck session_present return_code =>
    simp only [zoom_ite, zoom_bind, zoom_pure, zoom_fail]
    refine Moves.ite (fun _ => ?_) fun _ => Moves.fail _
    refine Moves.bind (fun c => ?_) fun _ => Moves.pure _
    exact Follows.act (.link true) (fun lost => by cases lost) rfl (by simp [Act.events]; rfl) rfl rfl
  | _ => exact Moves.fail _

/-- The last part of a connect, once the CONNECT was accepted. -/
theorem connected (session_present : Bool) (clean_session : Bool) (c : MqttClient H P E)
    (link : c.protocol_engine.connected = true) (valid : c.config.validate = .ok ()) :
    Follows grant c (exec (do
      MqttClient.set_connection_state .Connected
      MqttClient.reset_reconnect_state
      onlyIf (session_present && !clean_session) (MqttClient.resend_pending_messages (H := H))) c).2 := by
  refine Follows.seq (K := fun _ _ => True) (fun _ => ⟨?_, fun _ _ => trivial⟩) fun _ c' _ _ => ?_
  · exact Follows.act (.state .Connected) (fun _ => ⟨link, valid⟩) rfl (by simp [Act.events]; rfl) rfl rfl
  refine Moves.bind (R := Follows grant) ?_ (fun _ => ?_) c'
  · exact client_aside (fun _ => rfl) (fun _ => rfl) (fun _ => rfl) fun _ => rfl
  · exact Moves.onlyIf fun _ => resend_pending_messages

theorem connect : Acting grant (MqttClient.connect (H := H)) := by
  intro c
  rw [MqttClient.connect, exec_bind, exec_get]
  refine Follows.ofExcept fun _ valid => ?_
  -- The configuration stays, and after a clean start nothing is pending.
  refine Follows.seq (K := fun _ c' => c'.config = c.config) (fun _ => ⟨entering (by decide) c, fun _ _ => rfl⟩)
    fun _ c' _ same => ?_
  refine Follows.seq (K := fun _ c'' => c''.config = c.config ∧ (c.config.clean_session = true →
    c''.session_state.pending_publishes = ∅ ∧ c''.session_state.pending_pubrels = ∅)) (fun _ => ?_)
    fun _ c'' _ known => ?_
  · by_cases clean : c.config.clean_session
    · simp only [onlyIf, clean, if_true, wp]
      refine ⟨Follows.act .clear (by rw [same]; exact clean) rfl rfl rfl rfl, fun _ _ => ⟨same, fun _ => ⟨rfl, rfl⟩⟩⟩
    · simp only [onlyIf, clean]
      exact ⟨Follows.refl _, fun _ _ => ⟨same, fun yes => by cases yes⟩⟩
  have refused : ∀ err, Acting grant
      (do MqttClient.set_connection_state .Error; fail err : ClientM H P E Unit) := fun err =>
    (entering (by decide)).bind fun _ => Moves.fail err
  refine Follows.seq (K := fun result c' => c'.config = c.config ∧
    ∀ action, result = .ok action → c'.protocol_engine.connected = true) (fun _ => ?_) fun result c' _ known' => ?_
  · refine ⟨?_, fun result returned => ?_⟩
    · rw [exec_attempt_state]
      exact connect_with_will _ _ _ _ _ _ _ _ _ c'' known.2
    · refine ⟨?_, fun action accepted => ?_⟩
      · rw [exec_attempt_state]
        exact known.1
      · subst accepted
        rw [exec_attempt_state]
        exact connect_with_will_connected _ _ _ _ _ _ _ _ _ _ _ (exec_attempt_ok (m := zoom engine _) returned)
  cases result with
  | error err => exact refused err c'
  | ok action =>
    cases action with
    | ConnectAck session_present return_code =>
      simp only []
      split
      · exact connected session_present c.config.clean_session c' (known'.2 _ rfl) (by rw [known'.1]; exact valid)
      · exact refused _ c'
    | _ => exact refused _ c'

theorem reconnect : Acting grant (MqttClient.reconnect (H := H)) := by
  refine Moves.get.bind fun c => Moves.ite (fun _ => Moves.fail _) fun _ => Moves.ite (fun _ => Moves.fail _) fun _ => ?_
  refine Moves.bind ?_ fun _ => (waiting _).bind fun _ => connect
  exact client_aside (fun _ => rfl) (fun _ => rfl) (fun _ => rfl) fun _ => rfl

/-- The engine's `disconnect`, in a client that has left the connected state. -/
theorem disconnect_engine (c : MqttClient H P E) (left : c.state.connection_state ≠ .Connected) :
    Follows grant c (exec (zoom engine (disconnect (H := H))) c).2 := by
  simp only [MqttProtocolEngine.disconnect, zoom_bind, zoom_get, zoom_ite, zoom_pure, bind_assoc, pure_bind]
  rw [exec_bind, exec_get]
  simp only []
  split
  · exact Follows.refl c
  refine Follows.seq (K := fun _ c' => c'.state = c.state) (fun _ => ⟨?_, fun _ _ => rfl⟩) fun _ c' _ same => ?_
  · exact sending (permitted_plain (LawfulHandler.disconnect _) trivial) c
  refine Follows.seq (K := fun _ _ => True) (fun _ => ⟨?_, fun _ _ => trivial⟩) fun _ c'' _ _ => ?_
  · refine Follows.act (.link false) (fun _ => ?_) rfl (by simp [Act.events]; rfl) rfl rfl
    change c'.state.connection_state ≠ .Connected
    rw [same]
    exact left
  · exact Follows.act (.note (.close _)) trivial rfl rfl rfl rfl

theorem disconnect : Acting grant (MqttClient.disconnect (H := H)) := by
  refine Moves.get.bind fun c₀ => Moves.ite (fun _ => Moves.pure _) fun _ => fun c => ?_
  refine Follows.seq (K := fun _ c' => c'.state.connection_state = .Disconnecting)
    (fun _ => ⟨entering (by decide) c, fun _ _ => rfl⟩) fun _ c' _ leaving => ?_
  refine Follows.seq (K := fun _ _ => True) (fun _ => ⟨?_, fun _ _ => trivial⟩) fun result c'' _ _ => ?_
  · rw [exec_attempt_state]
    exact disconnect_engine c' (by rw [leaving]; decide)
  · exact Moves.bind (entering (by decide)) (fun _ => Moves.ofExcept _ _) c''

/-! ### Polling -/

theorem handle_packet_action (action : PacketAction) :
    Acting grant (MqttClient.handle_packet_action action : ClientM H P E (Option ClientEvent)) := by
  cases action with
  | PublishReceived topic qos retain payload pid =>
    refine clock.bind fun time => Moves.bind ?_ fun _ => Moves.pure _
    exact client_aside (fun _ => rfl) (fun _ => rfl) (fun _ => rfl) fun _ => rfl
  | SubscribeAck pid codes =>
    refine Moves.bind ?_ fun _ => Moves.pure _
    exact trySession_act (.confirm pid codes) (fun _ _ => trivial) (fun _ => rfl) (fun _ => rfl) rfl
  | _ => exact Moves.pure _

theorem receive : Acting grant (MqttClient.receive (H := H)) := by
  refine receive_packet.attempt.bind fun result => ?_
  cases result with
  | ok action => exact handle_packet_action action
  | error err => exact (entering (by decide)).bind fun _ => Moves.fail _

theorem poll_connected : Acting grant (MqttClient.poll_connected (H := H)) := by
  refine clock.bind fun time => Moves.get.bind fun c => Moves.ite (fun _ => ?_) fun _ => ?_
  · exact (entering (by decide)).bind fun _ => Moves.fail _
  · exact Moves.bind (Moves.onlyIf fun _ => ping) fun _ => (handle_retries _).bind fun _ => receive

theorem poll : Acting grant (MqttClient.poll (H := H)) := by
  refine Moves.get.bind fun c => Moves.ite (fun _ => Moves.ite (fun _ => ?_) fun _ => Moves.ite (fun _ => ?_) fun _ => ?_)
    fun _ => poll_connected
  · refine reconnect.attempt.bind fun result => ?_
    cases result with
    | ok _ => exact poll_connected
    | error _ => exact (entering (by decide)).bind fun _ => Moves.pure _
  · exact (entering (by decide)).bind fun _ => Moves.pure _
  · exact Moves.pure _

/-! ### Version 5.0 -/

theorem create_publish_with_config_shape {topic : TopicName} {qos : QoS} {retain : Bool} {payload : Bytes}
    {pid : Option Pid} {dup : Bool} {config : V5PublishConfig} {h : V5Handler} {packet : V5.Packet}
    (created : (V5Handler.create_publish_with_config topic qos retain payload pid dup config h).1 = .ok packet) :
    ∃ qp, qos_pid qos pid = .ok qp ∧ packet.shape = .publish ⟨dup, qp, retain, topic, payload⟩ := by
  unfold V5Handler.create_publish_with_config at created
  cases level : qos_pid qos pid with
  | error err => rw [level] at created; cases created
  | ok qp =>
    rw [level] at created
    simp only [] at created
    refine ⟨qp, rfl, ?_⟩
    split at created
    · cases created; rfl
    · split at created <;> cases created <;> rfl

/-- A message with nothing but an alias is repeated by what is made from the session. -/
theorem create_publish_with_config_repeats {topic : TopicName} {qos : QoS} {retain : Bool} {payload : Bytes}
    {pid : Option Pid} {config : V5PublishConfig} (plain : config.Plain) {h : V5Handler} {packet again : V5.Packet}
    (created : (V5Handler.create_publish_with_config topic qos retain payload pid false config h).1 = .ok packet)
    (created' : V5Handler.create_publish_packet topic qos retain payload pid true = .ok again) :
    V5.Packet.Repeats packet again := by
  unfold V5Handler.create_publish_with_config at created
  unfold V5Handler.create_publish_packet at created'
  rw [plain] at created
  cases level : qos_pid qos pid with
  | error err => rw [level] at created; cases created
  | ok qp =>
    rw [level] at created created'
    simp only [] at created
    cases created'
    split at created
    · cases created; exact ⟨_, none, rfl, .inl rfl, rfl⟩
    · split at created <;> cases created <;> exact ⟨_, none, rfl, .inl rfl, rfl⟩

theorem create_publish_with_config_ok (topic : TopicName) {qos : QoS} (retain : Bool) (payload : Bytes)
    {pid : Option Pid} (dup : Bool) (config : V5PublishConfig) (h : V5Handler) {qp : QosPid}
    (carried : qos_pid qos pid = .ok qp) : ∃ packet,
      (V5Handler.create_publish_with_config topic qos retain payload pid dup config h).1 = .ok packet := by
  simp only [V5Handler.create_publish_with_config, carried]
  split
  · exact ⟨_, rfl⟩
  · split <;> exact ⟨_, rfl⟩

section
variable [Codec V5.Packet ErrorV5]

theorem handler_change (f : MqttProtocolEngine V5Handler V5.Packet ErrorV5 → V5Handler) : Acting grant
    (zoom engine (modify fun e => { e with handler := f e }) : ClientM V5Handler V5.Packet ErrorV5 PUnit) :=
  engine_aside (fun _ => rfl) (fun _ => rfl) (fun _ => rfl) fun _ => rfl

theorem publish_v5 (topic : TopicName) (payload : Bytes) (config : PublishConfig) {v5_config : V5PublishConfig}
    (plain : grant.plain = true → config.qos = .Level0 ∨ v5_config.Plain) :
    Requesting grant (MqttClient.publish_v5 topic payload config v5_config) := by
  refine whenConnected (Requesting.get fun c => Requesting.ite (Moves.fail _) ?_)
  generalize c.protocol_engine.handler = handler
  intro c granted
  have counted : Acting grant (modify fun c => { c with state := c.state.record_message_sent } :
      ClientM V5Handler V5.Packet ErrorV5 PUnit) :=
    client_aside (fun _ => rfl) (fun _ => rfl) (fun _ => rfl) fun _ => rfl
  by_cases level : config.qos = .Level0
  · simp only [level, publish_pid, zoom_pure, pure_bind, store_pending]
    refine Moves.bind (R := Follows grant) (handler_change _) (fun _ => ?_) c
    refine Moves.bind_ofExcept fun packet created => fun c => ?_
    obtain ⟨qp, carried, shaped⟩ := create_publish_with_config_shape created
    exact sent_accepted (permitted_unstored (H := V5Handler) shaped (qos_pid_level carried).2) fun _ => counted
  · obtain ⟨qp, carried, pid⟩ := publish_pid_level level c.session_state.next_pid
    obtain ⟨packet, created⟩ := create_publish_with_config_ok topic config.retain payload false v5_config handler carried
    obtain ⟨qp', carried', shaped⟩ := create_publish_with_config_shape created
    cases carried.symm.trans carried'
    rw [exec_bind, exec_publish_pid level]
    simp only [created, ofExcept_ok, pure_bind]
    generalize (V5Handler.create_publish_with_config topic config.qos config.retain payload
      (some c.session_state.next_pid) false v5_config handler).2 = handler'
    -- The handler may as well change before the identifier is taken.
    let changed : MqttClient V5Handler V5.Packet ErrorV5 :=
      { c with protocol_engine := { c.protocol_engine with handler := handler' } }
    have change : exec (zoom engine (modify fun e => { e with handler := handler' }) :
      ClientM V5Handler V5.Packet ErrorV5 PUnit) (handed_out c) = (.ok ⟨⟩, handed_out changed) := rfl
    have store := exec_store_pending topic config.qos config.retain payload changed
    rw [exec_bind, change]
    simp only []
    rw [exec_bind, store]
    have stored : Follows grant c (accepted changed topic config.qos config.retain payload) :=
      Follows.trans (Follows.aside rfl rfl rfl rfl) (accepted_follows changed granted topic level config.retain payload)
    refine stored.trans (sent_accepted (H := V5Handler) ?_ fun _ => counted)
    refine permitted_first (H := V5Handler) shaped rfl pid (AList.lookup_insert _) (List.getLast?_concat ..)
      fun only_alias again => ?_
    rintro ⟨h, created'⟩
    exact create_publish_with_config_repeats ((plain only_alias).resolve_left level) created created'

theorem subscribe_v5 {subscriptions : List (TopicFilter × QoS)}
    (members : ∀ entry ∈ subscriptions, entry.1 ∈ grant.addable) (v5_config : V5SubscribeConfig) :
    Requesting grant (MqttClient.subscribe_v5 subscriptions v5_config) := by
  refine whenConnected (Requesting.ite (Moves.pure _) ?_)
  refine request (H := V5Handler) (fun pid => V5Handler.create_subscribe_with_config subscriptions pid v5_config)
    (fun pid packet created => ?_) fun pid c last => add_subscriptions pid members c last
  cases subscriptions <;> cases created
  exact permitted_plain rfl trivial

end

end Masaka.Operations

namespace Masaka
open Effect Runs MqttProtocolHandler LawfulHandler

/-- What every allowed act preserves is preserved along a path. -/
theorem Path.invariant {H P E : Type} [MqttProtocolHandler H P E] [LawfulHandler H P E] {grant : Grant}
    {c c' : MqttClient H P E} {acts : List (Act P)} {I : View P → Prop}
    (keeps : ∀ view (act : Act P), act.Allowed H c.config grant view → I view → I (act.after view))
    (path : Path grant c c' acts) (start : I c.view) : I c'.view := by
  rw [path.2]
  exact Runs.invariant (fun view act holds allowed => keeps view act allowed holds) start path.1

/-- The filters that an operation subscribes to. -/
def Op.filters {v : Version} : Op v → List TopicFilter
  | .subscribe topic_filter _ => [topic_filter]
  | .subscribe_multiple subscriptions | .subscribe_v5 subscriptions _ => subscriptions.map Prod.fst
  | _ => []

/-- The filters whose records an operation may remove. -/
def Op.removes {v : Version} : Op v → List TopicFilter
  | .unsubscribe topic_filter => [topic_filter]
  | .unsubscribe_multiple topic_filters => topic_filters
  | _ => []

/-- Whether a PUBLISH that the operation stores has nothing but what the session keeps. -/
def Op.plain {v : Version} : Op v → Bool
  | .publish_v5 _ _ config v5_config => config.qos = .Level0 ∨ v5_config.Plain
  | _ => true

section
variable [Codec V3.Packet MqttProtoError] [Codec V5.Packet ErrorV5] {v : Version}

/-- What an operation may do in a state. -/
def Op.grant (op : Op v) (c : Client v) : Grant where
  identifier := some c.session_state.next_pid
  addable := op.filters
  removable := op.removes
  plain := op.plain

/-- Every public operation does allowed acts. -/
theorem Op.perform_follows (op : Op v) (c : Client v) : Follows (op.grant c) c (exec op.perform c).2 := by
  have requests : ∀ {request : ClientM v.Handler v.Packet v.Error Unit},
      Operations.Requesting (op.grant c) request →
      Follows (op.grant c) c (exec (request >>= fun _ => pure Reply.unit) c).2 := fun requesting =>
    requesting.bind (fun _ => Moves.pure _) c rfl
  have listed : ∀ {subscriptions : List (TopicFilter × QoS)}, ∀ entry ∈ subscriptions,
      entry.1 ∈ subscriptions.map Prod.fst := fun _ => List.mem_map_of_mem
  cases op with
  | connect => exact Operations.connect.bind (fun _ => Moves.pure _) c
  | reconnect => exact Operations.reconnect.bind (fun _ => Moves.pure _) c
  | disconnect => exact Operations.disconnect.bind (fun _ => Moves.pure _) c
  | publish topic payload config => exact requests (Operations.publish_client topic payload config)
  | subscribe topic_filter qos => exact requests (Operations.subscribe_client List.mem_cons_self qos)
  | subscribe_multiple subscriptions => exact requests (Operations.subscribe_multiple listed)
  | unsubscribe topic_filter => exact requests (Operations.unsubscribe_client List.mem_cons_self)
  | unsubscribe_multiple topic_filters => exact requests (Operations.unsubscribe_multiple fun _ member => member)
  | ping => exact Operations.ping.bind (fun _ => Moves.pure _) c
  | poll => exact Operations.poll.bind (fun _ => Moves.pure _) c
  | next_message => exact Follows.aside rfl rfl rfl rfl
  | publish_v5 topic payload config v5_config =>
    exact requests (Operations.publish_v5 topic payload config of_decide_eq_true)
  | subscribe_v5 subscriptions v5_config => exact requests (Operations.subscribe_v5 listed v5_config)
  | set_v5_config config => exact Moves.bind (Operations.handler_change _) (fun _ => Moves.pure _) c

namespace Client

/-- The events of a call. -/
def events (c : Client v) (call : Call v) : List (Event v.Packet) :=
  (c.after call).protocol_engine.log.drop c.protocol_engine.log.length

/-- A call does allowed acts, whose events are the events of the call. -/
theorem call_path {c : Client v} (idle : c.Idle) (call : Call v) : (c.after call).Idle ∧
    (c.after call).config = c.config ∧ ∃ acts, Path (call.op.grant c) (c.withWorld call.world) (c.after call) acts ∧
      c.events call = acts.flatMap Act.events := by
  obtain ⟨idle', config, acts, path⟩ := call.op.perform_follows (c.withWorld call.world) idle
  refine ⟨idle', config, acts, path, ?_⟩
  rw [events, show (c.after call).protocol_engine.log = _ from path.log]
  exact List.drop_left

theorem call_log {c : Client v} (idle : c.Idle) (call : Call v) :
    (c.after call).protocol_engine.log = c.protocol_engine.log ++ c.events call := by
  obtain ⟨-, -, acts, path, events⟩ := call_path idle call
  rw [events]
  exact path.log

/-- What every allowed act and every change of the surroundings preserves holds after every call. -/
theorem after_invariant {I : View v.Packet → Prop} {c : Client v} {call : Call v} (idle : c.Idle)
    (surroundings : ∀ view write, I view → I { view with write := write })
    (keeps : ∀ view (act : Act v.Packet), act.Allowed v.Handler c.config (call.op.grant c) view → I view →
      I (act.after view))
    (start : I c.view) : I (c.after call).view := by
  obtain ⟨-, -, acts, path, -⟩ := call_path idle call
  exact Path.invariant (c := c.withWorld call.world) keeps path (surroundings _ call.world.write start)

theorem Reachable.idle {c : Client v} (reachable : c.Reachable) : c.Idle := by
  obtain ⟨world, setup, config, calls, rfl⟩ := reachable
  exact Runs.invariant_all (I := MqttClient.Idle) (fun c call idle => (call_path idle call).1) (MqttClient.new_idle ..) calls

/-- What holds of a new client and is preserved by every allowed act holds of every reachable client. -/
theorem Reachable.invariant {I : ClientConfig → View v.Packet → Prop} {c : Client v} (reachable : c.Reachable)
    (start : ∀ config write, I config ⟨.Disconnected, false, .new config.max_subscriptions, write, []⟩)
    (surroundings : ∀ config view write, I config view → I config { view with write := write })
    (keeps : ∀ config grant view (act : Act v.Packet), act.Allowed v.Handler config grant view →
      I config view → I config (act.after view)) :
    I c.config c.view := by
  obtain ⟨world, setup, config, calls, rfl⟩ := reachable
  refine (Runs.invariant_all (I := fun c : Client v => c.Idle ∧ I c.config c.view) (fun c call holds => ?_)
    ⟨MqttClient.new_idle .., start config world.write⟩ calls).2
  obtain ⟨idle, config, -⟩ := call_path holds.1 call
  refine ⟨idle, ?_⟩
  rw [config]
  exact after_invariant (I := I c.config) holds.1 (surroundings _) (keeps _ _) holds.2

end Client
end

end Masaka
