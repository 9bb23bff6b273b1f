import Masaka.Inflight
import Masaka.Polling
import Masaka.Retries

/-!
The history of the messages: when each was stored, and by which operations and when its
PUBLISH was handed over. A call stores one message, or sends again what is pending after a
connect or in a pass, or leaves the messages alone but for those that are acknowledged.
-/
namespace Masaka.History
open Effect Tables MqttProtocolHandler LawfulHandler MqttProtocolEngine Sending Retries ConnectResult Publishing
open MqttClient (engine engineSession)

/-- What sends the PUBLISH of a message. -/
inductive Sender where
  | publish
  | resume
  | retry
  deriving DecidableEq

/-- What is noted of the messages. -/
inductive Mark where
  /-- A message was stored under the identifier. -/
  | stored (pid : Pid)
  /-- A CONNECT was handed over. -/
  | opened
  /-- The PUBLISH of the identifier was handed over. -/
  | sent (sender : Sender) (pid : Pid) (time : Nat)
  deriving DecidableEq

section
variable {H P E α : Type} [MqttProtocolHandler H P E] [LawfulHandler H P E]

/-- What is noted of a packet that is handed over. -/
def packet_mark (H : Type) {P E : Type} [MqttProtocolHandler H P E] [LawfulHandler H P E] (sender : Sender) (time : Nat)
    (packet : P) : Option Mark :=
  match shape (H := H) packet with
  | .connect _ => some .opened
  | .publish message => message.qos_pid.pid.map fun pid => .sent sender pid time
  | _ => none

/-- What is noted of an event. -/
def mark (H : Type) {P E : Type} [MqttProtocolHandler H P E] [LawfulHandler H P E] (sender : Sender) (time : Nat) :
    Event P → Option Mark
  | .accepted pid => some (.stored pid)
  | .sent frame => packet_mark H sender time frame.packet
  | _ => none

/-- What is noted of some events of an operation, which takes the time from the clock. -/
def marks_of (H : Type) {P E : Type} [MqttProtocolHandler H P E] [LawfulHandler H P E] (sender : Sender) (time : Nat)
    (events : List (Event P)) : List Mark := events.filterMap (mark H sender time)

theorem marks_of_append (sender : Sender) (time : Nat) (events more : List (Event P)) :
    marks_of H sender time (events ++ more) = marks_of H sender time events ++ marks_of H sender time more :=
  List.filterMap_append

/-- Where nothing is stored only the packets that are handed over are noted. -/
theorem marks_of_sent (sender : Sender) (time : Nat) {events : List (Event P)} (none : ∀ pid, .accepted pid ∉ events) :
    marks_of H sender time events = (packets_sent events).filterMap (packet_mark H sender time) := by
  induction events with
  | nil => rfl
  | cons event events ih =>
    have later := ih fun pid member => none pid (List.mem_cons_of_mem _ member)
    rw [marks_of, packets_sent] at later ⊢
    rw [List.filterMap_cons, List.filterMap_cons, later]
    cases event with
    | accepted pid => exact absurd List.mem_cons_self (none pid)
    | _ => rfl

/-- Nothing is noted of the event. -/
def Unmarked (H : Type) {P E : Type} [MqttProtocolHandler H P E] [LawfulHandler H P E] (event : Event P) : Prop :=
  ∀ sender time, mark H sender time event = none

theorem marks_of_unmarked {events : List (Event P)} (unmarked : ∀ event ∈ events, Unmarked H event) (sender : Sender)
    (time : Nat) : marks_of H sender time events = [] :=
  List.filterMap_eq_nil_iff.mpr fun event member => unmarked event member sender time

omit [MqttProtocolHandler H P E] [LawfulHandler H P E] in
/-- The messages of the second session are pending in the first one, as they are. -/
def Shrinks (s s' : InMemorySession) : Prop :=
  ∀ pid message, s'.pending_publishes.lookup pid = some message → s.pending_publishes.lookup pid = some message

theorem Shrinks.same {s s' : InMemorySession} (same : s'.pending_publishes = s.pending_publishes) : Shrinks s s' := by
  intro pid message stored
  rwa [same] at stored
theorem Shrinks.clear (s : InMemorySession) : Shrinks s (SessionState.clear s) := fun pid message stored => by
  cases (AList.lookup_empty pid).symm.trans stored
theorem Shrinks.complete (pid : Pid) (s : InMemorySession) :
    Shrinks s (SessionState.complete_outgoing_publish pid s).2 := by
  intro other message stored
  rw [SessionState.complete_outgoing_publish, lookup_erase_if] at stored
  split at stored
  · cases stored
  · exact stored

/-! ### What leaves the messages alone -/

/-- Nothing is noted, and nothing becomes pending. -/
def Still (c c' : MqttClient H P E) : Prop := c.Idle → c'.Idle ∧ (∃ events,
  c'.protocol_engine.log = c.protocol_engine.log ++ events ∧ ∀ event ∈ events, Unmarked H event) ∧
    Shrinks c.session_state c'.session_state

theorem Still.refl (c : MqttClient H P E) : Still c c := fun idle => ⟨idle, ⟨[], by simp⟩, .same rfl⟩
theorem Still.trans {c c' c'' : MqttClient H P E} (first : Still c c') (second : Still c' c'') : Still c c'' := by
  intro idle
  obtain ⟨idle', ⟨events, log, unmarked⟩, shrinks⟩ := first idle
  obtain ⟨idle'', ⟨more, log', unmarked'⟩, shrinks'⟩ := second idle'
  refine ⟨idle'', ⟨events ++ more, by rw [log', log, List.append_assoc], fun event member => ?_⟩, fun pid message stored =>
    ?_⟩
  · exact (List.mem_append.mp member).elim (unmarked event) (unmarked' event)
  · exact shrinks pid message (shrinks' pid message stored)

instance : Std.Refl (Still (H := H) (P := P) (E := E)) := ⟨Still.refl⟩
instance : IsTrans (MqttClient H P E) Still := ⟨fun _ _ _ => Still.trans⟩

theorem Still.event {c c' : MqttClient H P E} (event : Event P)
    (log : c'.protocol_engine.log = c.protocol_engine.log ++ [event]) (unmarked : Unmarked H event)
    (queue : c'.protocol_engine.write_queue = c.protocol_engine.write_queue)
    (shrinks : Shrinks c.session_state c'.session_state) : Still c c' := by
  refine fun idle => ⟨queue.trans idle, ⟨[event], log, ?_⟩, shrinks⟩
  intro other member
  rw [List.mem_singleton.mp member]
  exact unmarked
theorem Still.aside {c c' : MqttClient H P E} (log : c'.protocol_engine.log = c.protocol_engine.log)
    (queue : c'.protocol_engine.write_queue = c.protocol_engine.write_queue)
    (shrinks : Shrinks c.session_state c'.session_state) : Still c c' :=
  fun idle => ⟨queue.trans idle, ⟨[], by rw [log, List.append_nil], by simp⟩, shrinks⟩

/-- A packet that is neither a CONNECT nor a PUBLISH with an identifier. -/
theorem sending {packet : P} (none : ∀ sender time, packet_mark H sender time packet = none) :
    Moves Still (zoom engine (send_packet (H := H) packet)) := by
  intro c idle
  have sends : wp (send_packet packet) c.protocol_engine fun _ e => e.write_queue = [] ∧ ∃ events,
      e.log = c.protocol_engine.log ++ events ∧ ∀ event ∈ events, Unmarked H event := by
    refine wp_mono (send_packet_spec packet idle) fun r e sent => ⟨sent.idle idle, ?_⟩
    cases sent with
    | unencoded _ => exact ⟨[], by simp⟩
    | encoded _ transmission _ =>
      exact ⟨_, rfl, transmission.all (fun _ _ => rfl) (fun _ _ _ _ => rfl) none (fun _ _ _ => rfl) fun _ _ _ => rfl⟩
  exact ⟨sends.1, sends.2, .same rfl⟩
theorem sending_shape {packet : P} {shaped : Shape} (same : shape (H := H) packet = shaped) (plain : shaped.Plain) :
    Moves Still (zoom engine (send_packet (H := H) packet)) := by
  refine sending fun sender time => ?_
  rw [packet_mark, same]
  cases shaped with
  | connect | publish | pubrel => exact plain.elim
  | _ => rfl

theorem clock : Moves Still (zoom engine current_timestamp_ms : ClientM H P E Nat) := fun _ =>
  .event (.clock _) rfl (fun _ _ => rfl) rfl (.same rfl)
theorem entering (new : ConnectionState) : Moves Still (MqttClient.set_connection_state new : ClientM H P E Unit) :=
  fun _ => .aside rfl rfl (.same rfl)
theorem trySession {f : InMemorySession → Except MqttError α × InMemorySession} (shrinks : ∀ s, Shrinks s (f s).2) :
    Moves Still (MqttClient.trySession f : ClientM H P E α) := by
  intro c
  rw [Operations.exec_trySession]
  exact .aside rfl rfl (shrinks c.session_state)
theorem onSession {f : InMemorySession → α × InMemorySession} (shrinks : ∀ s, Shrinks s (f s).2) :
    Moves Still (zoom engineSession (onSession f) : ClientM H P E α) := fun c => .aside rfl rfl (shrinks c.session_state)

theorem still_requests : Requests (Still (H := H) (P := P) (E := E)) where
  taking _ := .event (.handed_out _) rfl (fun _ _ => rfl) rfl (.same rfl)
  sending packet asks := by
    refine sending fun sender time => ?_
    rw [packet_mark]
    split
    · rename_i same
      rw [same] at asks
      exact asks.elim
    · rename_i same
      rw [same] at asks
      exact asks.elim
    · rfl
  adding pid topic_filter qos := trySession fun s => .same (congrArg Prod.fst
    (SessionState.handshakes_untouched (SessionState.add_subscription_untouched ..)))
  removing topic_filter := fun c => .aside rfl rfl (.same (congrArg Prod.fst
    (SessionState.handshakes_untouched (SessionState.remove_subscription_untouched ..))))

theorem ping : Moves Still (MqttClient.ping : ClientM H P E Unit) := by
  refine whenConnected ?_
  simp only [MqttProtocolEngine.ping, zoom_bind, zoom_get, zoom_ite, zoom_fail, bind_assoc, pure_bind]
  exact Moves.get.bind fun c => Moves.ite (fun _ => Moves.fail _) fun _ => sending_shape (LawfulHandler.pingreq _) trivial

theorem disconnect : Moves Still (MqttClient.disconnect : ClientM H P E Unit) := by
  have closing : Moves Still (zoom engine MqttProtocolEngine.disconnect : ClientM H P E Unit) := by
    simp only [MqttProtocolEngine.disconnect, zoom_bind, zoom_get, zoom_ite, zoom_pure, bind_assoc, pure_bind]
    refine Moves.get.bind fun c => Moves.ite (fun _ => Moves.pure _) fun _ => ?_
    refine (sending_shape (LawfulHandler.disconnect _) trivial).bind fun _ => ?_
    refine Moves.bind (fun c => .aside rfl rfl (.same rfl)) fun _ => fun c => ?_
    exact .event (.close _) rfl (fun _ _ => rfl) rfl (.same rfl)
  refine Moves.get.bind fun c => Moves.ite (fun _ => Moves.pure _) fun _ => (entering _).bind fun _ => ?_
  exact closing.attempt.bind fun result => (entering _).bind fun _ => Moves.ofExcept _ _

theorem reading : Moves Still (zoom engine (receive_packet_unlogged (H := H))) := by
  intro c idle
  have waited := receive_packet_unlogged_spec c.protocol_engine
  rw [wp] at waited
  refine ⟨waited.queue.trans idle, ⟨_, waited.log, ?_⟩, .same rfl⟩
  rw [arrival]
  split
  · exact List.forall_mem_cons.mpr ⟨fun _ _ => rfl, List.forall_mem_singleton.mpr fun _ _ => rfl⟩
  · simp
  · simp

theorem reply {create : H → Pid → Except E P} {shaped : Pid → Shape}
    (lawful : ∀ h pid, ∃ packet, create h pid = .ok packet ∧ shape (H := H) packet = shaped pid)
    (plain : ∀ pid, (shaped pid).Plain) (pid : Pid) : Moves Still (zoom engineSession (do
      let (e, _) ← get
      let packet ← ofExcept (into H) (create e.handler pid)
      zoom first (send_packet packet))) := by
  simp only [zoom_bind, zoom_get, zoom_ofExcept, Operations.zoom_first, bind_assoc, pure_bind]
  refine Moves.get.bind fun c => ?_
  obtain ⟨packet, created, same⟩ := lawful (engineSession.get c).1.handler pid
  simp only [created, ofExcept_ok, pure_bind]
  exact sending_shape same (plain pid)

/-- Answering a packet leaves no message pending that was not. -/
theorem acknowledge (action : PacketAction) : Moves Still (zoom engineSession (acknowledge (H := H) action)) := by
  cases action with
  | PublishAck pid =>
    simp only [MqttProtocolEngine.acknowledge, zoom_bind, zoom_pure]
    exact (onSession (Shrinks.complete pid)).bind fun _ => Moves.pure _
  | PublishComplete pid =>
    simp only [MqttProtocolEngine.acknowledge, zoom_bind, zoom_pure]
    exact (onSession (Shrinks.complete pid)).bind fun _ => (onSession fun s => .same rfl).bind fun _ => Moves.pure _
  | PublishRec pid =>
    simp only [MqttProtocolEngine.acknowledge, zoom_bind]
    refine (onSession (Shrinks.complete pid)).bind fun found => ?_
    cases found with
    | none => exact fun c => .refl c
    | some message =>
      simp only [zoom_bind, zoom_get, zoom_ofExcept, Operations.zoom_first, bind_assoc, pure_bind]
      refine Moves.get.bind fun c => Moves.bind_ofExcept fun packet created => ?_
      have shaped : shape (H := H) packet = .pubrel pid := lawful_shape LawfulHandler.pubrel created
      refine (sending fun sender time => by rw [packet_mark, shaped]).bind fun _ => ?_
      exact trySession fun s => .same rfl
  | PublishRelease pid =>
    exact reply LawfulHandler.pubcomp (fun _ => trivial) pid
  | PublishReceived topic qos retain payload pid =>
    cases pid with
    | none => cases qos <;> exact fun c => .refl c
    | some pid =>
      cases qos with
      | Level0 => exact fun c => .refl c
      | Level1 => exact reply LawfulHandler.puback (fun _ => trivial) pid
      | Level2 => exact reply LawfulHandler.pubrec (fun _ => trivial) pid
  | ConnectAck _ _ | SubscribeAck _ _ | UnsubscribeAck _ | PingResponse | None => exact fun c => .refl c

theorem receive : Moves Still (MqttClient.receive (H := H)) := by
  have receiving : Moves Still (zoom engineSession (receive_packet (H := H))) := by
    simp only [MqttProtocolEngine.receive_packet, zoom_bind, Operations.zoom_first, zoom_pure]
    exact reading.bind fun action => (acknowledge action).bind fun _ => Moves.pure _
  refine receiving.attempt.bind fun result => ?_
  cases result with
  | error err => exact (entering _).bind fun _ => Moves.fail _
  | ok action =>
    cases action with
    | PublishReceived topic qos retain payload pid =>
      exact clock.bind fun _ => Moves.bind (fun c => .aside rfl rfl (.same rfl)) fun _ => Moves.pure _
    | SubscribeAck pid codes =>
      refine (trySession fun s => .same ?_).bind fun _ => Moves.pure _
      exact congrArg Prod.fst (SessionState.handshakes_untouched (SessionState.confirm_subscription_untouched ..))
    | _ => exact Moves.pure _

/-! ### What is noted of a call -/

/-- A connect whose CONNECT is accepted by a broker that has the session, which is kept. -/
structure Resumes (c : MqttClient H P E) : Prop where
  valid : c.config.validate = .ok ()
  free : c.protocol_engine.connected = false
  kept : c.config.clean_session = false
  accepted : ∃ tape, Exchanges c.protocol_engine (connect_of c) true tape

/-- What a poll does before `handle_retries`, unless the timeout has passed. -/
def pinging : ClientM H P E Unit := do
  let current_time ← zoom engine current_timestamp_ms
  let c ← get
  onlyIf (c.protocol_engine.should_send_keep_alive current_time) MqttClient.ping

/-- The client as a poll comes to `handle_retries`, if it does. -/
def handling (c : MqttClient H P E) : Option (MqttClient H P E) :=
  if c.protocol_engine.is_connected ∧ ¬ c.protocol_engine.is_connection_timeout (c.protocol_engine.world.now 0) then
    match exec pinging c with
    | (.ok _, c₁) => some c₁
    | (.error _, _) => none
  else none

/-- The entries that are pending, as the client visits them. -/
def pending (c : MqttClient H P E) : List (Pid × InflightMessage) :=
  SessionState.pending_outgoing_publishes c.protocol_engine.world.order c.session_state

/-- The retransmissions that are due, of a client that comes to `handle_retries`. -/
def retransmissions (current_time : Nat) (c : MqttClient H P E) : List (Except E P) :=
  (due current_time c.protocol_engine.world.order c.session_state).map (again c.protocol_engine.handler)

/-- A call that stores nothing leaves the messages alone or, if it resumes a session, sends again
    what is pending; so much is noted of it. -/
inductive Opening (resumes : Prop) (c : MqttClient H P E) (time : Nat) : List Mark → InMemorySession → Prop where
  | still {noted : List Mark} {s' : InMemorySession} : (∀ mark ∈ noted, mark = .opened) → Shrinks c.session_state s' →
      Opening resumes c time noted s'
  | resumed {s' : InMemorySession} (k : Nat) : resumes → s'.pending_publishes = c.session_state.pending_publishes →
      Opening resumes c time (.opened :: ((pending c).take k).map fun entry => .sent .resume entry.1 time) s'

/-- What a call makes of the messages: it stores nothing, or stores a message and sends it, or, if
    it polls, sends those again that are due, each counted before that. -/
inductive Turn (resumes polls : Prop) (c : MqttClient H P E) (time : Nat) : List Mark → InMemorySession → Prop where
  | opening {noted : List Mark} {s' : InMemorySession} : Opening resumes c time noted s' →
      Turn resumes polls c time noted s'
  | published {message : InflightMessage} {noted : List Mark} {s' : InMemorySession} : message.retry_count = 0 →
      message.timestamp = time → s'.pending_publishes =
        c.session_state.pending_publishes.insert c.session_state.next_pid message →
      (noted = [.stored c.session_state.next_pid] ∨
        noted = [.stored c.session_state.next_pid, .sent .publish c.session_state.next_pid time]) →
      Turn resumes polls c time noted s'
  | polled {c₁ : MqttClient H P E} {s₁ s' : InMemorySession} {n k : Nat} : polls → handling c = some c₁ →
      k ≤ n → n ≤ k + 1 → (k = n ↔ ¬ Falters c₁.protocol_engine.handler c₁.protocol_engine.world.write
        c₁.protocol_engine.world.flush (retransmissions time c₁)) →
      Counted time ((due time c.protocol_engine.world.order c.session_state).take n) c.session_state s₁ → Shrinks s₁ s' →
      Turn resumes polls c time (((due time c.protocol_engine.world.order c.session_state).take k).map fun entry =>
        .sent .retry entry.1 time) s'

/-- What an operation makes of the messages shows in its events. -/
def Opens (resumes : Prop) (sender : Sender) (time : Nat) (c c' : MqttClient H P E) : Prop := ∃ events,
  c'.protocol_engine.log = c.protocol_engine.log ++ events ∧
    Opening resumes c time (marks_of H sender time events) c'.session_state
def Turns (resumes polls : Prop) (sender : Sender) (time : Nat) (c c' : MqttClient H P E) : Prop := ∃ events,
  c'.protocol_engine.log = c.protocol_engine.log ++ events ∧
    Turn resumes polls c time (marks_of H sender time events) c'.session_state

theorem Opens.turns {c c' : MqttClient H P E} {resumes polls : Prop} {sender : Sender} {time : Nat}
    (opens : Opens resumes sender time c c') : Turns resumes polls sender time c c' :=
  opens.imp fun _ => And.imp_right .opening
theorem Still.opens {c c' : MqttClient H P E} (idle : c.Idle) (still : Still c c') (resumes : Prop) (sender : Sender)
    (time : Nat) : Opens resumes sender time c c' := by
  obtain ⟨-, ⟨events, log, unmarked⟩, shrinks⟩ := still idle
  refine ⟨events, log, .still ?_ shrinks⟩
  rw [marks_of_unmarked unmarked]
  exact fun mark member => by cases member
theorem Still.turns {c c' : MqttClient H P E} (idle : c.Idle) (still : Still c c') (resumes polls : Prop) (sender : Sender)
    (time : Nat) : Turns resumes polls sender time c c' := (still.opens idle resumes sender time).turns

/-- What is noted of a packet that is sent, well or not. -/
theorem sent_noted {packet : P} {e e' : MqttProtocolEngine H P E} {r : Except (Halt MqttError) Unit}
    (sent : Sent packet e r e') (sender : Sender) (time : Nat) : ∃ events, e'.log = e.log ++ events ∧
      (marks_of H sender time events = (packet_mark H sender time packet).toList ∨
        marks_of H sender time events = [] ∧ r ≠ .ok ()) := by
  cases sent with
  | unencoded _ => exact ⟨[], (List.append_nil _).symm, .inr ⟨rfl, fun ended => by cases ended⟩⟩
  | encoded _ transmission _ =>
    refine ⟨_, rfl, ?_⟩
    rw [marks_of_sent sender time fun pid => transmission.unsaid (by simp) id]
    rcases transmission.handed_over with ⟨whole, -⟩ | ⟨nothing, -, stopped⟩
    · left
      rw [whole, List.filterMap_cons]
      cases packet_mark H sender time packet <;> rfl
    · rw [nothing]
      exact .inr ⟨rfl, stopped⟩

theorem again_mark {h : H} (sender : Sender) (time : Nat) (entry : Pid × InflightMessage) (packet : P)
    (made : again h entry = .ok packet) : packet_mark H sender time packet = some (.sent sender entry.1 time) := by
  obtain ⟨qp, carried, shaped⟩ := LawfulHandler.publish _ _ _ _ _ _ _ _ made
  simp only [packet_mark, shaped, (qos_pid_level carried).2, Option.map_some]

/-- What is noted of some messages that are sent again. -/
theorem again_noted {h : H} {entries : List (Pid × InflightMessage)} {events : List (Event P)} {k : Nat}
    (none : ∀ pid, .accepted pid ∉ events) (sent : (packets_sent events).map .ok = (entries.map (again h)).take k)
    (sender : Sender) (time : Nat) :
    marks_of H sender time events = (entries.take k).map fun entry => .sent sender entry.1 time := by
  rw [marks_of_sent sender time none]
  exact filterMap_made (again_mark sender time) sent

/-! ### Connecting -/

/-- The handshake notes that a CONNECT was handed over, or fails. -/
theorem handshake_noted (config : ClientConfig) {e : MqttProtocolEngine H P E} (idle : e.write_queue = []) (sender : Sender)
    (time : Nat) : wp (Reconnect.handshake config) e fun r e' => e'.write_queue = [] ∧ e'.world.order = e.world.order ∧
      ∃ events, e'.log = e.log ++ events ∧ (marks_of H sender time events = [.opened] ∨
        marks_of H sender time events = [] ∧ ∀ action, r ≠ .ok action) := by
  have nothing : ∀ {e' : MqttProtocolEngine H P E} {halt : Halt MqttError}, e'.log = e.log →
      ∃ events, e'.log = e.log ++ events ∧ (marks_of H sender time events = [.opened] ∨
        marks_of H sender time events = [] ∧ ∀ action, (.error halt : Except (Halt MqttError) PacketAction) ≠ .ok action) :=
    fun same => ⟨[], by rw [same, List.append_nil], .inr ⟨rfl, error_ne_ok _⟩⟩
  rw [Reconnect.handshake, MqttProtocolEngine.connect_with_will, wp_bind, wp_get]
  by_cases refused : e.connected = true
  · simp only [refused, if_true]
    exact ⟨idle, rfl, nothing rfl⟩
  simp only [refused, Bool.false_eq_true, if_false]
  rw [wp_bind, wp_modify]
  refine wp_ofExcept_bind (fun packet created => ?_) fun err _ => ⟨idle, rfl, nothing rfl⟩
  have shaped : shape (H := H) packet = .connect config.clean_session := by
    split at created
    · exact LawfulHandler.connect_with_will _ _ _ _ _ _ _ _ _ _ _ created
    · exact LawfulHandler.connect _ _ _ _ _ _ _ created
  have noted : packet_mark H sender time packet = some .opened := by rw [packet_mark, shaped]
  rw [wp_bind]
  refine wp_mono (send_packet_spec (e := set_keep_alive_interval config.keep_alive e) packet idle) fun r e₁ sent => ?_
  have idle₁ := sent.idle idle
  obtain ⟨-, -, -, order, -⟩ := sent.frame
  obtain ⟨events, log, marks⟩ := sent_noted sent sender time
  rw [noted] at marks
  cases r with
  | error halt => exact ⟨idle₁, order, events, log, marks.imp_right fun none => ⟨none.1, error_ne_ok _⟩⟩
  | ok _ =>
    have opened := marks.resolve_right fun stopped => stopped.2 rfl
    dsimp only
    rw [wp_bind]
    refine wp_mono (receive_packet_unlogged_spec e₁) fun r e₂ waited => ?_
    have arrived : marks_of H sender time (arrival e₁) = [] := by
      rw [arrival]
      split <;> rfl
    have after : e₂.log = e.log ++ (events ++ arrival e₁) := by
      rw [waited.log, log, List.append_assoc]
      rfl
    have all : marks_of H sender time (events ++ arrival e₁) = [.opened] := by
      rw [marks_of_append, opened, arrived, List.append_nil]
      rfl
    have idle₂ := waited.queue.trans idle₁
    have order₂ := waited.order.trans order
    cases r with
    | error halt => exact ⟨idle₂, order₂, _, after, .inl all⟩
    | ok action =>
      cases action with
      | ConnectAck session_present return_code =>
        dsimp only
        split
        · exact ⟨idle₂, order₂, _, after, .inl all⟩
        · exact ⟨idle₂, order₂, _, after, .inl all⟩
      | _ => exact ⟨idle₂, order₂, _, after, .inl all⟩

theorem connect_opens {c : MqttClient H P E} (idle : c.Idle) (time : Nat) :
    wp MqttClient.connect c fun _ c' => Opens (Resumes c) .resume time c c' := by
  have begun := Reconnect.beginning_log c
  have quiet : marks_of H .resume time (if c.config.clean_session then [Event.cleared (P := P)] else []) = [] := by
    split <;> rfl
  have shrinks : Shrinks c.session_state (Reconnect.beginning c).session_state := by
    rw [Reconnect.beginning]
    dsimp only
    split
    · exact .clear _
    · exact .same rfl
  have idle' : (Reconnect.beginning c).protocol_engine.write_queue = [] := (Reconnect.beginning_queue c).trans idle
  have opening : ∀ {e : MqttProtocolEngine H P E} {events : List (Event P)},
      e.log = (Reconnect.beginning c).protocol_engine.log ++ events →
      (marks_of H .resume time events = [.opened] ∨ marks_of H .resume time events = []) →
      ∀ c' : MqttClient H P E, c'.protocol_engine = e → c'.session_state = (Reconnect.beginning c).session_state →
        Opens (Resumes c) .resume time c c' := by
    intro e events log noted c' engine session
    refine ⟨_, by rw [engine, log, begun, List.append_assoc], .still ?_ (session ▸ shrinks)⟩
    rw [marks_of_append, quiet, List.nil_append]
    rcases noted with opened | none
    · simp [opened]
    · simp [none]
  refine Reconnect.connect_cases (fun _ err => ?_) (fun _ flag => ?_) fun valid free => ?_
  · exact (Still.refl c).opens idle _ _ _
  · exact opening (List.append_nil _).symm (.inr rfl) _ rfl rfl
  have free' : (Reconnect.beginning c).protocol_engine.connected = false := (Reconnect.beginning_connected c).trans free
  have shakes : wp (Reconnect.handshake c.config) (Reconnect.beginning c).protocol_engine _ :=
    wp_and (handshake_noted c.config idle' .resume time) (handshake_spec _ _ _ _ _ _ _ _ _ idle' free')
  refine Reconnect.connect_seq valid shakes (fun e err shook => ?_) (fun e action err shook _ => ?_) (fun e shook => ?_)
    fun e session_present shook => ?_
  · obtain ⟨⟨-, -, events, log, noted⟩, -⟩ := shook
    exact opening log (noted.imp_right And.left) _ rfl rfl
  · obtain ⟨⟨-, -, events, log, noted⟩, -⟩ := shook
    exact opening log (noted.imp_right And.left) _ rfl rfl
  · obtain ⟨⟨-, -, events, log, noted⟩, -⟩ := shook
    exact opening log (noted.imp_right And.left) _ rfl rfl
  obtain ⟨⟨queue, order, events, log, noted⟩, accepts, -⟩ := shook
  rw [onlyIf]
  split
  swap
  · exact opening log (noted.imp_right And.left) _ rfl rfl
  rename_i resumes
  obtain ⟨present, kept⟩ := Bool.and_eq_true_iff.mp resumes
  have keeps : c.config.clean_session = false := by simpa using kept
  have opened := noted.resolve_right fun stopped => stopped.2 _ rfl
  have same : (Reconnect.beginning c).protocol_engine = c.protocol_engine := by
    rw [Reconnect.beginning_engine, keeps]
    simp
  have session : (Reconnect.beginning c).session_state = c.session_state := by
    rw [Reconnect.beginning, keeps]
    rfl
  obtain ⟨_, returned, accepted⟩ := accepts _ rfl
  rw [same] at log order accepted
  cases returned
  subst present
  rw [MqttClient.resend_pending_messages, wp_bind, wp_get]
  refine wp_mono (resend_series _ (c := Reconnect.connecting e c) queue) fun r c' outcome => ?_
  obtain ⟨sessions, n, series⟩ := outcome
  obtain ⟨k, more, log', none, sent, -⟩ := series.part
  have visited : SessionState.pending_outgoing_publishes (Reconnect.connecting e c).protocol_engine.world.order
      (Reconnect.connecting e c).session_state = pending c := by
    change SessionState.pending_outgoing_publishes e.world.order (Reconnect.beginning c).session_state = pending c
    rw [order, session, pending]
  rw [visited] at sent
  have after : c'.session_state = c.session_state := by
    rw [sessions]
    exact session
  refine ⟨events ++ more, ?_, ?_⟩
  · rw [log']
    change e.log ++ more = _
    rw [log, List.append_assoc]
  · rw [marks_of_append, opened, again_noted none sent, after]
    exact .resumed k ⟨valid, free, keeps, _, accepted.exchange⟩ rfl

/-- What the client did before, if it leaves the messages and the connection alone. -/
theorem Opens.before {c c₁ c' : MqttClient H P E} {resumes resumes' : Prop} {sender : Sender} {time : Nat}
    (opens : Opens resumes sender time c₁ c') (event : Event P)
    (log : c₁.protocol_engine.log = c.protocol_engine.log ++ [event]) (unmarked : Unmarked H event)
    (session : c₁.session_state = c.session_state) (visited : pending c₁ = pending c) (so : resumes → resumes') :
    Opens resumes' sender time c c' := by
  obtain ⟨events, log', opening⟩ := opens
  refine ⟨event :: events, by rw [log', log, List.append_assoc]; rfl, ?_⟩
  have same : marks_of H sender time (event :: events) = marks_of H sender time events := by
    rw [marks_of, List.filterMap_cons, unmarked sender time]
    rfl
  rw [same]
  generalize marks_of H sender time events = noted at opening
  generalize c'.session_state = s' at opening
  cases opening with
  | still opened shrinks => exact .still opened (session ▸ shrinks)
  | resumed k accepted kept =>
    rw [visited]
    exact .resumed k (so accepted) (session ▸ kept)

/-- A reconnect that makes an attempt opens as its connect does. -/
theorem reconnect_opens {c : MqttClient H P E} (idle : c.Idle) (time : Nat) : wp MqttClient.reconnect c fun _ c' =>
    Opens (Flags.Attempts c ∧ Resumes c) .resume time c c' := by
  have waits : ∀ interval, Still c (Reconnect.waited interval c) := fun interval =>
    .event (.delay interval) rfl (fun _ _ => rfl) rfl (.same rfl)
  refine Reconnect.reconnect_seq (fun _ err => (Still.refl c).opens idle _ _ _)
    (fun interval => (waits interval).opens idle _ _ _) fun enabled remain elapsed interval => ?_
  refine wp_mono (connect_opens (by exact idle) time) fun r c' opens => ?_
  refine opens.before (.delay interval) rfl (fun _ _ => rfl) rfl rfl fun resumes => ⟨⟨enabled, remain, elapsed⟩, ?_⟩
  obtain ⟨tape, exchange⟩ := resumes.accepted
  exact ⟨resumes.valid, resumes.free, resumes.kept, tape, exchange.sent, exchange.flushed, exchange.accepted⟩

/-- A connect of an engine whose flag is set does not get to its CONNECT. -/
theorem connect_still {c : MqttClient H P E} (flag : c.protocol_engine.connected = true) :
    wp MqttClient.connect c fun r c' => (∀ a, r ≠ .ok a) ∧ Still c c' := by
  refine Reconnect.connect_flagged flag (fun err => ⟨error_ne_ok _, .refl c⟩) ⟨error_ne_ok _, ?_⟩
  rw [Reconnect.beginning]
  cases c.config.clean_session with
  | false => exact .aside rfl rfl (.same rfl)
  | true => exact .event .cleared rfl (fun _ _ => rfl) rfl (.clear _)

theorem reconnect_still {c : MqttClient H P E} (flag : c.protocol_engine.connected = true) :
    wp MqttClient.reconnect c fun r c' => (∀ a, r ≠ .ok a) ∧ Still c c' := by
  have waits : ∀ interval, Still c (Reconnect.waited interval c) := fun interval =>
    .event (.delay interval) rfl (fun _ _ => rfl) rfl (.same rfl)
  refine Reconnect.reconnect_seq (fun _ err => ⟨error_ne_ok _, .refl c⟩) (fun interval => ⟨error_ne_ok _, waits interval⟩)
    fun _ _ _ interval => ?_
  exact wp_mono (connect_still (by exact flag)) fun _ _ refused => ⟨refused.1, (waits interval).trans refused.2⟩

/-! ### Publishing -/

omit [MqttProtocolHandler H P E] [LawfulHandler H P E] in
theorem Turns.aside [MqttProtocolHandler H P E] [LawfulHandler H P E] {c c₁ c' : MqttClient H P E} {resumes polls : Prop}
    {sender : Sender} {time : Nat} (turns : Turns resumes polls sender time c c₁)
    (log : c'.protocol_engine.log = c₁.protocol_engine.log) (session : c'.session_state = c₁.session_state) :
    Turns resumes polls sender time c c' := by
  obtain ⟨events, same, turn⟩ := turns
  exact ⟨events, log.trans same, session ▸ turn⟩

/-- The end of a publish, whose message is stored: its packet is sent. -/
theorem stored_turns {c c₁ : MqttClient H P E} (resumes polls : Prop) (idle : c₁.Idle) (message : InflightMessage)
    {time now : Nat} (fresh : message.retry_count = 0) (stamped : message.timestamp = time)
    (log : c₁.protocol_engine.log = c.protocol_engine.log ++ [.handed_out c.session_state.next_pid] ++ [.clock now] ++
      [.accepted c.session_state.next_pid])
    (inserted : c₁.session_state.pending_publishes =
      c.session_state.pending_publishes.insert c.session_state.next_pid message) {packet : P} {publish : V3.Publish}
    (shaped : shape (H := H) packet = .publish publish) (carries : publish.qos_pid.pid = some c.session_state.next_pid) :
    wp (zoom engine (send_packet packet)) c₁ fun _ c' => Turns resumes polls .publish time c c' := by
  rw [wp_zoom]
  refine wp_mono (send_packet_spec packet idle) fun r e sent => ?_
  obtain ⟨events, log', noted⟩ := sent_noted sent .publish time
  have first : packet_mark H .publish time packet = some (.sent .publish c.session_state.next_pid time) := by
    simp only [packet_mark, shaped, carries, Option.map_some]
  refine ⟨[.handed_out c.session_state.next_pid, .clock now, .accepted c.session_state.next_pid] ++ events, ?_, ?_⟩
  · change e.log = _
    rw [log', MqttClient.engine_get, log]
    simp
  · refine .published fresh stamped inserted ?_
    rw [marks_of_append]
    change .stored c.session_state.next_pid :: marks_of H .publish time events = _ ∨
      .stored c.session_state.next_pid :: marks_of H .publish time events = _
    rcases noted with whole | ⟨none, -⟩
    · rw [whole, first]
      exact .inr rfl
    · rw [none]
      exact .inl rfl

theorem publish_engine_turns {c : MqttClient H P E} (resumes polls : Prop) (idle : c.Idle) (topic : TopicName)
    (qos : QoS) (retain : Bool) (payload : Bytes) :
    wp (zoom engineSession (publish (H := H) topic qos retain payload)) c fun _ c' =>
      Turns resumes polls .publish (c.protocol_engine.world.now 0) c c' := by
  simp only [MqttProtocolEngine.publish, zoom_bind, zoom_get, zoom_ite, zoom_fail, zoom_ofExcept, Operations.zoom_first,
    zoom_pure, bind_assoc, pure_bind]
  rw [wp_bind, wp_get]
  simp only [MqttClient.engineSession_get]
  by_cases linked : c.protocol_engine.connected = true
  swap
  · simp only [linked, Bool.not_false, if_true]
    exact (Still.refl c).turns idle _ _ _ _
  simp only [linked, Bool.not_true, Bool.false_eq_true, if_false]
  by_cases level : qos = .Level0
  · subst level
    simp only [publish_pid, store_pending, zoom_pure, pure_bind]
    refine Still.turns idle ((show Moves Still _ from ?_) c) _ _ _ _
    refine Moves.bind_ofExcept fun packet created => (sending fun sender time => ?_).bind fun _ => Moves.pure _
    obtain ⟨qp, carried, shaped⟩ := LawfulHandler.publish _ _ _ _ _ _ _ _ created
    simp only [packet_mark, shaped, (qos_pid_level carried).2, Option.map_none]
  · obtain ⟨qp, carried, pid⟩ := Operations.publish_pid_level level c.session_state.next_pid
    obtain ⟨packet, created⟩ := publish_ok c.protocol_engine.handler topic qos retain payload _ false qp carried
    obtain ⟨qp', carried', shaped⟩ := LawfulHandler.publish _ _ _ _ _ _ _ _ created
    cases carried.symm.trans carried'
    rw [wp_bind, wp, Operations.exec_publish_pid level]
    simp only [created, ofExcept_ok, pure_bind]
    rw [wp_bind, wp, Operations.exec_store_pending]
    have idle₁ : (Operations.accepted c topic qos retain payload).Idle := idle
    let stored := Operations.stored c topic qos retain payload
    exact wp_result (stored_turns resumes polls idle₁ stored rfl rfl rfl rfl shaped pid)

theorem publish_turns {c : MqttClient H P E} (resumes polls : Prop) (idle : c.Idle) (topic : TopicName) (payload : Bytes)
    (config : PublishConfig) :
    wp (MqttClient.publish topic payload config) c fun _ c' =>
      Turns resumes polls .publish (c.protocol_engine.world.now 0) c c' := by
  have nothing : Turns resumes polls .publish (c.protocol_engine.world.now 0) c c := (Still.refl c).turns idle _ _ _ _
  rw [MqttClient.publish, MqttClient.whenConnected, wp_bind, wp_get]
  simp only []
  split
  · exact nothing
  rw [wp_bind, wp_get]
  simp only []
  split
  · exact nothing
  rw [wp_bind]
  refine wp_mono (publish_engine_turns resumes polls idle topic config.qos config.retain payload) fun r c' turns => ?_
  cases r with
  | error _ => exact turns
  | ok _ => exact turns.aside rfl rfl

/-! ### Polling -/

/-- What is noted of the messages that a pass hands over. -/
theorem handed_noted {current_time k n : Nat} {e e' : MqttProtocolEngine H P E} {s s' : InMemorySession}
    {r : Except (Halt MqttError) Unit} {events : List (Event P)} (handed : Handed current_time e s r e' s' k n events)
    (sender : Sender) (time : Nat) : marks_of H sender time events =
      ((due current_time e.world.order s).take k).map fun entry => .sent sender entry.1 time := by
  rw [marks_of_sent sender time handed.unstored]
  refine handed.told (again_mark sender time) fun pid packet created => ?_
  simp only [packet_mark, lawful_shape (H := H) LawfulHandler.pubrel created]

theorem pinging_still : Moves Still (pinging : ClientM H P E Unit) :=
  clock.bind fun _ => Moves.get.bind fun _ => Moves.onlyIf fun _ => ping

omit [LawfulHandler H P E] in
/-- Until it comes to `handle_retries` a poll leaves the session alone. -/
theorem pinging_spec {c : MqttClient H P E} (idle : c.Idle) : wp pinging c fun _ c' =>
    c'.session_state = c.session_state ∧ Kept c.protocol_engine c'.protocol_engine ∧
      (Flows c.protocol_engine → Flows c'.protocol_engine) := by
  rw [pinging, wp_bind, wp_zoom, current_timestamp_ms, wp_ofExec]
  simp only []
  have looked : Kept c.protocol_engine { c.protocol_engine with
      world := { c.protocol_engine.world with now := fun n => c.protocol_engine.world.now (n + 1) }
      log := c.protocol_engine.log ++ [.clock (c.protocol_engine.world.now 0)] } := ⟨id, rfl, rfl, rfl⟩
  rw [wp_bind, wp_get]
  simp only [onlyIf]
  split
  swap
  · exact ⟨rfl, looked, fun flows => ⟨flows.write, flows.flush⟩⟩
  rw [MqttClient.ping, MqttClient.whenConnected, wp_bind, wp_get]
  simp only []
  split
  · exact ⟨rfl, looked, fun flows => ⟨flows.write, flows.flush⟩⟩
  rw [wp_zoom, MqttProtocolEngine.ping, wp_bind, wp_get]
  simp only []
  split
  · exact ⟨rfl, looked, fun flows => ⟨flows.write, flows.flush⟩⟩
  refine wp_mono (send_packet_departs _ (by exact idle)) fun r e departs => ?_
  exact ⟨rfl, looked.trans departs.kept, fun flows => (departs.flows ⟨flows.write, flows.flush⟩).1⟩

omit [LawfulHandler H P E] in
theorem until_receive_eq (c : MqttClient H P E) : exec Flags.until_receive c =
    exec (pinging >>= fun _ => zoom engineSession (handle_retries (c.protocol_engine.world.now 0))) c := by
  have clocked : exec (zoom engine current_timestamp_ms) c =
      (.ok (c.protocol_engine.world.now 0), (exec (zoom engine current_timestamp_ms) c).2) := rfl
  rw [Flags.until_receive, pinging, bind_assoc, exec_bind, clocked]
  conv_rhs => rw [exec_bind, clocked]
  simp only [bind_assoc]

omit [LawfulHandler H P E] in
theorem handling_some {c c₁ : MqttClient H P E} (handles : handling c = some c₁) : exec pinging c = (.ok (), c₁) ∧
    exec MqttClient.poll c = exec (zoom engineSession (handle_retries (c.protocol_engine.world.now 0)) >>= fun _ =>
      MqttClient.receive) c₁ := by
  unfold handling at handles
  split at handles
  swap
  · cases handles
  rename_i up
  rcases ran : exec pinging c with ⟨h | _, c'⟩ <;> rw [ran] at handles <;> cases handles
  refine ⟨rfl, ?_⟩
  have begun : exec Flags.until_receive c =
      exec (zoom engineSession (handle_retries (c.protocol_engine.world.now 0))) c₁ := by
    rw [until_receive_eq, exec_bind, ran]
  rw [Flags.poll_linked up.1, Flags.poll_connected_eq, if_neg up.2, exec_bind, begun, ← exec_bind]

/-- A poll that does not come to `handle_retries` leaves the messages alone. -/
theorem poll_still {c : MqttClient H P E}
    (linked : c.state.connection_state = .Connected → c.protocol_engine.connected = true) (passes : handling c = none) :
    wp MqttClient.poll c fun _ c' => Still c c' := by
  by_cases up : c.protocol_engine.is_connected = true
  · rw [wp, Flags.poll_linked up, Flags.poll_connected_eq]
    split
    · exact (clock.bind fun _ => (entering _).bind fun _ => Moves.fail (α := Option ClientEvent) _) c
    rename_i early
    rw [handling, if_pos ⟨up, early⟩] at passes
    rw [exec_bind, until_receive_eq, exec_bind]
    have still := pinging_still c
    rcases ran : exec pinging c with ⟨h | _, c'⟩
    · rw [ran] at still
      exact still
    · rw [ran] at passes
      cases passes
  refine Reconnect.poll_seq (fun linked => absurd linked up) (fun _ connected _ => reconnect_still (linked connected))
    (fun _ _ c' err refused => ?_) (fun c' refused => refused.2) (fun c' refused => ?_) (fun _ _ _ => ?_) fun _ _ => ?_
  · exact refused.2.trans (entering .Disconnected c')
  · exact absurd rfl (refused.1 _)
  · exact entering .Disconnected c
  · exact .refl c

theorem poll_turns {c : MqttClient H P E} (resumes : Prop) {polls : Prop} (polled : polls) (idle : c.Idle)
    (linked : c.state.connection_state = .Connected → c.protocol_engine.connected = true) :
    wp MqttClient.poll c fun _ c' => Turns resumes polls .retry (c.protocol_engine.world.now 0) c c' := by
  cases handles : handling c with
  | none => exact wp_mono (poll_still linked handles) fun _ _ still => still.turns idle _ _ _ _
  | some c₁ =>
    obtain ⟨pinged, runs⟩ := handling_some handles
    have still := pinging_still c
    have known := pinging_spec idle
    rw [wp] at known
    rw [pinged] at still known
    obtain ⟨idle₁, ⟨events, log, unmarked⟩, -⟩ := still idle
    obtain ⟨session, kept, -⟩ := known
    suffices turns : wp (zoom engineSession (handle_retries (c.protocol_engine.world.now 0)) >>= fun _ =>
        MqttClient.receive) c₁ fun _ c' => Turns resumes polls .retry (c.protocol_engine.world.now 0) c c' by
      rw [wp, runs]
      exact turns
    have visited : ∀ time, due time c₁.protocol_engine.world.order c₁.session_state =
        due time c.protocol_engine.world.order c.session_state := fun time => by rw [kept.order, session]
    have passed : ∀ {r : Except (Halt MqttError) Unit} {e : MqttProtocolEngine H P E} {s : InMemorySession},
        Handles (c.protocol_engine.world.now 0) c₁.protocol_engine c₁.session_state r e s → ∀ c' more,
        c'.protocol_engine.log = e.log ++ more → (∀ event ∈ more, Unmarked H event) → Shrinks s c'.session_state →
        Turns resumes polls .retry (c.protocol_engine.world.now 0) c c' := by
      intro r e s handled c' more log' unmarked' shrinks
      obtain ⟨k, n, sent, handed⟩ := handled.handed
      have noted := handed_noted handed .retry (c.protocol_engine.world.now 0)
      have counts := handed.counts
      rw [visited] at noted counts
      rw [session] at counts
      refine ⟨events ++ sent ++ more, by rw [log', handed.log, log]; simp, ?_⟩
      rw [marks_of_append, marks_of_append, marks_of_unmarked unmarked, marks_of_unmarked unmarked', List.nil_append,
        List.append_nil, noted]
      exact .polled polled handles handed.less handed.most handed.falters counts shrinks
    rw [wp_bind, wp_zoom]
    refine wp_mono (handle_retries_spec _ idle₁ c₁.session_state) fun r st handled => ?_
    cases r with
    | error halt => exact passed handled _ [] (List.append_nil _).symm (by simp) (.same rfl)
    | ok _ =>
      have quiet : Still _ _ := receive (engineSession.set st c₁)
      have idle₂ : (engineSession.set st c₁).Idle := handled.kept.idle idle₁
      obtain ⟨-, ⟨more, log', unmarked'⟩, shrinks⟩ := quiet idle₂
      exact passed handled _ more log' unmarked' shrinks

end

/-! ### The operations -/

section
variable [Codec V5.Packet ErrorV5]

theorem publish_v5_turns {c : MqttClient V5Handler V5.Packet ErrorV5} (resumes polls : Prop) (idle : c.Idle)
    (topic : TopicName) (payload : Bytes) (config : PublishConfig) (v5_config : V5PublishConfig) :
    wp (MqttClient.publish_v5 topic payload config v5_config) c fun _ c' =>
      Turns resumes polls .publish (c.protocol_engine.world.now 0) c c' := by
  have nothing : Turns resumes polls .publish (c.protocol_engine.world.now 0) c c := (Still.refl c).turns idle _ _ _ _
  have counting : Moves Still (modify fun c => { c with state := c.state.record_message_sent } :
      ClientM V5Handler V5.Packet ErrorV5 PUnit) := fun _ => .aside rfl rfl (.same rfl)
  rw [MqttClient.publish_v5, MqttClient.whenConnected, wp_bind, wp_get]
  simp only []
  split
  · exact nothing
  rw [wp_bind, wp_get]
  simp only []
  split
  · exact nothing
  generalize c.protocol_engine.handler = handler
  by_cases level : config.qos = .Level0
  · simp only [level, publish_pid, store_pending, zoom_pure, pure_bind]
    refine Still.turns idle ((show Moves Still _ from ?_) c) _ _ _ _
    refine Moves.bind (fun _ => .aside rfl rfl (.same rfl)) fun _ => Moves.bind_ofExcept fun packet created => ?_
    refine (sending fun sender time => ?_).bind fun _ => counting
    obtain ⟨qp, carried, shaped⟩ := Operations.create_publish_with_config_shape created
    simp only [packet_mark, show shape (H := V5Handler) packet = _ from shaped, (qos_pid_level carried).2, Option.map_none]
  · obtain ⟨qp, carried, pid⟩ := Operations.publish_pid_level level c.session_state.next_pid
    obtain ⟨packet, created⟩ := Operations.create_publish_with_config_ok topic config.retain payload false v5_config handler
      carried
    obtain ⟨qp', carried', shaped⟩ := Operations.create_publish_with_config_shape created
    cases carried.symm.trans carried'
    rw [wp_bind, wp, Operations.exec_publish_pid level]
    simp only [created, ofExcept_ok, pure_bind]
    generalize (V5Handler.create_publish_with_config topic config.qos config.retain payload
      (some c.session_state.next_pid) false v5_config handler).2 = handler'
    -- The handler may as well change before the identifier is taken.
    let changed : MqttClient V5Handler V5.Packet ErrorV5 :=
      { c with protocol_engine := { c.protocol_engine with handler := handler' } }
    rw [wp_bind, wp_zoom, wp_modify]
    change wp (zoom engineSession (store_pending (some changed.session_state.next_pid) topic config.qos config.retain
      payload) >>= fun _ => _) (Operations.handed_out changed) _
    rw [wp_bind, wp, Operations.exec_store_pending]
    let stored := Operations.stored changed topic config.qos config.retain payload
    have idle₁ : (Operations.accepted changed topic config.qos config.retain payload).Idle := idle
    simp only []
    rw [wp_bind]
    refine wp_mono (stored_turns (H := V5Handler) (c := c) resumes polls idle₁ stored rfl rfl rfl rfl shaped pid)
      fun r c' turns => ?_
    cases r with
    | error _ => exact turns
    | ok _ => exact turns.aside rfl rfl

variable [Codec V3.Packet MqttProtoError] {v : Version}

/-- The operation that sends a message. -/
def sender : Op v → Sender
  | .connect | .reconnect => .resume
  | .poll => .retry
  | _ => .publish

/-- The reading of the clock that an operation takes before it sends messages: the first one, or
    after a connect the one at which the CONNACK arrived. -/
def time (call : Call v) : Nat :=
  match call.op with
  | .connect | .reconnect => call.world.now 1
  | _ => call.world.now 0

/-- What is noted of a call. -/
def marks (c : Client v) (call : Call v) : List Mark := marks_of v.Handler (sender call.op) (time call) (c.events call)

/-- The operation resumes the session of the client. -/
def Resuming (c : Client v) : Op v → Prop
  | .connect => Resumes c
  | .reconnect => Flags.Attempts c ∧ Resumes c
  | _ => False

/-- Every call makes of the messages what its events tell. -/
theorem call_turns {c : Client v} (reachable : c.Reachable) (call : Call v) :
    Turn (Resuming (c.withWorld call.world) call.op) (call.op = .poll) (c.withWorld call.world) (time call) (marks c call)
      (c.after call).session_state := by
  suffices turns : Turns (Resuming (c.withWorld call.world) call.op) (call.op = .poll) (sender call.op) (time call)
      (c.withWorld call.world) (c.after call) by
    obtain ⟨events, log, turn⟩ := turns
    have gained : c.events call = events := by
      rw [Client.events, log]
      exact List.drop_left
    rw [marks, gained]
    exact turn
  obtain ⟨op, world⟩ := call
  have idle : (c.withWorld world).Idle := reachable.idle
  have calm : ∀ {op : Op v}, Moves Still op.perform → Turns (Resuming (c.withWorld world) op) (op = .poll) (sender op)
      (time ⟨op, world⟩) (c.withWorld world) (c.after ⟨op, world⟩) := fun still =>
    (still (c.withWorld world)).turns idle _ _ _ _
  have result : ∀ {α : Type} (m : ClientM v.Handler v.Packet v.Error α) (f : α → Reply) {resumes polls : Prop}
      {sender : Sender} {time : Nat},
      (wp m (c.withWorld world) fun _ c' => Turns resumes polls sender time (c.withWorld world) c') →
      Turns resumes polls sender time (c.withWorld world) (exec (m >>= fun a => pure (f a)) (c.withWorld world)).2 := by
    intro α m f resumes polls sender time turns
    rw [exec_result_state]
    exact turns
  have linked : c.state.connection_state = .Connected → c.protocol_engine.connected = true :=
    Reconnect.connected_linked reachable
  cases published : message op with
  | some _ =>
    cases op with
    | publish topic payload config =>
      exact result (MqttClient.publish topic payload config) _ (publish_turns _ _ idle topic payload config)
    | publish_v5 topic payload config v5_config =>
      exact result (MqttClient.publish_v5 topic payload config v5_config) _ (publish_v5_turns _ _ idle _ _ _ _)
    | _ => cases published
  | none =>
    cases takes : Inflight.idle_op op with
    | false => exact calm (Inflight.request_moves (still_requests (H := v.Handler)) takes published)
    | true =>
      cases op with
      | connect => exact result MqttClient.connect _ (wp_mono (connect_opens idle _) fun _ _ opens => opens.turns)
      | reconnect => exact result MqttClient.reconnect _ (wp_mono (reconnect_opens idle _) fun _ _ opens => opens.turns)
      | poll => exact result MqttClient.poll _ (poll_turns _ rfl idle linked)
      | disconnect => exact calm (Moves.bind (disconnect (H := v.Handler)) fun _ => Moves.pure _)
      | ping => exact calm (Moves.bind (ping (H := v.Handler)) fun _ => Moves.pure _)
      | next_message => exact calm (Moves.bind (fun _ => .aside rfl rfl (.same rfl)) fun _ => Moves.pure _)
      | set_v5_config config => exact calm (Moves.bind (fun _ => .aside rfl rfl (.same rfl)) fun _ => Moves.pure _)
      | _ => cases takes

/-! ### Runs -/

/-- What was noted so far, and the client. -/
def step (s : List Mark × Client v) (call : Call v) : List Mark × Client v := (s.1 ++ marks s.2 call, s.2.after call)

/-- A new client, of whose messages nothing is noted. -/
def start (world : World v.Packet v.Error) (setup : v.Setup) (config : ClientConfig) : List Mark × Client v :=
  ([], MqttClient.new world (v.handler setup) config)

theorem start_reachable (world : World v.Packet v.Error) (setup : v.Setup) (config : ClientConfig) :
    (start world setup config).2.Reachable := ⟨world, setup, config, [], rfl⟩

/-- The call hands over every retransmission that it counts. -/
def Unfaltering (c : Client v) (call : Call v) : Prop :=
  call.op = .poll → ∀ c₁, handling (c.withWorld call.world) = some c₁ →
    ¬ Falters c₁.protocol_engine.handler c₁.protocol_engine.world.write c₁.protocol_engine.world.flush
      (retransmissions (time call) c₁)

/-- If the call resumes a session, then the pending messages are as allowed at its time. -/
def ResumesOnly (allowed : Nat → InflightMessage → Prop) (c : Client v) (call : Call v) : Prop :=
  Resuming (c.withWorld call.world) call.op → ∀ pid message,
    c.session_state.pending_publishes.lookup pid = some message → allowed (time call) message

end

/-- The transmissions of a message after one more note; what begins anew forgets the earlier ones. -/
def note (anew : Mark → Bool) (pid : Pid) (known : List (Sender × Nat)) (mark : Mark) : List (Sender × Nat) :=
  if anew mark then []
  else match mark with
    | .sent sender other time => if other = pid then known ++ [(sender, time)] else known
    | _ => known

/-- The transmissions of the message of the identifier, since it began anew. -/
def transmissions (anew : Pid → Mark → Bool) (pid : Pid) (noted : List Mark) : List (Sender × Nat) :=
  noted.foldl (note (anew pid) pid) []

theorem transmissions_append (anew : Pid → Mark → Bool) (pid : Pid) (noted more : List Mark) :
    transmissions anew pid (noted ++ more) = more.foldl (note (anew pid) pid) (transmissions anew pid noted) :=
  List.foldl_append

/-- Every message begins anew when it is stored, and with nothing that is sent. -/
structure Begins (anew : Pid → Mark → Bool) : Prop where
  stored : ∀ pid other, anew pid (.stored other) = decide (other = pid)
  sent : ∀ pid sender other time, anew pid (.sent sender other time) = false

/-- Messages that are sent are sent once each. -/
theorem fold_sent {anew : Pid → Mark → Bool} (begins : Begins anew) (pid : Pid) (sender : Sender) (time : Nat)
    {entries : List (Pid × InflightMessage)} (nodup : (entries.map Prod.fst).Nodup) (known : List (Sender × Nat)) :
    (entries.map fun entry => Mark.sent sender entry.1 time).foldl (note (anew pid) pid) known =
      known ++ if pid ∈ entries.map Prod.fst then [(sender, time)] else [] := by
  induction entries generalizing known with
  | nil => simp
  | cons entry rest ih =>
    obtain ⟨fresh, nodup⟩ := List.nodup_cons.mp nodup
    rw [List.map_cons, List.foldl_cons, ih nodup, note, begins.sent, List.map_cons]
    by_cases here : entry.1 = pid
    · subst here
      simp [fresh]
    · have kept : pid ∈ entry.1 :: rest.map Prod.fst ↔ pid ∈ rest.map Prod.fst := by simp [Ne.symm here]
      simp only [here, kept, Bool.false_eq_true, if_false]

/-- What holds of the transmissions of each message and of what is stored of it, if each call keeps it. -/
structure Ledger (anew : Pid → Mark → Bool) (allowed : Nat → InflightMessage → Prop) (steady : Prop)
    (I : List (Sender × Nat) → Option InflightMessage → Prop) : Prop where
  begins : Begins anew
  nothing : I [] none
  lost : ∀ known message, I known (some message) → I known none
  opened : ∀ pid known stored, I known stored → I (note (anew pid) pid known .opened) stored
  stored : ∀ message, message.retry_count = 0 → I [] (some message)
  published : ∀ message, message.retry_count = 0 → I [(.publish, message.timestamp)] (some message)
  resumed : ∀ pid known message time, allowed time message → I known (some message) →
    I (note (anew pid) pid known .opened ++ [(.resume, time)]) (some message)
  counted : ¬ steady → ∀ known message time, retries time message = true → I known (some message) →
    I known (some (Retries.counted time message))
  retried : ∀ known message time, retries time message = true → I known (some message) →
    I (known ++ [(.retry, time)]) (some (Retries.counted time message))

namespace Ledger
variable {anew : Pid → Mark → Bool} {allowed : Nat → InflightMessage → Prop} {steady : Prop}
  {I : List (Sender × Nat) → Option InflightMessage → Prop} (w : Ledger anew allowed steady I)
include w

theorem shrinks {s s' : InMemorySession} (shrinks : Shrinks s s') (pid : Pid) {known : List (Sender × Nat)}
    (holds : I known (s.pending_publishes.lookup pid)) : I known (s'.pending_publishes.lookup pid) := by
  cases after : s'.pending_publishes.lookup pid with
  | some message => rwa [shrinks pid message after] at holds
  | none =>
    cases before : s.pending_publishes.lookup pid with
    | none => rwa [before] at holds
    | some message =>
      rw [before] at holds
      exact w.lost known message holds

theorem opening {marks : List Mark} (opened : ∀ mark ∈ marks, mark = .opened) (pid : Pid) {known : List (Sender × Nat)}
    {stored : Option InflightMessage} (holds : I known stored) : I (marks.foldl (note (anew pid) pid) known) stored := by
  induction marks generalizing known with
  | nil => exact holds
  | cons mark rest ih =>
    obtain ⟨rfl, later⟩ := List.forall_mem_cons.mp opened
    exact ih later (w.opened pid known stored holds)

variable {H P E : Type} [MqttProtocolHandler H P E]

/-- Each call keeps it. -/
theorem turn {resumes polls : Prop} {c : MqttClient H P E} {time : Nat} {marks : List Mark} {s' : InMemorySession}
    (turn : Turn resumes polls c time marks s')
    (resuming : resumes → ∀ pid message, c.session_state.pending_publishes.lookup pid = some message → allowed time message)
    (unfaltering : steady → polls → ∀ c₁, handling c = some c₁ → ¬ Falters c₁.protocol_engine.handler
      c₁.protocol_engine.world.write c₁.protocol_engine.world.flush (retransmissions time c₁)) (pid : Pid)
    {noted : List Mark} (holds : I (transmissions anew pid noted) (c.session_state.pending_publishes.lookup pid)) :
    I (transmissions anew pid (noted ++ marks)) (s'.pending_publishes.lookup pid) := by
  rw [transmissions_append]
  generalize transmissions anew pid noted = known at holds
  cases turn with
  | opening opening =>
    cases opening with
    | still opened shrinks => exact w.opening opened pid (w.shrinks shrinks pid holds)
    | resumed k accepted kept =>
      have nodup : (((pending c).take k).map Prod.fst).Nodup :=
        ((List.take_sublist k (pending c)).map Prod.fst).nodup (iter_nodup _ _)
      rw [List.foldl_cons, fold_sent w.begins pid .resume time nodup, kept]
      split
      · rename_i member
        obtain ⟨⟨other, message⟩, listed, rfl⟩ := List.mem_map.mp member
        have stored : c.session_state.pending_publishes.lookup other = some message :=
          mem_iter.mp (List.mem_of_mem_take listed)
        rw [stored] at holds ⊢
        exact w.resumed other known message time (resuming accepted other message stored) holds
      · rw [List.append_nil]
        exact w.opened pid known _ holds
  | @published message marks s' fresh stamped inserted noted =>
    rw [inserted, lookup_insert_if]
    by_cases here : c.session_state.next_pid = pid
    · have stores : note (anew pid) pid known (.stored c.session_state.next_pid) = [] := by
        simp [note, w.begins.stored, here]
      rw [if_pos here.symm]
      rcases noted with rfl | rfl
      · rw [List.foldl_cons, List.foldl_nil, stores]
        exact w.stored message fresh
      · have sends : note (anew pid) pid [] (.sent .publish c.session_state.next_pid time) = [(.publish, time)] := by
          simp [note, w.begins.sent, here]
        rw [List.foldl_cons, List.foldl_cons, List.foldl_nil, stores, sends, ← stamped]
        exact w.published message fresh
    · have stores : note (anew pid) pid known (.stored c.session_state.next_pid) = known := by
        simp [note, w.begins.stored, here]
      have sends : note (anew pid) pid known (.sent .publish c.session_state.next_pid time) = known := by
        simp [note, w.begins.sent, here]
      rw [if_neg (Ne.symm here)]
      rcases noted with rfl | rfl
      · rwa [List.foldl_cons, List.foldl_nil, stores]
      · rwa [List.foldl_cons, List.foldl_cons, List.foldl_nil, stores, sends]
  | @polled c₁ s₁ s' n k polled handles less most falters counts shrinks =>
    refine w.shrinks shrinks pid ?_
    have nodup : (((due time c.protocol_engine.world.order c.session_state).take k).map Prod.fst).Nodup :=
      ((List.take_sublist _ _).map Prod.fst).nodup (due_nodup ..)
    rw [fold_sent w.begins pid .retry time nodup, counts.lookup]
    have counted : pid ∈ ((due time c.protocol_engine.world.order c.session_state).take k).map Prod.fst →
        pid ∈ ((due time c.protocol_engine.world.order c.session_state).take n).map Prod.fst := fun member =>
      List.map_subset _ (List.take_subset_take_left _ less) member
    have is_due : ∀ message, c.session_state.pending_publishes.lookup pid = some message →
        pid ∈ ((due time c.protocol_engine.world.order c.session_state).take n).map Prod.fst →
        retries time message = true := by
      intro message stored member
      obtain ⟨⟨other, message'⟩, listed, rfl⟩ := List.mem_map.mp member
      obtain ⟨stored', due⟩ := mem_due.mp (List.mem_of_mem_take listed)
      cases stored.symm.trans stored'
      exact due
    cases stored : c.session_state.pending_publishes.lookup pid with
    | none =>
      have missing : pid ∉ ((due time c.protocol_engine.world.order c.session_state).take k).map Prod.fst := by
        intro member
        obtain ⟨⟨other, message⟩, listed, rfl⟩ := List.mem_map.mp member
        cases stored.symm.trans (mem_due.mp (List.mem_of_mem_take listed)).1
      rw [if_neg missing, List.append_nil]
      rwa [stored] at holds
    | some message =>
      rw [stored] at holds
      rw [Option.bind_some]
      by_cases gone : drops time message = true
      · have missing : pid ∉ ((due time c.protocol_engine.world.order c.session_state).take k).map Prod.fst := by
          intro member
          rw [drops, is_due message stored (counted member)] at gone
          cases gone
        rw [if_pos gone, if_neg missing, List.append_nil]
        exact w.lost known message holds
      rw [if_neg gone]
      by_cases sent : pid ∈ ((due time c.protocol_engine.world.order c.session_state).take k).map Prod.fst
      · rw [if_pos sent, if_pos (counted sent)]
        exact w.retried known message time (is_due message stored (counted sent)) holds
      rw [if_neg sent, List.append_nil]
      split
      · rename_i begun
        refine w.counted (fun steadily => ?_) known message time (is_due message stored begun) holds
        rw [falters.mpr (unfaltering steadily polled c₁ handles)] at sent
        exact sent begun
      · exact holds

end Ledger

/-- A message begins anew when it is stored. -/
def since_stored (pid : Pid) : Mark → Bool
  | .stored other => decide (other = pid)
  | _ => false

/-- A message begins anew when it is stored, and when a connection is opened. -/
def on_connection (pid : Pid) : Mark → Bool
  | .stored other => decide (other = pid)
  | .opened => true
  | .sent .. => false

theorem since_stored_begins : Begins since_stored := ⟨fun _ _ => rfl, fun _ _ _ _ => rfl⟩
theorem on_connection_begins : Begins on_connection := ⟨fun _ _ => rfl, fun _ _ _ _ => rfl⟩

section
variable [Codec V5.Packet ErrorV5] [Codec V3.Packet MqttProtoError] {v : Version}

/-- What holds of the transmissions of every message. -/
def Holds (anew : Pid → Mark → Bool) (I : List (Sender × Nat) → Option InflightMessage → Prop)
    (s : List Mark × Client v) : Prop :=
  s.2.Reachable ∧ ∀ pid, I (transmissions anew pid s.1) (s.2.session_state.pending_publishes.lookup pid)

variable {anew : Pid → Mark → Bool} {allowed : Nat → InflightMessage → Prop} {steady : Prop}
  {I : List (Sender × Nat) → Option InflightMessage → Prop}

theorem Ledger.holds_start (w : Ledger anew allowed steady I) (world : World v.Packet v.Error) (setup : v.Setup)
    (config : ClientConfig) : Holds anew I (start world setup config) := by
  refine ⟨start_reachable world setup config, fun pid => ?_⟩
  have empty : (start world setup config).2.session_state.pending_publishes.lookup pid = none := AList.lookup_empty pid
  rw [empty]
  exact w.nothing

theorem Ledger.holds_step (w : Ledger anew allowed steady I) {s : List Mark × Client v} {call : Call v}
    (holds : Holds anew I s) (resuming : ResumesOnly allowed s.2 call) (unfaltering : steady → Unfaltering s.2 call) :
    Holds anew I (step s call) :=
  ⟨holds.1.after call, fun pid => w.turn (call_turns holds.1 call) resuming unfaltering pid (holds.2 pid)⟩

/-- Along a run that resumes messages only as allowed, and falters nowhere if it has to, it always holds. -/
theorem Ledger.holds_run (w : Ledger anew allowed steady I) (world : World v.Packet v.Error) (setup : v.Setup)
    (config : ClientConfig) {calls : List (Call v)}
    (along : Runs.Along step (fun s call => ResumesOnly allowed s.2 call ∧ (steady → Unfaltering s.2 call))
      (start world setup config) calls) : Holds anew I (Runs.run step (start world setup config) calls) :=
  Runs.invariant (fun _ _ holds each => w.holds_step holds each.1 each.2) (w.holds_start world setup config) along

end

end Masaka.History
