import Masaka.Pacing
import Masaka.Watchdog
import Masaka.Wire

/-!
The two timers of a connection. A PINGREQ goes out when nothing has been sent for a
keep-alive interval, and the connection times out when nothing has arrived for one
and a half. Nothing couples them but the packets that ask for an answer: while
these are sent, or a PINGREQ is due when the last arrival is an interval ago, the
timeout does not pass (`no_false_timeout`).
-/
namespace Masaka.KeepAlive
open Effect Tables Runs MqttProtocolHandler MqttProtocolEngine LawfulHandler Sending Flags
open MqttClient (engine engineSession)
open Watchdog (Watch Late Fed)

variable {H P E α : Type}

/-! ### What the log says -/

/-- The times that the clock showed. -/
def readings (log : List (Event P)) : List Nat := log.filterMap fun
  | .clock now => some now
  | _ => none

/-- The clock never went back. -/
def Monotone (log : List (Event P)) : Prop := (readings log).Pairwise (· ≤ ·)

instance (log : List (Event P)) : Decidable (Monotone log) := inferInstanceAs (Decidable (List.Pairwise _ _))

/-- A broker has to answer a packet of this shape. -/
def Demands : Shape → Bool
  | .connect _ | .pubrec _ | .pubrel _ | .subscribe _ _ | .unsubscribe _ _ | .pingreq => true
  | .publish message => message.qos_pid.pid.isSome
  | _ => false

@[simp] theorem readings_append (log more : List (Event P)) : readings (log ++ more) = readings log ++ readings more :=
  List.filterMap_append
@[simp] theorem readings_clock (now : Nat) (log : List (Event P)) : readings (.clock now :: log) = now :: readings log := rfl

theorem mem_readings {now : Nat} {log : List (Event P)} (shown : .clock now ∈ log) : now ∈ readings log :=
  List.mem_filterMap.mpr ⟨_, shown, rfl⟩

theorem Monotone.before {log more : List (Event P)} (monotone : Monotone (log ++ more)) {first second : Nat}
    (shown : first ∈ readings log) (later : second ∈ readings more) : first ≤ second := by
  rw [Monotone, readings_append, List.pairwise_append] at monotone
  exact monotone.2.2 first shown second later
theorem Monotone.later {log more : List (Event P)} {now time : Nat} (monotone : Monotone (log ++ .clock now :: more))
    (later : time ∈ readings more) : now ≤ time := by
  rw [← List.singleton_append, ← List.append_assoc] at monotone
  exact monotone.before (by simp) later

section
variable (H) [MqttProtocolHandler H P E] [LawfulHandler H P E]

/-- Whether a packet that demands an answer was just sent, and when the others were,
    since a packet last arrived. The clock is read after a packet is sent. -/
def note (known : Bool × List Nat) : Event P → Bool × List Nat
  | .received _ => (false, [])
  | .sent frame => (known.1 || Demands (shape (H := H) frame.packet), known.2)
  | .clock now => (false, if known.1 then known.2 ++ [now] else known.2)
  | _ => known

/-- When the packets were sent that demand an answer, since a packet last arrived. -/
def asked (log : List (Event P)) : List Nat := (log.foldl (note H) (false, [])).2

/-- What the timeout looks at, and what the broker has still to answer. -/
def watch (e : MqttProtocolEngine H P E) : Watch where
  arrival := e.last_packet_received_time
  asked := asked H e.log

variable {H}

theorem fold_readings (log : List (Event P)) (known : Bool × List Nat) {time : Nat}
    (member : time ∈ (log.foldl (note H) known).2) : time ∈ known.2 ∨ time ∈ readings log := by
  induction log generalizing known with
  | nil => exact .inl member
  | cons event log ih =>
    rcases ih (note H known event) member with earlier | later
    · cases event with
      | received packet => cases earlier
      | clock now =>
        simp only [note] at earlier
        split at earlier
        · rcases List.mem_append.mp earlier with before | same
          · exact .inl before
          · exact .inr (by simp [List.mem_singleton.mp same])
        · exact .inl earlier
      | _ => exact .inl earlier
    · right
      cases event <;> first | exact later | exact List.mem_cons_of_mem _ later

theorem asked_readings {log : List (Event P)} {time : Nat} (member : time ∈ asked H log) : time ∈ readings log :=
  (fold_readings log _ member).resolve_left (by simp)

theorem asked_past {log more : List (Event P)} {now : Nat} (clock : Monotone (log ++ .clock now :: more)) :
    ∀ time ∈ asked H log, time ≤ now := fun _ member => clock.before (asked_readings member) (by simp)

theorem asked_later {log more : List (Event P)} (nothing : asked H log = []) {time : Nat}
    (member : time ∈ asked H (log ++ more)) : time ∈ readings more := by
  rw [asked, List.foldl_append] at member
  refine (fold_readings more _ member).resolve_left ?_
  rw [asked] at nothing
  simp [nothing]

/-- As long as nothing arrives no demand is forgotten. -/
theorem fold_quiet (log : List (Event P)) (known : Bool × List Nat) (none : ∀ packet, .received packet ∉ log) :
    known.2 ⊆ (log.foldl (note H) known).2 := by
  induction log generalizing known with
  | nil => exact List.Subset.refl _
  | cons event log ih =>
    refine List.Subset.trans ?_ (ih _ fun packet member => none packet (List.mem_cons_of_mem _ member))
    cases event with
    | received packet => exact absurd List.mem_cons_self (none packet)
    | clock now =>
      simp only [note]
      split
      · exact List.subset_append_left _ _
      · exact List.Subset.refl _
    | _ => exact List.Subset.refl _

theorem asked_quiet {e e' : MqttProtocolEngine H P E} (quiet : Quiet e e') : asked H e.log ⊆ asked H e'.log := by
  obtain ⟨events, log, none⟩ := quiet.log
  rw [log, asked, asked, List.foldl_append]
  exact fold_quiet events _ none

/-- A packet that demands an answer is sent, and the clock is read. -/
theorem asked_sent {log writes : List (Event P)} {frame : Frame P} {flush : Answer Unit} {now : Nat}
    (demands : Demands (shape (H := H) frame.packet) = true) :
    now ∈ asked H (log ++ (writes ++ [.sent frame, .flush flush, .clock now])) := by
  rw [asked, ← List.append_assoc, List.foldl_append]
  simp [note, demands]

/-! ### Sending over a transport that works -/

/-- The transport is connected and takes all that it is given. -/
structure Works (world : World P E) : Prop where
  is_connected : world.is_connected = true
  write : Taking world.write
  flush : ∀ n, world.flush n = some (.ok ())

/-- Nothing waits to be written, and the transport works. -/
structure Open (e : MqttProtocolEngine H P E) : Prop where
  works : Works e.world
  queue : e.write_queue = []

omit [MqttProtocolHandler H P E] [LawfulHandler H P E] in
/-- What does not write leaves an engine open. -/
theorem Open.kept {e e' : MqttProtocolEngine H P E} (opened : Open e)
    (is_connected : e'.world.is_connected = e.world.is_connected) (write : e'.world.write = e.world.write)
    (flush : e'.world.flush = e.world.flush) (queue : e'.write_queue = e.write_queue) : Open e' :=
  ⟨⟨is_connected.trans opened.works.is_connected, write ▸ opened.works.write, flush ▸ opened.works.flush⟩,
    queue.trans opened.queue⟩

/-- The engine is open and has not yet read anything. -/
structure Clear (h : H) (read : Nat → Read P E) (e : MqttProtocolEngine H P E) : Prop extends Open e where
  handler : e.handler = h
  read : e.world.read = read

omit [LawfulHandler H P E] in
/-- Only the encoding can fail. -/
theorem sending_open (packet : P) {h : H} {read : Nat → Read P E} : Safe (Clear h read)
    (fun halt => ∃ err, encode_packet h packet = .error err ∧ halt = .err (into H err)) (send_packet (H := H) packet) := by
  intro e clear
  have sent := send_packet_spec packet clear.queue
  rw [wp] at sent
  generalize (exec (send_packet packet) e).1 = r at sent ⊢
  generalize (exec (send_packet packet) e).2 = e' at sent ⊢
  cases sent with
  | unencoded failed =>
    refine ⟨clear, fun halt stopped => ?_⟩
    cases stopped
    exact ⟨_, clear.handler ▸ failed, rfl⟩
  | encoded encoding transmission flushes =>
    have flushed : e.world.flush 0 = some (.ok ()) := clear.works.flush 0
    refine ⟨⟨⟨⟨clear.works.is_connected, transmission.taking clear.works.write, ?_⟩, rfl⟩, clear.handler, clear.read⟩, ?_⟩
    · rcases flushes with rfl | rfl
      · exact clear.works.flush
      · exact fun n => clear.works.flush (n + 1)
    · intro halt stopped
      cases transmission with
      | complete _ _ => cases stopped
      | unflushed _ failed =>
        rw [flushed] at failed
        cases failed
      | broken breaks => exact absurd clear.works.write breaks.not_taking

omit [LawfulHandler H P E] in
theorem sending_encoded {packet : P} {h : H} {read : Nat → Read P E} {bytes : VarBytes}
    (encodes : encode_packet h packet = .ok bytes) :
    Safe (Clear h read) (fun _ => False) (send_packet (H := H) packet) :=
  (sending_open packet).mono fun halt failed => by
    obtain ⟨err, fails, -⟩ := failed
    cases encodes.symm.trans fails

/-! ### Up to the read -/

/-- The packets of a fixed form can be encoded. -/
structure FixedForms (H : Type) {P E : Type} [MqttProtocolHandler H P E] : Prop where
  pingreq : ∀ h : H, ∃ bytes, encode_packet h (create_pingreq_packet h) = .ok bytes
  pubrel : ∀ (h : H) pid packet, create_pubrel_packet h pid = .ok packet → ∃ bytes, encode_packet h packet = .ok bytes

/-- The retransmission of the message can be encoded. -/
def Encodes (h : H) (pid : Pid) (message : InflightMessage) : Prop :=
  ∃ packet bytes, create_publish_packet h message.topic message.qos message.retain message.payload (some pid) true =
    .ok packet ∧ encode_packet h packet = .ok bytes

/-- The engine is clear, and the given messages can be sent again. -/
structure Ready (h : H) (read : Nat → Read P E) (due : List Pid) (s : MqttProtocolEngine H P E × InMemorySession) :
    Prop where
  clear : Clear h read s.1
  encodes : ∀ pid ∈ due, ∀ message, s.2.pending_publishes.lookup pid = some message → Encodes h pid message

section
variable {h : H} {read : Nat → Read P E} {due : List Pid}

omit [LawfulHandler H P E] in
theorem sending_ready {packet : P} {bytes : VarBytes} (encodes : encode_packet h packet = .ok bytes) :
    Safe (Ready h read due) (fun _ => False) (zoom first (send_packet (H := H) packet)) :=
  (sending_encoded encodes).zoom first (fun _ ready => ready.clear) fun _ _ ready clear => ⟨clear, ready.encodes⟩

omit [LawfulHandler H P E] in
theorem dropping (pid : Pid) : Safe (Ready h read due) (fun _ => False)
    (onSession (SessionState.complete_outgoing_publish pid) : SessionM H P E _) := by
  intro s ready
  refine ⟨⟨ready.clear, fun other member message stored => ?_⟩, fun _ stopped => by cases stopped⟩
  change (s.2.pending_publishes.erase pid).lookup other = some message at stored
  rw [lookup_erase_if] at stored
  split at stored
  · cases stored
  · exact ready.encodes other member message stored

omit [LawfulHandler H P E] in
theorem retry_publish_ready (current_time : Nat) {pid : Pid} (member : pid ∈ due) :
    Safe (Ready h read due) (fun _ => False) (MqttProtocolEngine.retry_publish current_time pid : SessionM H P E Unit) := by
  intro s ready
  rw [MqttProtocolEngine.retry_publish, exec_bind, exec_get]
  dsimp only
  cases stored : s.2.pending_publishes.lookup pid with
  | none =>
    simp only [SessionState.get_outgoing_publish_mut, stored, Option.map_none]
    exact Safe.pure _ s ready
  | some message =>
    simp only [SessionState.get_outgoing_publish_mut, stored, Option.map_some]
    obtain ⟨packet, bytes, created, encodes⟩ := ready.encodes pid member message stored
    rw [ready.clear.handler, created, ofExcept_ok, pure_bind]
    rw [exec_bind]
    -- What is written differs from what is stored only in the retry count and the time.
    refine sending_ready encodes _ ⟨ready.clear, fun other member message' stored' => ?_⟩
    change (s.2.pending_publishes.insert pid _).lookup other = some message' at stored'
    rw [lookup_insert_if] at stored'
    split at stored'
    · rename_i same
      cases stored'
      exact ready.encodes other member message (same ▸ stored)
    · exact ready.encodes other member message' stored'

theorem retry_pubrel_ready (fixed : FixedForms H) (current_time : Nat) (pid : Pid) :
    Safe (Ready h read due) (fun _ => False) (MqttProtocolEngine.retry_pubrel current_time pid : SessionM H P E Unit) := by
  intro s ready
  obtain ⟨packet, created, -⟩ := LawfulHandler.pubrel s.1.handler pid
  obtain ⟨bytes, encodes⟩ := fixed.pubrel _ _ _ created
  rw [MqttProtocolEngine.retry_pubrel, exec_bind, exec_get]
  dsimp only
  rw [created, ofExcept_ok, pure_bind]
  rw [ready.clear.handler] at encodes
  exact Safe.ite (sending_ready encodes) (Safe.pure _) s ready

/-- The retransmissions succeed if each can be encoded. -/
theorem handle_retries_ready (fixed : FixedForms H) (current_time : Nat) {s : MqttProtocolEngine H P E × InMemorySession}
    (clear : Clear h read s.1) (encodes : ∀ pid message, s.2.pending_publishes.lookup pid = some message →
      retries current_time message = true → Encodes h pid message) :
    wp (MqttProtocolEngine.handle_retries current_time) s fun r s' => Clear h read s'.1 ∧ r = .ok () := by
  rw [MqttProtocolEngine.handle_retries, wp_bind, wp_get]
  dsimp only
  generalize listed : (((SessionState.pending_outgoing_publishes s.1.world.order s.2).filter fun entry =>
    retries current_time entry.2).map Prod.fst) = to_retry
  have ready : Ready h read to_retry s := by
    refine ⟨clear, fun pid member message stored => ?_⟩
    rw [← listed] at member
    obtain ⟨entry, among, rfl⟩ := List.mem_map.mp member
    obtain ⟨pending, retried⟩ := List.mem_filter.mp among
    have stored' := mem_iter.mp pending
    cases stored.symm.trans stored'
    exact encodes _ _ stored retried
  refine wp_mono ((show Safe (Ready h read to_retry) (fun _ => False) _ from ?_).wp ready) fun r s' safe => ?_
  · refine Safe.bind (Safe.forM fun pid _ => (dropping pid).bind fun _ => Safe.pure _) fun _ => ?_
    refine Safe.bind (Safe.forM fun pid member => retry_publish_ready current_time member) fun _ => ?_
    exact Safe.get.bind fun _ => Safe.forM fun pid _ => retry_pubrel_ready fixed current_time pid
  refine ⟨safe.1.clear, ?_⟩
  cases r with
  | error halt => exact (safe.2 halt rfl).elim
  | ok _ => rfl

/-- A packet that demands an answer is sent. -/
theorem asking {packet : P} {bytes : VarBytes} {e : MqttProtocolEngine H P E} (opened : Open e)
    (demands : Demands (shape (H := H) packet) = true) (encodes : encode_packet e.handler packet = .ok bytes) :
    wp (send_packet (H := H) packet) e fun _ e' => asked H e'.log ≠ [] := by
  refine wp_mono (send_packet_spec (e := e) packet opened.queue) fun r e' sent => ?_
  obtain ⟨-, events, rest, log, transmission⟩ := sent.succeeds encodes opened.works.write (opened.works.flush 0)
  cases transmission with
  | complete writes flushed =>
    rw [log]
    exact List.ne_nil_of_mem (asked_sent demands)

/-- The keep-alive goes out, if client and engine are connected. -/
theorem pinging (fixed : FixedForms H) {c : MqttClient H P E} (clear : Clear h read c.protocol_engine)
    (state : c.state.connection_state = .Connected) (connected : c.protocol_engine.connected = true) :
    wp MqttClient.ping c fun r c' => r = .ok () ∧ Clear h read c'.protocol_engine ∧
      c'.session_state = c.session_state ∧ asked H c'.protocol_engine.log ≠ [] := by
  obtain ⟨bytes, encodes⟩ := fixed.pingreq c.protocol_engine.handler
  rw [MqttClient.ping, MqttClient.whenConnected, wp_bind, wp_get]
  simp only [state, ne_eq, not_true_eq_false, if_false]
  rw [wp_zoom, MqttProtocolEngine.ping, wp_bind, wp_get]
  simp only [MqttClient.engine_get, connected, Bool.not_true, Bool.false_eq_true, if_false]
  have demands : Demands (shape (H := H) (create_pingreq_packet c.protocol_engine.handler)) = true := by
    rw [LawfulHandler.pingreq]
    rfl
  have encodes' : encode_packet h (create_pingreq_packet c.protocol_engine.handler) = .ok bytes :=
    (congrArg (encode_packet · _) clear.handler.symm).trans encodes
  refine wp_mono (wp_and ((sending_encoded encodes').wp clear) (asking clear.toOpen demands encodes)) fun r e outcome => ?_
  obtain ⟨⟨clear, stops⟩, asks⟩ := outcome
  refine ⟨?_, clear, rfl, asks⟩
  cases r with
  | error halt => exact (stops halt rfl).elim
  | ok _ => rfl

/-- A poll comes to wait for a packet, after a keep-alive if one is due. -/
theorem until_receive_ready (fixed : FixedForms H) {c : MqttClient H P E} (clear : Clear h read c.protocol_engine)
    (encodes : ∀ pid message, c.session_state.pending_publishes.lookup pid = some message →
      retries (c.protocol_engine.world.now 0) message = true → Encodes h pid message)
    (pings : c.protocol_engine.should_send_keep_alive (c.protocol_engine.world.now 0) = true →
      c.state.connection_state = .Connected ∧ c.protocol_engine.connected = true) :
    wp until_receive c fun r c' => r = .ok () ∧ Clear h read c'.protocol_engine ∧
      (c.protocol_engine.should_send_keep_alive (c.protocol_engine.world.now 0) = true →
        asked H c'.protocol_engine.log ≠ []) := by
  rw [until_receive, wp_bind, wp_zoom, current_timestamp_ms, wp_ofExec]
  dsimp only [MqttClient.engine_get, MqttClient.engine_set]
  rw [wp_bind, wp_get]
  let now := c.protocol_engine.world.now 0
  have ticked : Clear h read (exec (current_timestamp_ms (E := E)) c.protocol_engine).2 :=
    ⟨clear.toOpen.kept rfl rfl rfl rfl, clear.handler, clear.read⟩
  refine wp_seq (R := fun r c' => r = .ok () ∧ Clear h read c'.protocol_engine ∧ c'.session_state = c.session_state ∧
    (c.protocol_engine.should_send_keep_alive now = true → asked H c'.protocol_engine.log ≠ [])) ?_ ?_ ?_
  · by_cases due : c.protocol_engine.should_send_keep_alive now = true
    · obtain ⟨state, connected⟩ := pings due
      rw [onlyIf, if_pos (by exact due)]
      refine wp_mono (pinging fixed ticked state connected) fun r c' outcome => ?_
      obtain ⟨returned, clear', session, asks⟩ := outcome
      exact ⟨returned, clear', session, fun _ => asks⟩
    · rw [onlyIf, if_neg (by exact due)]
      exact ⟨rfl, ticked, rfl, fun yes => absurd yes due⟩
  · intro _ c' known
    obtain ⟨-, clear', session, asks⟩ := known
    rw [wp_zoom]
    have quiet : Moves QuietS (MqttProtocolEngine.handle_retries now : SessionM H P E Unit) := steady_sweep.handle_retries now
    refine wp_mono (wp_and (handle_retries_ready fixed now (s := (c'.protocol_engine, c'.session_state)) clear' ?_)
      (quiet.wp _)) fun r s outcome => ?_
    · rw [session]
      exact encodes
    · obtain ⟨⟨clear'', returned⟩, quiet⟩ := outcome
      refine ⟨returned, clear'', fun due none => ?_⟩
      have grows := asked_quiet quiet
      have none' : asked H s.1.log = [] := none
      rw [none'] at grows
      exact asks due (List.subset_nil.mp grows)
  · intro halt c' known
    cases known.1

end

/-! ### The read -/

/-- A packet arrived at the time that the engine notes. -/
def Arrives (e e' : MqttProtocolEngine H P E) : Prop :=
  ∃ events, e'.log = e.log ++ events ∧ .clock e'.last_packet_received_time ∈ events

/-- A packet arrived, or there was none. -/
def Hears (e e' : MqttProtocolEngine H P E) : Prop :=
  Arrives e e' ∨ Quiet e e' ∧ ∀ packet, e.world.read 0 ≠ .packet packet

omit [MqttProtocolHandler H P E] [LawfulHandler H P E] in
theorem Arrives.quiet {e e' e'' : MqttProtocolEngine H P E} (arrives : Arrives e e') (quiet : Quiet e' e'') :
    Arrives e e'' := by
  obtain ⟨events, log, noted⟩ := arrives
  obtain ⟨more, log', -⟩ := quiet.log
  refine ⟨events ++ more, by rw [log', log, List.append_assoc], ?_⟩
  rw [quiet.arrival]
  exact List.mem_append_left _ noted
omit [MqttProtocolHandler H P E] [LawfulHandler H P E] in
theorem Hears.quiet {e e' e'' : MqttProtocolEngine H P E} (hears : Hears e e') (quiet : Quiet e' e'') : Hears e e'' :=
  hears.imp (·.quiet quiet) fun known => ⟨known.1.trans quiet, known.2⟩
omit [MqttProtocolHandler H P E] [LawfulHandler H P E] in
theorem Arrives.after_quiet {e e' e'' : MqttProtocolEngine H P E} (quiet : Quiet e e') (arrives : Arrives e' e'') :
    Arrives e e'' := by
  obtain ⟨events, log, -⟩ := quiet.log
  obtain ⟨more, log', noted⟩ := arrives
  exact ⟨events ++ more, by rw [log', log, List.append_assoc], List.mem_append_right _ noted⟩

omit [LawfulHandler H P E] in
theorem hearing : Moves Hears (receive_packet_unlogged : EngineM H P E PacketAction) := by
  intro e
  rw [receive_packet_unlogged, exec_bind, read_from_transport, exec_ofExec]
  cases answer : e.world.read 0 with
  | failed consumed err => exact .inr ⟨.aside rfl rfl rfl rfl, by simp [answer]⟩
  | waiting consumed => exact .inr ⟨.aside rfl rfl rfl rfl, by simp [answer]⟩
  | packet packet =>
    left
    refine ⟨[.received packet, .clock (e.world.now 0)], ?_⟩
    simp only [exec_bind, current_timestamp_ms, exec_ofExec, exec_modify, exec_get, update_last_received_time, record]
    cases handle_packet e.handler packet <;> simp

omit [LawfulHandler H P E] in
theorem receive_hears (c : MqttClient H P E) :
    wp MqttClient.receive c fun _ c' => Hears c.protocol_engine c'.protocol_engine := by
  have receiving : wp receive_packet (c.protocol_engine, c.session_state) fun _ s => Hears c.protocol_engine s.1 := by
    rw [receive_packet, wp_bind, wp_zoom]
    refine wp_mono (hearing.wp c.protocol_engine) fun r e hears => ?_
    cases r with
    | error halt => exact hears
    | ok action =>
      dsimp only
      rw [wp_bind]
      refine wp_mono ((steady_sweep.acknowledge action).wp _) fun r s quiet => ?_
      cases r <;> exact hears.quiet quiet
  rw [MqttClient.receive, wp_bind, wp_attempt, wp_zoom]
  refine wp_mono receiving fun r s hears => ?_
  rcases r with (err | _) | action
  · exact hears
  · exact hears
  · have acting : Moves Steady (MqttClient.handle_packet_action (H := H) (P := P) (E := E) action) :=
      steady_sweep.handle_packet_action action
    exact hears.quiet (acting (engineSession.set s c)).engine

/-! ### The errors of a read -/

/-- The computation was not stopped by the timeout. -/
def Apart (halt : Halt MqttError) : Prop := halt ≠ .err (.Transport .Timeout)

section
variable (apart : ∀ err : E, into H err ≠ .Transport .Timeout)
include apart

omit [LawfulHandler H P E] in
theorem into_apart (err : E) : Apart (.err (into H err)) := fun same => apart err (Halt.err.inj same)

omit [LawfulHandler H P E] in
theorem sending_apart (packet : P) : Safe Open Apart (send_packet (H := H) packet) := by
  intro e opened
  have clear : Clear e.handler e.world.read e := ⟨opened, rfl, rfl⟩
  obtain ⟨clear, stops⟩ := sending_open packet e clear
  refine ⟨clear.toOpen, fun halt stopped => ?_⟩
  obtain ⟨err, -, rfl⟩ := stops halt stopped
  exact into_apart apart err

omit [LawfulHandler H P E] in
theorem replying_apart (create : H → Except E P) : Safe (fun s => Open s.1) Apart (get >>= fun s =>
    ofExcept (into H) (create s.1.handler) >>= fun packet => zoom first (send_packet packet) : SessionM H P E Unit) :=
  Safe.get.bind fun _ => Safe.bind_ofExcept
    (fun packet _ => (sending_apart apart packet).zoom first (fun _ opened => opened) fun _ _ _ opened => opened)
    fun err _ => into_apart apart err

omit [LawfulHandler H P E] [MqttProtocolHandler H P E] apart in
theorem onSession_apart (f : InMemorySession → α × InMemorySession) :
    Safe (fun s => Open s.1) Apart (onSession f : SessionM H P E α) := fun _ opened =>
  ⟨opened, fun _ stopped => by cases stopped⟩

omit [LawfulHandler H P E] in
theorem acknowledge_apart (action : PacketAction) :
    Safe (fun s => Open s.1) Apart (MqttProtocolEngine.acknowledge action : SessionM H P E Unit) := by
  cases action with
  | PublishAck pid => exact (onSession_apart _).bind fun _ => Safe.pure _
  | PublishComplete pid => exact (onSession_apart _).bind fun _ => (onSession_apart _).bind fun _ => Safe.pure _
  | PublishRec pid =>
    refine (onSession_apart _).bind fun found => ?_
    cases found with
    | none => exact Safe.pure _
    | some message =>
      have storing : Safe (fun s => Open s.1) Apart (trySession (SessionState.store_outgoing_pubrel pid) :
          SessionM H P E Unit) := fun _ opened => ⟨opened, fun _ stopped => by cases stopped⟩
      refine Safe.get.bind fun _ => Safe.bind_ofExcept (fun packet _ => ?_) fun err _ => into_apart apart err
      exact Safe.bind ((sending_apart apart packet).zoom first (fun _ opened => opened) fun _ _ _ opened => opened)
        fun _ => storing
  | PublishRelease pid => exact replying_apart apart fun h => create_pubcomp_packet h pid
  | PublishReceived topic qos retain payload pid =>
    cases pid with
    | none => cases qos <;> exact Safe.pure _
    | some pid =>
      cases qos with
      | Level0 => exact Safe.pure _
      | Level1 => exact replying_apart apart fun h => create_puback_packet h pid
      | Level2 => exact replying_apart apart fun h => create_pubrec_packet h pid
  | ConnectAck _ _ | SubscribeAck _ _ | UnsubscribeAck _ | PingResponse | None => exact Safe.pure _

omit [LawfulHandler H P E] in
theorem reading_apart : Safe Open Apart (receive_packet_unlogged : EngineM H P E PacketAction) := by
  have reading : Safe Open Apart (read_from_transport (H := H) : EngineM H P E P) := by
    intro e opened
    rw [read_from_transport, exec_ofExec]
    cases e.world.read 0 with
    | packet packet => exact ⟨opened.kept rfl rfl rfl rfl, fun _ stopped => by cases stopped⟩
    | failed consumed err =>
      refine ⟨opened.kept rfl rfl rfl rfl, fun halt stopped => ?_⟩
      cases stopped
      exact into_apart apart err
    | waiting consumed =>
      refine ⟨opened.kept rfl rfl rfl rfl, fun halt stopped => ?_⟩
      cases stopped
      exact fun same => by cases same
  have clocking : Safe Open Apart (current_timestamp_ms : EngineM H P E Nat) := fun e opened =>
    ⟨opened.kept rfl rfl rfl rfl, fun _ stopped => by cases stopped⟩
  refine reading.bind fun packet => clocking.bind fun time => ?_
  refine Safe.bind (Safe.modify fun e opened => opened.kept rfl rfl rfl rfl) fun _ => Safe.get.bind fun e => ?_
  cases handle_packet e.handler packet with
  | ok action => exact Safe.pure action
  | error err => exact Safe.fail (into_apart apart err)

omit [MqttProtocolHandler H P E] [LawfulHandler H P E] apart in
/-- Confirming a subscription fails only for want of room. -/
theorem confirming_apart (pid : Pid) (return_codes : List UInt8) :
    Safe (fun c : MqttClient H P E => Open c.protocol_engine) Apart
      (MqttClient.trySession (SessionState.confirm_subscription pid return_codes) : ClientM H P E Unit) := by
  intro c opened
  rw [Operations.exec_trySession]
  refine ⟨opened, fun halt stopped => ?_⟩
  have full : ∀ err, (SessionState.confirm_subscription pid return_codes c.session_state).1 = .error err →
      err = .Internal := by
    intro err failed
    unfold SessionState.confirm_subscription at failed
    split at failed
    · split at failed
      · dsimp only at failed
        split at failed <;> cases failed
        rfl
      · cases failed
    · cases failed
  cases result : (SessionState.confirm_subscription pid return_codes c.session_state).1 with
  | ok _ => rw [result] at stopped; cases stopped
  | error err =>
    rw [result] at stopped
    cases stopped
    rw [full err result]
    exact fun same => by cases same

omit [LawfulHandler H P E] in
theorem receive_apart {c : MqttClient H P E} (opened : Open c.protocol_engine) :
    wp MqttClient.receive c fun r _ => ∀ halt, r = .error halt → Apart halt := by
  have receiving : Safe (fun s => Open s.1) Apart (receive_packet : SessionM H P E PacketAction) :=
    Safe.bind ((reading_apart apart).zoom first (fun _ opened => opened) fun _ _ _ opened => opened) fun action =>
      (acknowledge_apart apart action).bind fun _ => Safe.pure _
  rw [MqttClient.receive, wp_bind, wp_attempt, wp_zoom]
  refine wp_mono (receiving.wp opened) fun r s outcome => ?_
  obtain ⟨opened', stops⟩ := outcome
  rcases r with (err | _) | action
  · rintro halt stopped
    cases stopped
    exact stops _ rfl
  · rintro halt stopped
    cases stopped
    exact stops _ rfl
  have acting : Safe (fun c : MqttClient H P E => Open c.protocol_engine) Apart
      (MqttClient.handle_packet_action action : ClientM H P E _) := by
    cases action with
    | PublishReceived topic qos retain payload pid =>
      have clocking : Safe (fun c : MqttClient H P E => Open c.protocol_engine) Apart
          (zoom engine current_timestamp_ms : ClientM H P E Nat) := fun c opened =>
        ⟨opened.kept rfl rfl rfl rfl, fun _ stopped => by cases stopped⟩
      exact clocking.bind fun time => Safe.bind (Safe.modify fun _ opened => opened) fun _ => Safe.pure _
    | SubscribeAck pid codes => exact (confirming_apart pid codes).bind fun _ => Safe.pure _
    | _ => exact Safe.pure _
  exact (acting (engineSession.set s c) opened').2

/-! ### A poll -/

/-- The client once the clock has been read. -/
def ticked (c : MqttClient H P E) : MqttClient H P E := (exec (zoom engine current_timestamp_ms) c).2

omit [LawfulHandler H P E] apart in
theorem until_receive_ticked (c : MqttClient H P E) : wp until_receive c fun _ c' => Steady (ticked c) c' := by
  have clocked : exec (zoom engine current_timestamp_ms) c = (.ok (c.protocol_engine.world.now 0), ticked c) := rfl
  rw [wp, until_receive, exec_bind, clocked]
  refine (show Moves Steady _ from ?_) (ticked c)
  refine Moves.get.bind fun _ => Moves.bind (Moves.onlyIf fun _ => steady_sweep.ping) fun _ => ?_
  exact ofSession (steady_sweep.handle_retries _)

/-- What a poll at the given time finds: the retransmissions that are due can be
    encoded, and if a keep-alive is due then the client is connected. -/
structure Sendable (now : Nat) (c : MqttClient H P E) : Prop where
  encodes : ∀ pid message, c.session_state.pending_publishes.lookup pid = some message →
    retries now message = true → Encodes c.protocol_engine.handler pid message
  connected : c.protocol_engine.should_send_keep_alive now = true → c.state.connection_state = .Connected

/-- How a poll before the timeout ends: not with the timeout, and a packet is received
    if there is one; if a keep-alive is due an answer has been asked for. -/
structure Heard (c : MqttClient H P E) (r : Except (Halt MqttError) α) (c' : MqttClient H P E) : Prop where
  apart : ∀ halt, r = .error halt → Apart halt
  hears : Arrives (ticked c).protocol_engine c'.protocol_engine ∨
    Quiet (ticked c).protocol_engine c'.protocol_engine ∧
      (∀ packet, c.protocol_engine.world.read 0 ≠ .packet packet) ∧
      (c.protocol_engine.should_send_keep_alive (c.protocol_engine.world.now 0) = true →
        asked H c'.protocol_engine.log ≠ [])

theorem poll_connected_heard (fixed : FixedForms H) {c : MqttClient H P E} (opened : Open c.protocol_engine)
    (connected : c.protocol_engine.connected = true) (sendable : Sendable (c.protocol_engine.world.now 0) c)
    (in_time : ¬ c.protocol_engine.is_connection_timeout (c.protocol_engine.world.now 0) = true) :
    wp MqttClient.poll_connected c (Heard c) := by
  rw [wp, poll_connected_eq, if_neg in_time]
  change wp (until_receive >>= fun _ => MqttClient.receive) c (Heard c)
  refine wp_seq (wp_and (until_receive_ready fixed ⟨opened, rfl, rfl⟩ sendable.encodes fun due =>
    ⟨sendable.connected due, connected⟩) (until_receive_ticked c)) (fun _ c₁ known => ?_) fun halt c₁ known => ?_
  · obtain ⟨⟨-, clear, asks⟩, steady⟩ := known
    refine wp_mono (wp_and (receive_hears c₁) (receive_apart apart clear.toOpen)) fun r c' outcome => ?_
    obtain ⟨hears, stops⟩ := outcome
    refine ⟨stops, ?_⟩
    rcases hears with arrives | ⟨quiet, none⟩
    · exact .inl (arrives.after_quiet steady.engine)
    · refine .inr ⟨steady.engine.trans quiet, clear.read ▸ none, fun due nothing => ?_⟩
      have grows := asked_quiet quiet
      rw [nothing] at grows
      exact asks due (List.subset_nil.mp grows)
  · cases known.1.1

omit [LawfulHandler H P E] apart in
theorem timeout_iff {e : MqttProtocolEngine H P E} {now : Nat} (positive : 0 < e.keep_alive_interval_ms) [LawfulHandler H P E] :
    e.is_connection_timeout now = true ↔ Late e.keep_alive_interval_ms now (watch H e) := by
  have some_interval : e.keep_alive_interval_ms ≠ 0 := by omega
  rw [is_connection_timeout, if_neg some_interval, decide_eq_true_eq]
  rfl

/-- A poll at the next look feeds the watchdog, and finds that it has not gone off. -/
theorem poll_connected_fed (fixed : FixedForms H) {look period : Nat} {c : MqttClient H P E} (opened : Open c.protocol_engine)
    (connected : c.protocol_engine.connected = true) (paced : c.protocol_engine.keep_alive_interval_ms = period)
    (positive : 0 < period) (even : 2 ∣ period) (fed : Fed period look (watch H c.protocol_engine))
    (often : 8 * c.protocol_engine.world.now 0 ≤ 8 * look + period)
    (answers : ∀ time ∈ asked H c.protocol_engine.log, 8 * time + period ≤ 8 * c.protocol_engine.world.now 0 →
      ∃ packet, c.protocol_engine.world.read 0 = .packet packet)
    (sendable : Sendable (c.protocol_engine.world.now 0) c)
    (due : asked H c.protocol_engine.log = [] →
      c.protocol_engine.last_packet_received_time + period ≤ c.protocol_engine.world.now 0 →
        c.protocol_engine.should_send_keep_alive (c.protocol_engine.world.now 0) = true)
    (clock : Monotone (exec MqttClient.poll_connected c).2.protocol_engine.log) :
    wp MqttClient.poll_connected c fun r c' => (∀ halt, r = .error halt → Apart halt) ∧
      Fed period (c.protocol_engine.world.now 0) (watch H c'.protocol_engine) := by
  let now := c.protocol_engine.world.now 0
  let log := (exec MqttClient.poll_connected c).2.protocol_engine.log
  -- The clock is read first, so the demands known at the look were made before it.
  have shown : ∀ more, log = (ticked c).protocol_engine.log ++ more → log = c.protocol_engine.log ++ .clock now :: more :=
    fun more same => same.trans (List.append_assoc _ [.clock now] more)
  have ordered : ∀ more, log = (ticked c).protocol_engine.log ++ more →
      Monotone (c.protocol_engine.log ++ .clock now :: more) := by
    intro more same
    rw [← shown more same]
    exact clock
  have in_time : ¬ c.protocol_engine.is_connection_timeout now = true := by
    intro late
    have same : log = (ticked c).protocol_engine.log ++ [] := by
      change (exec MqttClient.poll_connected c).2.protocol_engine.log = _
      rw [poll_connected_eq, if_pos late, List.append_nil]
      rfl
    rw [timeout_iff (by omega), paced] at late
    exact fed.in_time positive even often (asked_past (ordered [] same)) late
  have heard := poll_connected_heard apart fixed opened connected sendable in_time
  refine ⟨heard.apart, ?_⟩
  rcases heard.hears with ⟨more, same, noted⟩ | ⟨quiet, none, asks⟩
  · -- A packet arrived after the clock was read.
    exact Watchdog.fed_arrival positive ((ordered more same).later (mem_readings noted))
  · have since : Quiet c.protocol_engine (exec MqttClient.poll_connected c).2.protocol_engine :=
      ((ofEngine Flags.clock) c).engine.trans quiet
    obtain ⟨more, same, -⟩ := quiet.log
    refine fed.next positive often (asked_past (ordered more same)) since.arrival (asked_quiet since) ?_ ?_
    · intro time member
      by_contra overdue
      obtain ⟨packet, there⟩ := answers time member (Nat.le_of_not_lt overdue)
      exact none packet there
    · intro nothing silent
      obtain ⟨time, member⟩ := List.exists_mem_of_ne_nil _ (asks (due nothing silent))
      refine ⟨time, member, ?_⟩
      have member : time ∈ asked H (c.protocol_engine.log ++ .clock now :: more) := by
        rw [← shown more same]
        exact member
      -- It is the reading of this look or a later one.
      rcases List.mem_cons.mp (asked_later nothing member) with this_look | later
      · exact this_look.ge
      · exact (ordered more same).later later

end

end

/-! ### Runs -/

section
variable [Codec V3.Packet MqttProtoError] [Codec V5.Packet ErrorV5] {v : Version}

def polls : Op v → Bool
  | .poll => true
  | _ => false

/-- The time when the last poll began, and the client, after a call. -/
def step (s : Nat × Client v) (call : Call v) : Nat × Client v :=
  (if polls call.op then call.world.now 0 else s.1, s.2.after call)

/-- The configured keep-alive interval. -/
def interval (c : Client v) : Nat := c.config.keep_alive.toNat * 1000

/-- A call of a run that is attended to: the client is not connected or disconnected,
    the transport works, the clock does not go back, polls begin at most an eighth of
    the interval apart, and a demand that old has an answer to read. -/
structure Attended (s : Nat × Client v) (call : Call v) : Prop where
  stays : polls call.op = true ∨ links call.op = false
  works : Works call.world
  clock : Monotone (s.2.after call).protocol_engine.log
  often : polls call.op = true → 8 * call.world.now 0 ≤ 8 * s.1 + interval s.2
  answers : polls call.op = true → ∀ time ∈ asked v.Handler s.2.protocol_engine.log,
    8 * time + interval s.2 ≤ 8 * call.world.now 0 → ∃ packet, call.world.read 0 = .packet packet

/-- A poll that finds nothing unsendable, and finds a keep-alive due if nothing has
    arrived for an interval and no answer has been asked for since. -/
def Careful (s : Nat × Client v) (call : Call v) : Prop :=
  polls call.op = true → Sendable (call.world.now 0) s.2 ∧ (asked v.Handler s.2.protocol_engine.log = [] →
    s.2.protocol_engine.last_packet_received_time + interval s.2 ≤ call.world.now 0 →
      s.2.protocol_engine.should_send_keep_alive (call.world.now 0) = true)

/-- A poll does not return the timeout. -/
def InTime (s : Nat × Client v) (call : Call v) : Prop :=
  polls call.op = true → (s.2.call call).1 ≠ .error (.err (.Transport .Timeout))

/-- As long as the engine is connected its watchdog was fed at the last poll. -/
structure Watched (s : Nat × Client v) : Prop where
  reachable : s.2.Reachable
  positive : 0 < interval s.2
  fed : s.2.protocol_engine.connected = true → Fed (interval s.2) s.1 (watch v.Handler s.2.protocol_engine)

theorem interval_after {c : Client v} (idle : c.Idle) (call : Call v) : interval (c.after call) = interval c := by
  rw [interval, (c.call_path idle call).2.1]
  rfl

theorem into_not_timeout (err : v.Error) : into v.Handler err ≠ .Transport .Timeout := by
  cases v <;> exact fun same => by cases same

/-- A call that is not a poll feeds nothing and forgets nothing. -/
theorem watched_calm {s : Nat × Client v} {call : Call v} (watched : Watched s) (calm : links call.op = false)
    (other : polls call.op = false) : Watched (step s call) := by
  have steady : Steady (s.2.withWorld call.world) (s.2.after call) := perform_steady calm _
  have same := interval_after watched.reachable.idle call
  refine ⟨watched.reachable.after call, ?_, fun connected => ?_⟩
  · change 0 < interval (s.2.after call)
    rw [same]
    exact watched.positive
  · change Fed (interval (s.2.after call)) (if polls call.op then call.world.now 0 else s.1) _
    rw [same, other]
    have before : s.2.protocol_engine.connected = true := steady.engine.connected.symm.trans connected
    have grows : asked v.Handler (s.2.withWorld call.world).protocol_engine.log ⊆
        asked v.Handler (s.2.after call).protocol_engine.log := asked_quiet steady.engine
    exact (watched.fed before).mono steady.engine.arrival grows

/-- How a poll ends says what it does to the watchdog, and that it does not return the timeout. -/
theorem watched_of_ends {s : Nat × Client v} {world : World v.Packet v.Error} (watched : Watched s)
    (ends : wp MqttClient.poll (s.2.withWorld world) fun r c' => (∀ halt, r = .error halt → Apart halt) ∧
      (c'.protocol_engine.connected = true → Fed (interval s.2) (world.now 0) (watch v.Handler c'.protocol_engine))) :
    Watched (step s ⟨.poll, world⟩) ∧ InTime s ⟨.poll, world⟩ := by
  obtain ⟨look, c⟩ := s
  have same := interval_after watched.reachable.idle ⟨.poll, world⟩
  have state := c.after_poll world
  have value := c.poll_returns world
  obtain ⟨apart, fed⟩ := ends
  refine ⟨⟨watched.reachable.after _, ?_, ?_⟩, ?_⟩
  · change 0 < interval (c.after ⟨.poll, world⟩)
    rw [same]
    exact watched.positive
  · change (c.after ⟨.poll, world⟩).protocol_engine.connected = true →
      Fed (interval (c.after ⟨.poll, world⟩)) (world.now 0) (watch v.Handler (c.after ⟨.poll, world⟩).protocol_engine)
    rw [same, state]
    exact fed
  · intro _ returned
    change (c.call ⟨.poll, world⟩).1 = _ at returned
    rw [value] at returned
    cases result : (exec MqttClient.poll (c.withWorld world)).1 with
    | ok event => rw [result] at returned; cases returned
    | error halt =>
      rw [result] at returned
      cases returned
      exact apart _ result rfl

/-- An attended and careful poll feeds the watchdog, if the engine stays connected. -/
theorem watched_poll (fixed : FixedForms v.Handler) {s : Nat × Client v} {world : World v.Packet v.Error}
    (watched : Watched s) (attended : Attended s ⟨.poll, world⟩) (careful : Careful s ⟨.poll, world⟩) :
    Watched (step s ⟨.poll, world⟩) ∧ InTime s ⟨.poll, world⟩ := by
  refine watched_of_ends watched ?_
  obtain ⟨look, c⟩ := s
  by_cases up : c.protocol_engine.connected = true
  · have polled : exec MqttClient.poll (c.withWorld world) = exec MqttClient.poll_connected (c.withWorld world) :=
      poll_linked (Bool.and_eq_true_iff.mpr ⟨up, attended.works.is_connected⟩)
    have clock := attended.clock
    have state := c.after_poll world
    change Monotone (c.after ⟨.poll, world⟩).protocol_engine.log at clock
    rw [state, polled] at clock
    have found := careful rfl
    have paced : c.protocol_engine.keep_alive_interval_ms = interval c := Pacing.paced_reachable watched.reachable up
    have fed := poll_connected_fed into_not_timeout fixed (c := c.withWorld world)
      ⟨attended.works, watched.reachable.idle⟩ up paced watched.positive (Dvd.dvd.mul_left (by decide) _)
      (watched.fed up) (attended.often rfl) (attended.answers rfl) ⟨found.1.encodes, found.1.connected⟩ found.2 clock
    rw [wp, polled]
    exact ⟨fed.1, fun _ => fed.2⟩
  · have down : c.protocol_engine.connected = false := Bool.eq_false_iff.mpr up
    have unlinked : c.state.connection_state ≠ .Connected := fun connected =>
      up (Reconnect.connected_linked watched.reachable connected)
    refine wp_mono (poll_unlinked (c := c.withWorld world) unlinked down) fun r c' known => ?_
    obtain ⟨returns, same⟩ := known
    refine ⟨fun halt stopped => ?_, fun connected => ?_⟩
    · rw [stopped] at returns
      cases returns
    · rw [same] at connected
      exact absurd connected up

/-- If every poll is careful then no poll of an attended run returns the timeout. -/
theorem no_false_timeout (fixed : FixedForms v.Handler) {c : Client v} (reachable : c.Reachable)
    (alive : 0 < c.config.keep_alive.toNat) {calls : List (Call v)}
    (attended : Along step Attended (c.protocol_engine.last_packet_received_time, c) calls)
    (careful : Along step Careful (c.protocol_engine.last_packet_received_time, c) calls) :
    Along step InTime (c.protocol_engine.last_packet_received_time, c) calls := by
  have positive : 0 < interval c := Nat.mul_pos alive (by decide)
  have advance : ∀ (s : Nat × Client v) (call : Call v), Watched s → Attended s call ∧ Careful s call →
      Watched (step s call) ∧ InTime s call := by
    intro s call watched conditions
    obtain ⟨attended, careful⟩ := conditions
    cases polling : polls call.op with
    | false =>
      refine ⟨watched_calm watched (attended.stays.resolve_left (by simp [polling])) polling, fun yes => ?_⟩
      cases polling.symm.trans yes
    | true =>
      obtain ⟨op, world⟩ := call
      cases op with
      | poll => exact watched_poll fixed watched attended careful
      | _ => cases polling
  refine along_imp (fun s call watched conditions => (advance s call watched conditions).1)
    (fun s call watched conditions => (advance s call watched conditions).2)
    ⟨reachable, positive, fun _ => Watchdog.fed_arrival positive (Nat.le_refl _)⟩ (along_and.mpr ⟨attended, careful⟩)

end

/-! ### A message that asks for nothing -/

section
local instance : Codec V3.Packet MqttProtoError := Wire.v3Codec
local instance : Codec V5.Packet ErrorV5 := Wire.v5Codec

/-- A client with a keep-alive interval of a second. -/
def hurried : Client .v3 := MqttClient.new (.obliging true []) (Version.handler .v3 ()) { keep_alive := 1 }
def connecting : Call .v3 := ⟨.connect, .obliging true [.Connack ⟨false, 0⟩]⟩

/-- A call at the given time, to a broker that sends nothing. -/
def at_time (now : Nat) (op : Op .v3) : Call .v3 := ⟨op, { World.obliging true [] with now := fun _ => now }⟩

/-- Polls every eighth of a second, and a message of level 0 between the fourth and the fifth. -/
def talking : List (Call .v3) :=
  [125, 250, 375, 500].map (at_time · .poll) ++ at_time 600 (.publish "a" [1] ⟨.Level0, false⟩) ::
    [625, 750, 875, 1000, 1125, 1250, 1375, 1500].map (at_time · .poll)

/-- Right after the connect. -/
def start : Nat × Client .v3 :=
  ((hurried.after connecting).protocol_engine.last_packet_received_time, hurried.after connecting)

/-- The call is attended to, because no answer is awaited. -/
def Awaits (s : Nat × Client .v3) (call : Call .v3) : Prop :=
  (polls call.op = true ∨ links call.op = false) ∧ Monotone (s.2.after call).protocol_engine.log ∧
    (polls call.op = true → 8 * call.world.now 0 ≤ 8 * s.1 + interval s.2) ∧
    asked V3Handler s.2.protocol_engine.log = []

/-- The client is connected, has nothing to send again, and knows when a keep-alive is due. -/
def Rests (s : Nat × Client .v3) (call : Call .v3) : Prop :=
  s.2.state.connection_state = .Connected ∧ s.2.session_state.pending_publishes.keys = [] ∧
    (s.2.protocol_engine.last_packet_received_time + interval s.2 ≤ call.world.now 0 →
      s.2.protocol_engine.should_send_keep_alive (call.world.now 0) = true)

instance (s : Nat × Client .v3) (call : Call .v3) : Decidable (Awaits s call) :=
  inferInstanceAs (Decidable (_ ∧ _ ∧ (_ → _) ∧ _))
instance (s : Nat × Client .v3) (call : Call .v3) : Decidable (Rests s call) :=
  inferInstanceAs (Decidable (_ ∧ _ ∧ (_ → _)))
instance (s : Nat × Client .v3) (call : Call .v3) : Decidable (InTime s call) := inferInstanceAs (Decidable (_ → _))

theorem attended_of_awaits {calls : List (Call .v3)} (timed : ∀ call ∈ calls, ∃ now op, call = at_time now op)
    (awaits : Along step Awaits start calls) : Along step Attended start calls := by
  refine along_imp (I := fun _ => True) (fun _ _ _ _ => trivial) (fun s call _ known => ?_) trivial
    (along_and.mpr ⟨awaits, along_forall timed start⟩)
  obtain ⟨⟨stays, clock, often, nothing⟩, now, op, rfl⟩ := known
  refine ⟨stays, ⟨rfl, fun _ => rfl, fun _ => rfl⟩, clock, often, fun _ time member => ?_⟩
  rw [nothing] at member
  cases member

theorem careful_of_rests {calls : List (Call .v3)} (rests : Along step Rests start calls) :
    Along step Careful start calls := by
  refine along_imp (I := fun _ => True) (fun _ _ _ _ => trivial) (fun s call _ known _ => ?_) trivial rests
  obtain ⟨state, empty, due⟩ := known
  refine ⟨⟨fun pid message stored => ?_, fun _ => state⟩, fun _ => due⟩
  have member := AList.mem_keys.mp (mem_iff_lookup.mpr ⟨message, stored⟩)
  rw [empty] at member
  cases member

/-- Polls until the first keep-alive is sent. -/
def watching : List (Call .v3) := [125, 250, 375, 500, 625, 750, 875, 1000].map (at_time · .poll)

theorem no_false_timeout_watching : Along step InTime start watching := by
  have fixed : FixedForms (P := V3.Packet) V3Handler := ⟨fun _ => ⟨_, rfl⟩, fun _ _ _ _ => ⟨_, rfl⟩⟩
  refine no_false_timeout (v := .v3) fixed ⟨_, (), _, [connecting], rfl⟩ (by decide)
    (attended_of_awaits ?_ (by decide +kernel)) (careful_of_rests (by decide +kernel))
  simp [watching]

/-- The message keeps the client from sending a keep-alive, and the last poll returns
    the timeout though every demand was answered. -/
theorem timeout_false : ¬ ∀ (c : Client .v3) (call : Call .v3) (calls : List (Call .v3)), c.Reachable →
    call.op = .connect → (c.call call).1 = .ok .unit → 0 < c.config.keep_alive.toNat →
    Along step Attended ((c.after call).protocol_engine.last_packet_received_time, c.after call) calls →
    Along step InTime ((c.after call).protocol_engine.last_packet_received_time, c.after call) calls := by
  intro in_time
  have attended : Along step Attended start talking :=
    attended_of_awaits (by simp [talking]) (by decide +kernel)
  have timely := in_time hurried connecting talking ⟨_, (), _, [], rfl⟩ rfl (by decide) (by decide) attended
  exact absurd timely (by decide +kernel)

end

end Masaka.KeepAlive
