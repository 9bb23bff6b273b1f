import Masaka.Flags
import Masaka.Wire

/-!
The attempts to reconnect. A call begins at most one, which waits for a delay and
then connects; an attempt is counted before it waits, and the count starts anew
when a CONNECT is accepted.
-/
namespace Masaka.Attempts
open Effect Runs MqttProtocolHandler MqttProtocolEngine Sending Flags
open MqttClient (engine engineSession)

variable {H P E α : Type}

/-- The delays that the events record, in order. -/
def delays (events : List (Event P)) : List UInt32 := events.filterMap fun
  | .delay ms => some ms
  | _ => none

@[simp] theorem delays_append (events more : List (Event P)) : delays (events ++ more) = delays events ++ delays more :=
  List.filterMap_append

/-- What an attempt changes: the engine's flag, the counters, and the delays so far. -/
def tally (c : MqttClient H P E) : Bool × UInt32 × UInt32 × List UInt32 :=
  (c.protocol_engine.connected, c.reconnect_attempt, c.reconnect_interval_ms, delays c.protocol_engine.log)

/-- Neither the flag nor the delays change. -/
def Undelayed (e e' : MqttProtocolEngine H P E) : Prop := e'.connected = e.connected ∧ delays e'.log = delays e.log

instance : Std.Refl (Undelayed (H := H) (P := P) (E := E)) := ⟨fun _ => ⟨rfl, rfl⟩⟩
instance : IsTrans (MqttProtocolEngine H P E) Undelayed :=
  ⟨fun _ _ _ first second => ⟨second.1.trans first.1, second.2.trans first.2⟩⟩

abbrev UndelayedS (s s' : MqttProtocolEngine H P E × InMemorySession) : Prop := Undelayed s.1 s'.1

instance : Std.Refl (UndelayedS (H := H) (P := P) (E := E)) := ⟨fun _ => ⟨rfl, rfl⟩⟩
instance : IsTrans (MqttProtocolEngine H P E × InMemorySession) UndelayedS :=
  ⟨fun _ _ _ first second => ⟨second.1.trans first.1, second.2.trans first.2⟩⟩

/-- Nothing that an attempt changes has changed. -/
def Untallied (c c' : MqttClient H P E) : Prop := tally c' = tally c

instance : Std.Refl (Untallied (H := H) (P := P) (E := E)) := ⟨fun _ => rfl⟩
instance : IsTrans (MqttClient H P E) Untallied := ⟨fun _ _ _ first second => second.trans first⟩

theorem Untallied.engine {c c' : MqttClient H P E} (same : Undelayed c.protocol_engine c'.protocol_engine)
    (attempt : c'.reconnect_attempt = c.reconnect_attempt) (interval : c'.reconnect_interval_ms = c.reconnect_interval_ms) :
    Untallied c c' := by
  rw [Untallied, tally, same.1, attempt, interval, same.2]
  rfl

theorem ofEngine {m : EngineM H P E α} (undelayed : Moves Undelayed m) : Moves Untallied (zoom engine m) :=
  undelayed.zoom engine fun _ _ same => .engine same rfl rfl
theorem ofSession {m : SessionM H P E α} (undelayed : Moves UndelayedS m) : Moves Untallied (zoom engineSession m) :=
  undelayed.zoom engineSession fun _ _ same => .engine same rfl rfl

/-- An event that is no delay. -/
theorem Undelayed.event {e e' : MqttProtocolEngine H P E} (event : Event P) (log : e'.log = e.log ++ [event])
    (other : delays [event] = []) (link : e'.connected = e.connected) : Undelayed e e' :=
  ⟨link, by rw [log, delays_append, other, List.append_nil]⟩

theorem recording (event : Event P) (other : delays [event] = []) :
    Moves Undelayed (modify (record event) : EngineM H P E PUnit) := fun _ => .event event rfl other rfl

theorem entering (new : ConnectionState) : Moves Untallied (MqttClient.set_connection_state new : ClientM H P E Unit) :=
  fun _ => rfl

/-- What leaves the connection as it is makes no attempt. -/
theorem undelayed_sweep : Sweep (H := H) (E := E) (fun e => e.world.read) (fun e : MqttProtocolEngine H P E => e.log)
    (fun _ m => Moves Undelayed m) (fun _ m => Moves UndelayedS m) fun _ m => Moves Untallied m where
  ofE := Moves.compositional _ _
  ofS := Moves.compositional _ _
  ofC := Moves.compositional _ _
  inEngine undelayed := undelayed.zoom first fun _ _ => id
  ofEngine := ofEngine
  ofSession := ofSession
  write _ := fun _ => Undelayed.event (.write _ _) rfl rfl rfl
  flush := fun _ => Undelayed.event (.flush _) rfl rfl rfl
  clock := fun _ => Undelayed.event (.clock _) rfl rfl rfl
  sent_time _ := fun _ => ⟨rfl, rfl⟩
  dequeued _ := fun _ => ⟨rfl, rfl⟩
  queued frame := fun _ => Undelayed.event (.queued frame) rfl rfl rfl
  sent frame := recording (.sent frame) rfl
  handed_out pid := recording (.handed_out pid) rfl
  accepted pid := recording (.accepted pid) rfl
  handler _ := fun _ => ⟨rfl, rfl⟩
  onSession _ := fun _ => ⟨rfl, rfl⟩
  counting := fun _ => rfl
  adding _ := fun _ => rfl
  removing _ := fun _ => rfl
  popping := fun _ => rfl

/-! ### Connecting -/

variable [MqttProtocolHandler H P E]

theorem receiving : Moves Undelayed (receive_packet_unlogged (H := H) (P := P) (E := E)) := fun e => by
  have waited : Waited e _ _ := receive_packet_unlogged_spec e
  refine ⟨waited.connected, ?_⟩
  rw [waited.log, delays_append]
  have silent : delays (arrival e) = [] := by
    unfold arrival
    split <;> rfl
  rw [silent, List.append_nil]

/-- The handshake of an engine whose flag is not set makes no attempt, and sets the flag if the CONNECT is accepted. -/
theorem handshake (id : String) (user : Option String) (pass : Option Bytes) (alive : UInt16) (clean : Bool)
    (topic : Option TopicName) (message : Option Bytes) (qos : Option QoS) (retain : Bool) {e : MqttProtocolEngine H P E}
    (free : e.connected = false) :
    wp (connect_with_will id user pass alive clean topic message qos retain) e fun r e' =>
      delays e'.log = delays e.log ∧ e'.connected = r.isOk ∧
        ∀ action, r = .ok action → ∃ session_present, action = .ConnectAck session_present 0 := by
  refine wp_and ?_ (connect_with_will_flag id user pass alive clean topic message qos retain free)
  let Same (e e' : MqttProtocolEngine H P E) : Prop := delays e'.log = delays e.log
  have : Std.Refl Same := ⟨fun _ => rfl⟩
  have : IsTrans _ Same := ⟨fun _ _ _ first second => second.trans first⟩
  have moves : Moves Same (connect_with_will id user pass alive clean topic message qos retain : EngineM H P E _) := by
    refine Moves.get.bind fun e => Moves.ite (fun _ => Moves.fail _) fun _ => Moves.bind (fun _ => rfl) fun _ => ?_
    refine Moves.bind_ofExcept fun packet _ => ?_
    refine Moves.bind ((undelayed_sweep.send_packet packet).mono fun _ _ => And.right) fun _ => ?_
    refine Moves.bind (receiving.mono fun _ _ => And.right) fun action => ?_
    cases action with
    | ConnectAck session_present return_code =>
      exact Moves.ite (fun _ => Moves.bind (fun _ => rfl) fun _ => Moves.pure _) fun _ => Moves.fail _
    | _ => exact Moves.fail _
  exact moves e

/-- A connect makes no attempt; if its CONNECT is accepted, the counters start anew. -/
theorem connect_tally (c : MqttClient H P E) : wp MqttClient.connect c fun _ c' => tally c' = tally c ∨
    c.protocol_engine.connected = false ∧ tally c' = (true, 0, 0, delays c.protocol_engine.log) := by
  have link := Reconnect.beginning_connected c
  have waits : delays (Reconnect.beginning c).protocol_engine.log = delays c.protocol_engine.log := by
    rw [Reconnect.beginning_log, delays_append]
    split <;> exact List.append_nil _
  refine Reconnect.connect_cases (fun _ _ => .inl rfl) (fun _ _ => .inl ?_) fun valid free => ?_
  · change ((Reconnect.beginning c).protocol_engine.connected, _, _, delays (Reconnect.beginning c).protocol_engine.log) = _
    rw [link, waits]
    rfl
  have unset : ∀ e : MqttProtocolEngine H P E, delays e.log = delays (Reconnect.beginning c).protocol_engine.log →
      e.connected = false → ∀ state, tally { Reconnect.beginning c with protocol_engine := e, state := state } = tally c := by
    intro e same down state
    change (e.connected, _, _, delays e.log) = (c.protocol_engine.connected, _, _, delays c.protocol_engine.log)
    rw [down, same, waits, free]
    rfl
  refine Reconnect.connect_seq valid (handshake _ _ _ _ _ _ _ _ _ (link.trans free)) (fun e err shook => ?_)
    (fun e action err shook other => ?_) (fun e shook => ?_) fun e session_present shook => ?_
  · exact .inl (unset e shook.1 shook.2.1 _)
  · obtain ⟨session_present, same⟩ := shook.2.2 action rfl
    exact absurd same (other session_present)
  · exact .inl (unset e shook.1 shook.2.1 _)
  · have resent : Moves Untallied (onlyIf (session_present && !c.config.clean_session) MqttClient.resend_pending_messages :
        ClientM H P E Unit) := Moves.onlyIf fun _ => undelayed_sweep.resend_pending_messages
    refine wp_mono (resent.wp _) fun r c' untallied => .inr ⟨free, untallied.trans ?_⟩
    change (e.connected, (0 : UInt32), (0 : UInt32), delays e.log) = _
    rw [shook.2.1, shook.1, waits]
    rfl

/-! ### Reconnecting -/

/-- A reconnect that has used up its attempts, or is disabled, fails and does nothing. -/
theorem reconnect_exhausted {c : MqttClient H P E}
    (exhausted : c.config.reconnect.enabled = true → ¬ Reconnect.AttemptsRemain c) :
    ∃ err, exec MqttClient.reconnect c = (.error (.err err), c) := by
  rw [MqttClient.reconnect, exec_bind, exec_get]
  by_cases enabled : c.config.reconnect.enabled = true
  · have none := exhausted enabled
    simp only [Reconnect.AttemptsRemain, not_or, UInt32.not_lt] at none
    have limited : 0 < c.config.reconnect.max_attempts := UInt32.pos_iff_ne_zero.mpr none.1
    simp only [enabled, limited, none.2, Bool.not_true, Bool.false_eq_true, if_false, decide_true, Bool.and_self, if_true]
    exact ⟨_, rfl⟩
  · simp only [enabled, Bool.not_false, if_true]
    exact ⟨_, rfl⟩

/-- A reconnect makes an attempt. -/
def MayAttempt (c : MqttClient H P E) : Prop := c.config.reconnect.enabled = true ∧ Reconnect.AttemptsRemain c

/-- The interval of the next attempt. -/
def interval (c : MqttClient H P E) : UInt32 := MqttClient.next_interval c.config.reconnect c.reconnect_interval_ms

/-- The client once it has counted an attempt and begun to wait. -/
def attempting (c : MqttClient H P E) : MqttClient H P E := { c with
  reconnect_attempt := c.reconnect_attempt + 1
  reconnect_interval_ms := interval c
  protocol_engine := { c.protocol_engine with
    world := { c.protocol_engine.world with delay := fun n => c.protocol_engine.world.delay (n + 1) }
    log := c.protocol_engine.log ++ [.delay (interval c)] } }

/-- An attempt is counted and waits; when it has waited, it is a connect. -/
theorem reconnect_attempt {c : MqttClient H P E} (may : MayAttempt c) : exec MqttClient.reconnect c =
    if c.protocol_engine.world.delay 0 then exec MqttClient.connect (attempting c) else (.error .cut, attempting c) := by
  obtain ⟨enabled, remain⟩ := may
  have more : ¬ (0 < c.config.reconnect.max_attempts ∧ c.config.reconnect.max_attempts ≤ c.reconnect_attempt) := by
    rcases remain with zero | less
    · simp [zero]
    · exact fun reached => UInt32.not_le.mpr less reached.2
  rw [MqttClient.reconnect, exec_bind, exec_get]
  simp only [enabled, Bool.not_true, Bool.false_eq_true, if_false, Bool.and_eq_true, decide_eq_true_eq, ge_iff_le,
    gt_iff_lt, more]
  rw [exec_bind, exec_modify]
  simp only [exec_bind]
  cases waited : c.protocol_engine.world.delay 0 with
  | true =>
    have ends : exec (zoom engine (delay (interval c))) { c with
        reconnect_attempt := c.reconnect_attempt + 1, reconnect_interval_ms := interval c } = (.ok (), attempting c) := by
      simp only [zoom, exec_ofExec, delay, MqttClient.engine_get, waited, if_true]
      rfl
    rw [show MqttClient.next_interval c.config.reconnect c.reconnect_interval_ms = interval c from rfl, ends]
    rfl
  | false =>
    have ends : exec (zoom engine (delay (interval c))) { c with
        reconnect_attempt := c.reconnect_attempt + 1, reconnect_interval_ms := interval c } =
          (.error .cut, attempting c) := by
      simp only [zoom, exec_ofExec, delay, MqttClient.engine_get, waited]
      rfl
    rw [show MqttClient.next_interval c.config.reconnect c.reconnect_interval_ms = interval c from rfl, ends]
    rfl

/-- What a call makes of the counters, from the delays that it begins and whether a CONNECT was accepted. -/
structure Tallied (c : MqttClient H P E) (begun : List UInt32) (accepted : Bool) (attempt ms : UInt32) : Prop where
  begins : begun = [] ∨ MayAttempt c ∧ begun = [interval c]
  attempt : attempt = if accepted then 0 else if begun = [] then c.reconnect_attempt else c.reconnect_attempt + 1
  interval : ms = if accepted then 0 else begun.getLastD c.reconnect_interval_ms

/-- A CONNECT was accepted: the engine's flag was not set, and is. -/
def turned_on (c c' : MqttClient H P E) : Bool := !c.protocol_engine.connected && c'.protocol_engine.connected

/-- What leads from one state to another is accounted for. -/
def Accounted (c c' : MqttClient H P E) : Prop := ∃ begun, delays c'.protocol_engine.log =
  delays c.protocol_engine.log ++ begun ∧ Tallied c begun (turned_on c c') c'.reconnect_attempt c'.reconnect_interval_ms

section
omit [MqttProtocolHandler H P E]
variable {c c' c'' : MqttClient H P E}

theorem Accounted.of_tally {flag : Bool} {attempt ms : UInt32} (begun : List UInt32)
    (ends : tally c' = (flag, attempt, ms, delays c.protocol_engine.log ++ begun))
    (tallied : Tallied c begun (!c.protocol_engine.connected && flag) attempt ms) : Accounted c c' := by
  simp only [tally, Prod.mk.injEq] at ends
  obtain ⟨rfl, rfl, rfl, waits⟩ := ends
  exact ⟨begun, waits, tallied⟩

theorem Untallied.accounted (same : Untallied c c') : Accounted c c' := by
  refine .of_tally [] (same.trans (by rw [List.append_nil, tally])) ?_
  rw [Bool.not_and_self]
  exact ⟨.inl rfl, rfl, rfl⟩

/-- What makes no attempt does not matter to the account. -/
theorem Accounted.then (first : Accounted c c') (second : Untallied c' c'') : Accounted c c'' := by
  obtain ⟨begun, waits, tallied⟩ := first
  refine .of_tally begun (second.trans ?_) tallied
  rw [tally, waits]

end

theorem connect_accounted (c : MqttClient H P E) : wp MqttClient.connect c fun _ c' => Accounted c c' := by
  refine wp_mono (connect_tally c) fun _ c' counted => ?_
  rcases counted with same | ⟨free, fresh⟩
  · exact Untallied.accounted same
  · refine .of_tally [] (fresh.trans (by rw [List.append_nil])) ?_
    rw [free]
    exact ⟨.inl rfl, rfl, rfl⟩

theorem reconnect_accounted (c : MqttClient H P E) : wp MqttClient.reconnect c fun _ c' => Accounted c c' := by
  by_cases may : MayAttempt c
  swap
  · obtain ⟨err, ran⟩ := reconnect_exhausted (c := c) fun enabled remain => may ⟨enabled, remain⟩
    rw [wp, ran]
    exact Untallied.accounted rfl
  rw [wp, reconnect_attempt may]
  have begun : delays (attempting c).protocol_engine.log = delays c.protocol_engine.log ++ [interval c] :=
    delays_append _ _
  have waiting : Accounted c (attempting c) := by
    refine .of_tally [interval c] (by rw [tally, begun]) ?_
    rw [show (attempting c).protocol_engine.connected = c.protocol_engine.connected from rfl, Bool.not_and_self]
    exact ⟨.inr ⟨may, rfl⟩, rfl, rfl⟩
  split
  · rcases connect_tally (attempting c) with same | ⟨free, fresh⟩
    · exact waiting.then same
    · refine .of_tally [interval c] (fresh.trans (by rw [begun])) ?_
      rw [show c.protocol_engine.connected = false from free]
      exact ⟨.inr ⟨may, rfl⟩, rfl, rfl⟩
  · exact waiting

/-- An attempt begins one delay. -/
theorem reconnect_delays {c : MqttClient H P E} (may : MayAttempt c) : wp MqttClient.reconnect c fun _ c' =>
    delays c'.protocol_engine.log = delays c.protocol_engine.log ++ [interval c] := by
  have begun : delays (attempting c).protocol_engine.log = delays c.protocol_engine.log ++ [interval c] :=
    delays_append _ _
  rw [wp, reconnect_attempt may]
  split
  · rcases connect_tally (attempting c) with same | ⟨-, fresh⟩
    · exact (congrArg (·.2.2.2) same).trans begun
    · exact (congrArg (·.2.2.2) fresh).trans begun
  · exact begun

theorem poll_connected_untallied : Moves Untallied (MqttClient.poll_connected : ClientM H P E (Option ClientEvent)) := by
  have receive : Moves UndelayedS (receive_packet : SessionM H P E PacketAction) := by
    refine Moves.bind (receiving.zoom first fun _ _ => id) fun action => ?_
    exact (undelayed_sweep.acknowledge action).bind fun _ => Moves.pure _
  refine (ofEngine undelayed_sweep.clock).bind fun time => Moves.get.bind fun c => ?_
  refine Moves.ite (fun _ => (entering _).bind fun _ => Moves.fail _) fun _ => ?_
  refine Moves.bind (Moves.onlyIf fun _ => undelayed_sweep.ping) fun _ => ?_
  refine (ofSession (undelayed_sweep.handle_retries time)).bind fun _ => ?_
  refine (ofSession receive).attempt.bind fun result => ?_
  cases result with
  | error err => exact (entering _).bind fun _ => Moves.fail _
  | ok action => exact undelayed_sweep.handle_packet_action action

theorem poll_accounted (c : MqttClient H P E) : wp MqttClient.poll c fun _ c' => Accounted c c' := by
  refine Reconnect.poll_seq (fun _ => ?_) (fun _ _ _ => reconnect_accounted c) (fun _ _ c' err accounted => ?_)
    (fun c' accounted => accounted) (fun c' accounted => ?_) (fun _ _ _ => ?_) fun _ _ => ?_
  · exact Untallied.accounted (poll_connected_untallied c)
  · exact accounted.then rfl
  · exact accounted.then (poll_connected_untallied c')
  · exact Untallied.accounted rfl
  · exact Untallied.accounted rfl

/-- What sends a packet begins no delay. -/
theorem sent_delays {packet : P} {r : Except (Halt MqttError) Unit} {e e' : MqttProtocolEngine H P E}
    (sent : Sent packet e r e') : delays e'.log = delays e.log := by
  cases sent with
  | unencoded _ => rfl
  | encoded _ transmission _ =>
    obtain ⟨more, rfl, hands_over⟩ := transmission.queued
    have silent : delays more = [] := by
      refine List.filterMap_eq_nil_iff.mpr fun event member => ?_
      have only := hands_over event member
      cases event <;> first | rfl | exact only.elim
    rw [delays_append]
    change delays e.log ++ delays more = _
    rw [silent, List.append_nil]

/-- A disconnect makes no attempt, and does not set the flag. -/
theorem disconnect_accounted {c : MqttClient H P E} (idle : c.Idle) :
    wp MqttClient.disconnect c fun _ c' => Accounted c c' := by
  by_cases gone : c.state.connection_state = .Disconnected
  · rw [wp, disconnect_over gone]
    exact Untallied.accounted rfl
  have ended : c.protocol_engine.connected = true → ∀ e : MqttProtocolEngine H P E,
      delays e.log = delays c.protocol_engine.log → ∀ state, Accounted c { c with protocol_engine := e, state := state } := by
    intro flag e waits state
    refine .of_tally [] (by rw [tally, waits, List.append_nil]) ?_
    rw [flag]
    exact ⟨.inl rfl, rfl, rfl⟩
  refine disconnect_seq idle gone (fun _ => Untallied.accounted rfl) (fun flag e err sent => ended flag e (sent_delays sent) _)
    (fun flag e sent => ended flag e (sent_delays sent) _) fun flag e sent => ?_
  have closed : delays (closing e).log = delays c.protocol_engine.log := by
    rw [closing, delays_append, sent_delays sent]
    exact List.append_nil _
  exact ⟨ended flag _ closed _, fun _ _ => ended flag _ closed _⟩

/-! ### Calls -/

section
variable [Codec V3.Packet MqttProtoError] [Codec V5.Packet ErrorV5] {v : Version}

theorem perform_accounted (op : Op v) {c : Client v} (idle : c.Idle) : wp op.perform c fun _ c' => Accounted c c' := by
  cases op with
  | connect => exact wp_result (connect_accounted c)
  | reconnect => exact wp_result (reconnect_accounted c)
  | disconnect => exact wp_result (disconnect_accounted idle)
  | poll => exact wp_result (poll_accounted c)
  | _ => exact Untallied.accounted (undelayed_sweep.calm _ (by simp) c)

/-- A CONNECT was accepted in the call. -/
def accepts (c : Client v) (call : Call v) : Bool := turned_on c (c.after call)

/-- What a call does to the counters. -/
theorem call_tallied {c : Client v} (idle : c.Idle) (call : Call v) : Tallied c (delays (c.events call)) (accepts c call)
    (c.after call).reconnect_attempt (c.after call).reconnect_interval_ms := by
  obtain ⟨begun, waits, tallied⟩ : Accounted (c.withWorld call.world) (c.after call) :=
    perform_accounted call.op (c := c.withWorld call.world) idle
  rw [Client.call_log idle call, delays_append] at waits
  rw [List.append_cancel_left waits]
  exact ⟨tallied.begins, tallied.attempt, tallied.interval⟩

theorem reconnecting_delays {c : Client v} (idle : c.Idle) (may : MayAttempt c) (world : World v.Packet v.Error) :
    delays (c.events ⟨.reconnect, world⟩) = [interval c] := by
  have waits : delays (c.after ⟨.reconnect, world⟩).protocol_engine.log = delays c.protocol_engine.log ++ [interval c] := by
    rw [c.after_reconnect]
    exact reconnect_delays (c := c.withWorld world) may
  rw [Client.call_log idle, delays_append] at waits
  exact List.append_cancel_left waits

/-- How often the call has come from `reconnect` to `connect`: once for each delay that was waited out. -/
def delegations (c : Client v) (call : Call v) : Nat := if call.world.delay 0 then (delays (c.events call)).length else 0

/-- A client, with the number of times that `reconnect` has come to `connect` since a CONNECT was last accepted. -/
def step (s : Client v × Nat) (call : Call v) : Client v × Nat :=
  (s.1.after call, if accepts s.1 call then 0 else s.2 + delegations s.1 call)

/-- The attempts are bounded. -/
structure Bounded (max_attempts : UInt32) (s : Client v × Nat) : Prop where
  /-- Whatever is called next, `reconnect` comes to `connect` at most that often. -/
  delegates : ∀ call, s.2 + delegations s.1 call ≤ max_attempts.toNat
  counted : s.2 ≤ s.1.reconnect_attempt.toNat
  limit : s.1.reconnect_attempt ≤ max_attempts
  /-- An attempt does not overflow the counter. -/
  grows : ∀ call, delays (s.1.events call) ≠ [] →
    (s.1.reconnect_attempt + 1).toNat = s.1.reconnect_attempt.toNat + 1
  /-- When the attempts are used up, a reconnect fails and does nothing. -/
  exhausted : s.1.reconnect_attempt = max_attempts → ∀ world, ∃ err,
    exec MqttClient.reconnect (s.1.withWorld world) = (.error (.err err), s.1.withWorld world)

/-- What holds of the count after every call. -/
structure Counts (max_attempts : UInt32) (s : Client v × Nat) : Prop where
  idle : s.1.Idle
  config : s.1.config.reconnect.max_attempts = max_attempts
  counted : s.2 ≤ s.1.reconnect_attempt.toNat
  limit : s.1.reconnect_attempt ≤ max_attempts

omit [Codec V3.Packet MqttProtoError] [Codec V5.Packet ErrorV5] in
/-- With attempts left below a limit, one more attempt is within the limit. -/
theorem attempt_within {c : Client v} (limited : 0 < c.config.reconnect.max_attempts) (remain : Reconnect.AttemptsRemain c) :
    (c.reconnect_attempt + 1).toNat = c.reconnect_attempt.toNat + 1 ∧
      c.reconnect_attempt.toNat + 1 ≤ c.config.reconnect.max_attempts.toNat := by
  rcases remain with zero | less
  · rw [zero] at limited
    cases limited
  have below : c.reconnect_attempt.toNat < c.config.reconnect.max_attempts.toNat := UInt32.lt_iff_toNat_lt.mp less
  have top := c.config.reconnect.max_attempts.toNat_lt
  refine ⟨?_, below⟩
  rw [UInt32.toNat_add]
  exact Nat.mod_eq_of_lt (by simp; omega)

theorem delegations_le (c : Client v) (call : Call v) : delegations c call ≤ (delays (c.events call)).length := by
  unfold delegations
  split
  · exact le_refl _
  · exact Nat.zero_le _

theorem Counts.bounded {max_attempts : UInt32} {s : Client v × Nat} (counts : Counts max_attempts s)
    (limited : 0 < max_attempts) : Bounded max_attempts s := by
  obtain ⟨c, n⟩ := s
  obtain ⟨idle, rfl, counted, limit⟩ := counts
  change n ≤ c.reconnect_attempt.toNat at counted
  have below : c.reconnect_attempt.toNat ≤ c.config.reconnect.max_attempts.toNat := UInt32.le_iff_toNat_le.mp limit
  refine ⟨fun call => ?_, counted, limit, fun call some => ?_, fun reached world => ?_⟩
  · have few := delegations_le c call
    change n + delegations c call ≤ c.config.reconnect.max_attempts.toNat
    rcases (call_tallied idle call).begins with none | ⟨⟨-, remain⟩, one⟩
    · rw [none, List.length_nil] at few
      omega
    · have within := (attempt_within (c := c) limited remain).2
      rw [one, List.length_singleton] at few
      omega
  · rcases (call_tallied idle call).begins with none | ⟨⟨-, remain⟩, one⟩
    · exact absurd none some
    · exact (attempt_within (c := c) limited remain).1
  · refine reconnect_exhausted fun _ remain => ?_
    rcases remain with zero | less
    · exact absurd zero (UInt32.pos_iff_ne_zero.mp limited)
    · exact absurd (reached ▸ less) (UInt32.lt_irrefl _)

theorem Counts.step {max_attempts : UInt32} {s : Client v × Nat} (counts : Counts max_attempts s)
    (limited : 0 < max_attempts) (call : Call v) : Counts max_attempts (step s call) := by
  obtain ⟨c, n⟩ := s
  obtain ⟨idle, rfl, counted, limit⟩ := counts
  change n ≤ c.reconnect_attempt.toNat at counted
  obtain ⟨idle', config, -⟩ := Client.call_path idle call
  have few := delegations_le c call
  have tallied := call_tallied idle call
  suffices count : (if accepts c call then 0 else n + delegations c call) ≤ (c.after call).reconnect_attempt.toNat ∧
      (c.after call).reconnect_attempt ≤ c.config.reconnect.max_attempts from
    ⟨idle', congrArg (·.reconnect.max_attempts) config, count.1, count.2⟩
  rw [tallied.attempt]
  cases accepts c call with
  | true => exact ⟨le_refl _, UInt32.zero_le⟩
  | false =>
    simp only [Bool.false_eq_true, if_false]
    rcases tallied.begins with none | ⟨⟨-, remain⟩, one⟩
    · rw [none, List.length_nil] at few
      simp only [none, if_true]
      refine ⟨?_, limit⟩
      omega
    · obtain ⟨grows, within⟩ := attempt_within (c := c) limited remain
      rw [one, List.length_singleton] at few
      simp only [one, List.cons_ne_nil, if_false]
      rw [UInt32.le_iff_toNat_le, grows]
      refine ⟨?_, within⟩
      omega

/-- Between two CONNECTs that are accepted, `reconnect` comes to `connect` at most
    `max_attempts` times, whatever is called in between. -/
theorem attempts_bounded (world : World v.Packet v.Error) (setup : v.Setup) (config : ClientConfig)
    (limited : 0 < config.reconnect.max_attempts) (calls : List (Call v)) :
    Bounded config.reconnect.max_attempts (run step (MqttClient.new world (v.handler setup) config, 0) calls) := by
  have start : Counts config.reconnect.max_attempts (MqttClient.new world (v.handler setup) config, 0) :=
    ⟨MqttClient.new_idle .., rfl, le_refl _, UInt32.zero_le⟩
  have counts := Runs.invariant_all (I := Counts config.reconnect.max_attempts)
    (fun _ call counts => Counts.step counts limited call) start calls
  exact counts.bounded limited

end

/-! ### A broker that refuses -/

section
local instance : Codec V3.Packet MqttProtoError := Wire.v3Codec
local instance : Codec V5.Packet ErrorV5 := Wire.v5Codec

def twice : ClientConfig := { reconnect := { max_attempts := 2 } }

/-- Three reconnects, each of which would be answered by a refusal. -/
def refused : List (Call .v3) := List.replicate 3 ⟨.reconnect, .obliging true [.Connack ⟨false, 5⟩]⟩

theorem attempts_bounded_refused :
    (run step (MqttClient.new (.obliging true []) (Version.handler .v3 ()) twice, 0) refused).2 = 2 ∧
      Bounded 2 (run step (MqttClient.new (.obliging true []) (Version.handler .v3 ()) twice, 0) refused) :=
  ⟨by decide +kernel, attempts_bounded (v := .v3) _ () twice (by decide) refused⟩

end

end Masaka.Attempts
