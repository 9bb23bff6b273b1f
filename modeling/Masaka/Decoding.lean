import Masaka.Attempts
import Masaka.ConnectResult
import Masaka.Provenance

/-!
What is left to be decoded when a CONNECT is written. A complete packet empties the
decoding state, and nothing else does: a connection that ends inside a packet leaves a
part of it to the next.
-/
namespace Masaka.Decoding
open Effect Runs MqttProtocolHandler MqttProtocolEngine Sending Flags
open MqttClient (engine engineSession)
open ConnectResult (connect_of)
open Provenance (Opens)

variable {H P E α : Type}

/-- What is left to be decoded is as it was. -/
def Undecoded (e e' : MqttProtocolEngine H P E) : Prop := e'.packet_state = e.packet_state

instance : Std.Refl (Undecoded (H := H) (P := P) (E := E)) := ⟨fun _ => rfl⟩
instance : IsTrans (MqttProtocolEngine H P E) Undecoded := ⟨fun _ _ _ first second => second.trans first⟩

abbrev UndecodedS (s s' : MqttProtocolEngine H P E × InMemorySession) : Prop := Undecoded s.1 s'.1
abbrev UndecodedC (c c' : MqttClient H P E) : Prop := Undecoded c.protocol_engine c'.protocol_engine

instance : Std.Refl (UndecodedS (H := H) (P := P) (E := E)) := ⟨fun _ => rfl⟩
instance : IsTrans (MqttProtocolEngine H P E × InMemorySession) UndecodedS := ⟨fun _ _ _ first second => second.trans first⟩
instance : Std.Refl (UndecodedC (H := H) (P := P) (E := E)) := ⟨fun _ => rfl⟩
instance : IsTrans (MqttClient H P E) UndecodedC := ⟨fun _ _ _ first second => second.trans first⟩

/-- What leaves the connection as it is decodes nothing. -/
theorem undecoded_sweep : Sweep (H := H) (E := E) (fun e => e.world.read) (fun e : MqttProtocolEngine H P E => e.log)
    (fun _ m => Moves Undecoded m) (fun _ m => Moves UndecodedS m) fun _ m => Moves UndecodedC m where
  ofE := Moves.compositional _ _
  ofS := Moves.compositional _ _
  ofC := Moves.compositional _ _
  inEngine undecoded := undecoded.zoom first fun _ _ => id
  ofEngine undecoded := undecoded.zoom engine fun _ _ => id
  ofSession undecoded := undecoded.zoom engineSession fun _ _ => id
  write _ := fun _ => rfl
  flush := fun _ => rfl
  clock := fun _ => rfl
  sent_time _ := fun _ => rfl
  dequeued _ := fun _ => rfl
  queued _ := fun _ => rfl
  sent _ := fun _ => rfl
  handed_out _ := fun _ => rfl
  accepted _ := fun _ => rfl
  handler _ := fun _ => rfl
  onSession _ := fun _ => rfl
  counting := fun _ => rfl
  adding _ := fun _ => rfl
  removing _ := fun _ => rfl
  popping := fun _ => rfl

/-- Waiting for a packet ends inside of one. -/
def EndsInside (e : MqttProtocolEngine H P E) : Prop :=
  match e.world.read 0 with
  | .packet _ => False
  | .failed consumed _ | .waiting consumed => consumed ≠ []

variable [MqttProtocolHandler H P E]

/-- Waiting that does not end inside a packet leaves nothing to be decoded, if nothing was. -/
theorem receive_packet_unlogged_whole {e : MqttProtocolEngine H P E} (clear : e.packet_state = []) (whole : ¬ EndsInside e) :
    wp receive_packet_unlogged e fun _ e' => e'.packet_state = [] := by
  simp only [receive_packet_unlogged, read_from_transport, wp_bind, wp_ofExec]
  unfold EndsInside at whole
  cases answer : e.world.read 0 with
  | failed consumed err =>
    simp only [answer, not_not] at whole
    simp only [clear, whole, List.append_nil]
  | waiting consumed =>
    simp only [answer, not_not] at whole
    simp only [clear, whole, List.append_nil]
  | packet packet =>
    simp only [current_timestamp_ms, wp_ofExec, wp_modify, wp_get, wp_ofExcept, update_last_received_time, record]
    split
    · trivial
    · trivial

/-! ### Connecting -/

/-- The frame of the CONNECT that a connect sends: its configuration is valid, its engine
    is free, and the packet is made and encoded. -/
structure Opening (c : MqttClient H P E) (frame : Frame P) : Prop where
  valid : c.config.validate = .ok ()
  free : c.protocol_engine.connected = false
  made : connect_of c = .ok frame.packet
  encoded : encode_packet c.protocol_engine.handler frame.packet = .ok frame.bytes

/-- A connect sends its CONNECT, and waiting for the answer ends inside a packet. -/
def CutShort (c : MqttClient H P E) : Prop :=
  (∃ frame, Opening c frame ∧ Sends c.protocol_engine frame.packet) ∧ EndsInside c.protocol_engine

/-- What the handshake of a free engine does to what is left to be decoded. -/
inductive Shakes (c : MqttClient H P E) : Except (Halt MqttError) PacketAction → MqttProtocolEngine H P E → Prop where
  | unmade {h : Halt MqttError} {e : MqttProtocolEngine H P E} : (∀ frame, ¬ Opening c frame) →
      e.packet_state = c.protocol_engine.packet_state → e.log = (Reconnect.beginning c).protocol_engine.log →
      Shakes c (.error h) e
  | unsent {h : Halt MqttError} {e : MqttProtocolEngine H P E} {frame : Frame P} {events : List (Event P)} :
      Opening c frame → ¬ Sends c.protocol_engine frame.packet → e.packet_state = c.protocol_engine.packet_state →
      e.log = (Reconnect.beginning c).protocol_engine.log ++ .queued frame :: events → Shakes c (.error h) e
  | sent {r : Except (Halt MqttError) PacketAction} {e : MqttProtocolEngine H P E} {frame : Frame P} :
      Opening c frame → Sends c.protocol_engine frame.packet →
      (c.protocol_engine.packet_state = [] → ¬ EndsInside c.protocol_engine → e.packet_state = []) → Shakes c r e

theorem handshake_shakes {c : MqttClient H P E} (idle : c.Idle) (valid : c.config.validate = .ok ())
    (free : c.protocol_engine.connected = false) :
    wp (Reconnect.handshake c.config) (Reconnect.beginning c).protocol_engine (Shakes c) := by
  have log := Reconnect.beginning_log c
  rw [Reconnect.handshake, Reconnect.beginning_engine, connect_with_will, wp_bind, wp_get]
  simp only [free, Bool.false_eq_true, if_false]
  rw [wp_bind, wp_modify]
  change wp (Effect.ofExcept (into H) (connect_of c) >>= _) _ _
  refine wp_ofExcept_bind (fun packet made => ?_) fun err failed => ?_
  rotate_left
  · refine .unmade (fun frame opening => ?_) rfl log.symm
    cases failed.symm.trans opening.made
  rw [wp_bind]
  refine wp_mono (send_packet_spec packet (by exact idle)) fun r e sent => ?_
  have sends : r = .ok () ↔ Sends c.protocol_engine packet := sent.succeeds_iff
  obtain ⟨-, -, left, -, read⟩ := sent.frame
  change e.packet_state = c.protocol_engine.packet_state at left
  cases encoded : encode_packet c.protocol_engine.handler packet with
  | error err =>
    obtain ⟨rfl, same⟩ := sent.unencoded_same encoded
    refine .unmade (fun frame opening => ?_) left (by rw [same, log]; rfl)
    cases made.symm.trans opening.made
    cases encoded.symm.trans opening.encoded
  | ok bytes =>
    have opening : Opening c ⟨packet, bytes⟩ := ⟨valid, free, made, encoded⟩
    obtain ⟨events, queued⟩ := sent.queued encoded
    cases r with
    | error halt =>
      refine .unsent opening (fun out => ?_) left (by rw [log]; exact queued)
      cases sends.mpr out
    | ok _ =>
      -- What follows the answer does not touch the decoding state.
      let Q := fun (_ : Except (Halt MqttError) PacketAction) (e' : MqttProtocolEngine H P E) =>
        c.protocol_engine.packet_state = [] → ¬ EndsInside c.protocol_engine → e'.packet_state = []
      refine wp_mono (Q := Q) ?_ fun r e waited => .sent opening (sends.mp rfl) waited
      have waits : wp receive_packet_unlogged e Q := fun clear whole => by
        refine receive_packet_unlogged_whole (left.trans clear) ?_
        rw [EndsInside, read]
        exact whole
      refine wp_seq waits (fun action e' whole => ?_) fun _ _ whole => whole
      cases action with
      | ConnectAck session_present return_code =>
        dsimp only
        split
        · exact whole
        · exact whole
      | _ => exact whole

/-- What an operation that comes to connect under the condition does to what is left to be decoded. -/
inductive Decodes (comes : Prop) (c c' : MqttClient H P E) : Prop where
  | unopened {events : List (Event P)} : (comes → ∀ frame, ¬ Opening c frame) →
      c'.protocol_engine.packet_state = c.protocol_engine.packet_state →
      c'.protocol_engine.log = c.protocol_engine.log ++ events → (∀ frame, .queued frame ∉ events) → Decodes comes c c'
  | unsent {frame : Frame P} {events : List (Event P)} : comes → Opening c frame →
      ¬ Sends c.protocol_engine frame.packet → c'.protocol_engine.packet_state = c.protocol_engine.packet_state →
      c'.protocol_engine.log = c.protocol_engine.log ++ events → .queued frame ∈ events → Decodes comes c c'
  | sent {frame : Frame P} : comes → Opening c frame → Sends c.protocol_engine frame.packet →
      (c.protocol_engine.packet_state = [] → ¬ EndsInside c.protocol_engine → c'.protocol_engine.packet_state = []) →
      Decodes comes c c'

omit [MqttProtocolHandler H P E] in
theorem beginning_unqueued (c : MqttClient H P E) (frame : Frame P) :
    .queued frame ∉ (if c.config.clean_session then [Event.cleared] else []) := by
  split <;> simp

theorem connect_decodes {c : MqttClient H P E} (idle : c.Idle) :
    wp MqttClient.connect c fun _ c' => Decodes True c c' := by
  refine Reconnect.connect_cases (fun invalid err => ?_) (fun _ flag => ?_) fun valid free => ?_
  · exact .unopened (fun _ frame opening => invalid opening.valid) rfl (List.append_nil _).symm fun _ => by simp
  · have same := Reconnect.beginning_engine c
    refine .unopened (fun _ frame opening => ?_) (congrArg (·.packet_state) same) (congrArg (·.log) same) (beginning_unqueued c)
    cases flag.symm.trans opening.free
  -- A handshake that fails ends the connect.
  have ended : ∀ {h e} {c' : MqttClient H P E}, Shakes c (.error h) e → c'.protocol_engine = e → Decodes True c c' := by
    intro h e c' shook same
    subst same
    cases shook with
    | unmade none left log =>
      exact .unopened (fun _ => none) left (log.trans (Reconnect.beginning_log c)) (beginning_unqueued c)
    | unsent opening unsent left log =>
      rw [Reconnect.beginning_log, List.append_assoc] at log
      exact .unsent trivial opening unsent left log (by simp)
    | sent opening out whole => exact .sent trivial opening out whole
  refine Reconnect.connect_seq valid (handshake_shakes idle valid free) (fun e err shook => ended shook rfl)
    (fun e action err shook _ => ?_) (fun e shook => ended shook rfl) fun e session_present shook => ?_
  · cases shook with
    | sent opening out whole => exact .sent trivial opening out whole
  · cases shook with
    | sent opening out whole =>
      have resent : Moves UndecodedC (onlyIf (session_present && !c.config.clean_session) MqttClient.resend_pending_messages :
          ClientM H P E Unit) := Moves.onlyIf fun _ => undecoded_sweep.resend_pending_messages
      refine wp_mono (resent.wp _) fun r c' same => .sent trivial opening out fun clear inside => ?_
      exact same.trans (whole clear inside)

/-- A client that has begun an attempt to reconnect sends the same CONNECT. -/
theorem attempting_opening {c : MqttClient H P E} {frame : Frame P} :
    Opening (Attempts.attempting c) frame ↔ Opening c frame :=
  ⟨fun opening => ⟨opening.valid, opening.free, opening.made, opening.encoded⟩,
    fun opening => ⟨opening.valid, opening.free, opening.made, opening.encoded⟩⟩

theorem reconnect_decodes {c : MqttClient H P E} (idle : c.Idle) :
    wp MqttClient.reconnect c fun _ c' => Decodes (Flags.Attempts c) c c' := by
  by_cases may : Attempts.MayAttempt c
  swap
  · obtain ⟨err, ran⟩ := Attempts.reconnect_exhausted (c := c) fun enabled remain => may ⟨enabled, remain⟩
    rw [wp, ran]
    exact .unopened (fun attempts => absurd ⟨attempts.1, attempts.2.1⟩ may) rfl (List.append_nil _).symm fun _ => by simp
  rw [wp, Attempts.reconnect_attempt may]
  by_cases waited : c.protocol_engine.world.delay 0 = true
  swap
  · rw [if_neg waited]
    exact .unopened (fun attempts => absurd attempts.2.2 waited) rfl rfl fun _ => by simp
  rw [if_pos waited]
  have comes : Flags.Attempts c := ⟨may.1, may.2, waited⟩
  cases connect_decodes (c := Attempts.attempting c) idle with
  | unopened none left log silent =>
    refine .unopened (fun _ frame opening => none trivial frame (attempting_opening.mpr opening)) left
      (log.trans (List.append_assoc _ _ _)) fun frame member => ?_
    exact (List.mem_append.mp member).elim (by simp) (silent frame)
  | unsent _ opening unsent left log queued =>
    exact .unsent comes (attempting_opening.mp opening) unsent left (log.trans (List.append_assoc _ _ _))
      (List.mem_append_right _ queued)
  | sent _ opening out whole => exact .sent comes (attempting_opening.mp opening) out whole

/-! ### Disconnecting -/

/-- A disconnect sends its DISCONNECT inside a packet. -/
structure Severed (c : MqttClient H P E) : Prop where
  running : c.state.connection_state ≠ .Disconnected
  linked : c.protocol_engine.connected = true
  inside : c.protocol_engine.packet_state ≠ []
  sends : Sends c.protocol_engine (create_disconnect_packet c.protocol_engine.handler)

/-- Nothing is left to be decoded when the engine is free. -/
def Whole (c : MqttClient H P E) : Prop := c.protocol_engine.connected = false → c.protocol_engine.packet_state = []

theorem disconnect_whole {c : MqttClient H P E} (idle : c.Idle) (whole : Whole c) (careful : ¬ Severed c) :
    wp MqttClient.disconnect c fun _ c' => Whole c' := by
  by_cases gone : c.state.connection_state = .Disconnected
  · rw [wp, disconnect_over gone]
    exact whole
  -- The flag stays set unless the DISCONNECT is sent.
  have kept : c.protocol_engine.connected = true → ∀ {e : MqttProtocolEngine H P E} {h : Halt MqttError},
      Sent (create_disconnect_packet c.protocol_engine.handler) c.protocol_engine (.error h) e → e.connected = true :=
    fun flag _ _ sent => sent.frame.1.trans flag
  refine disconnect_seq idle gone (fun _ => whole) (fun flag e err sent free => ?_) (fun flag e sent free => ?_)
    fun flag e sent => ?_
  · cases (kept flag sent).symm.trans free
  · cases (kept flag sent).symm.trans free
  · have same : e.packet_state = c.protocol_engine.packet_state := sent.frame.2.2.1
    have clear : e.packet_state = [] := by
      by_contra inside
      exact careful ⟨gone, flag, same ▸ inside, sent.succeeds_iff.mp rfl⟩
    exact ⟨fun _ => clear, fun _ _ _ => clear⟩

/-! ### Polling -/

section
variable [LawfulHandler H P E]

/-- No CONNECT is put on the write queue. -/
def Unopened (c c' : MqttClient H P E) : Prop := ∃ events, c'.protocol_engine.log = c.protocol_engine.log ++ events ∧
  ∀ frame, .queued frame ∈ events → ¬ Opens (LawfulHandler.shape (H := H) frame.packet)

theorem Decodes.none {comes : Prop} {c c' : MqttClient H P E} (decodes : Decodes comes c c')
    (linked : c.protocol_engine.connected = true) : Unopened c c' := by
  cases decodes with
  | unopened _ _ log silent => exact ⟨_, log, fun frame member => absurd member (silent frame)⟩
  | unsent _ opening => cases linked.symm.trans opening.free
  | sent _ opening => cases linked.symm.trans opening.free

theorem poll_connected_unopened {c : MqttClient H P E} (idle : c.Idle) :
    wp MqttClient.poll_connected c fun _ c' => Unopened c c' := by
  let A : Provenance.Deed → Prop := Provenance.Sending fun shape => ¬ Opens shape
  have other : ∀ shape, (∀ clean, shape ≠ .connect clean) → A (.sends shape) := by
    rintro shape unlike ⟨clean, same⟩
    exact unlike clean same
  have releases : Moves (Provenance.Releases A) (MqttClient.poll_connected (H := H)) := by
    refine Provenance.poll_connected (fun shape again => other shape ?_) (other _ fun _ same => by cases same)
      fun shape reply => other shape ?_
    · rintro clean rfl
      exact again
    · rintro clean rfl
      exact reply
  obtain ⟨-, -, does⟩ := releases c idle fun pid _ => other _ fun _ same => by cases same
  obtain ⟨-, events, log, allowed⟩ := does idle
  exact ⟨events, log, fun frame member => allowed _ member _ rfl⟩

/-- A poll opens no connection: the engine of a client that was connected is not free. -/
theorem poll_unopened {c : MqttClient H P E} (idle : c.Idle)
    (linked : c.state.connection_state = .Connected → c.protocol_engine.connected = true) :
    wp MqttClient.poll c fun _ c' => Unopened c c' := by
  have nothing : ∀ c' : MqttClient H P E, c'.protocol_engine = c.protocol_engine → Unopened c c' := fun c' same =>
    ⟨[], by rw [same, List.append_nil], fun _ member => by cases member⟩
  have refused : c.state.connection_state = .Connected → wp MqttClient.reconnect c fun r c' =>
      (∀ a, r ≠ .ok a) ∧ Unopened c c' := by
    intro connected
    have flag := linked connected
    refine wp_mono (wp_and (reconnect_decodes idle) (Reception.reconnect_refused .default flag)) fun r c' outcome => ?_
    exact ⟨outcome.2.1, outcome.1.none flag⟩
  refine Reconnect.poll_seq (fun _ => poll_connected_unopened idle) (fun _ connected _ => refused connected)
    (fun _ _ _ _ outcome => outcome.2) (fun _ outcome => outcome.2) (fun _ outcome => ?_) (fun _ _ _ => ?_) fun _ _ => ?_
  · exact absurd rfl (outcome.1 _)
  · exact nothing _ rfl
  · exact nothing _ rfl

end

section
omit [MqttProtocolHandler H P E]
variable {c : MqttClient H P E} {r : Except (Halt MqttError) Unit} {after : ConnectionState × Bool}

/-- A flag that is set stays set, however a connect ends. -/
theorem connects_linked (connects : Connects c r after) (linked : c.protocol_engine.connected = true) : after.2 = true := by
  cases connects with
  | invalid _ => exact linked
  | refused _ _ | accepted _ _ => rfl
  | failed free | dropped free => cases linked.symm.trans free
theorem reconnects_linked (reconnects : Reconnects c r after) (linked : c.protocol_engine.connected = true) :
    after.2 = true := by
  cases reconnects with
  | refused _ | dropped => exact linked
  | connects _ connects => exact connects_linked connects linked

end

/-! ### Calls -/

section
variable [Codec V3.Packet MqttProtoError] [Codec V5.Packet ErrorV5] {v : Version}

/-- The operation comes to connect. -/
def comes (c : Client v) : Op v → Prop
  | .connect => True
  | .reconnect => Flags.Attempts c
  | _ => False

/-- The operation ends a connection, or an attempt at one, inside a packet. -/
def cuts (c : Client v) : Op v → Prop
  | .disconnect => Severed c
  | op => comes c op ∧ CutShort c

/-- The call ends a connection, or an attempt at one, inside a packet. -/
def Interrupted (c : Client v) (call : Call v) : Prop := cuts (c.withWorld call.world) call.op

/-- The events put a CONNECT on the write queue. -/
def Opened (events : List (Event v.Packet)) : Prop :=
  ∃ frame, .queued frame ∈ events ∧ Opens (LawfulHandler.shape (H := v.Handler) frame.packet)

/-- The call with a transport that answers nothing that is written: it stands where it first writes. -/
def muted (call : Call v) : Call v :=
  { call with world := { call.world with write := fun _ => none, flush := fun _ => none } }

/-- If the call writes a CONNECT then it is the first that it writes, and nothing of an
    earlier packet is left to be decoded then. -/
def Fresh (c : Client v) (call : Call v) : Prop := Opened (c.events call) →
  Opened (c.events (muted call)) ∧ (c.after (muted call)).protocol_engine.packet_state = []

omit [Codec V3.Packet MqttProtoError] [Codec V5.Packet ErrorV5] in
/-- Only connecting and polling may send a CONNECT. -/
theorem emits_opens {op : Op v} {shape : Shape} (emits : Provenance.Emits op shape) (opens : Opens shape) :
    op = .connect ∨ op = .reconnect ∨ op = .poll := by
  obtain ⟨clean, rfl⟩ := opens
  cases op with
  | connect => exact .inl rfl
  | reconnect => exact .inr (.inl rfl)
  | poll => exact .inr (.inr rfl)
  | disconnect | ping => cases emits
  | subscribe | subscribe_multiple | subscribe_v5 | unsubscribe | unsubscribe_multiple =>
    obtain ⟨_, _, same⟩ := emits
    cases same
  | publish | publish_v5 | next_message | set_v5_config => exact emits.elim

theorem opening_opens {c : Client v} {frame : Frame v.Packet} (opening : Opening c frame) :
    Opens (LawfulHandler.shape (H := v.Handler) frame.packet) := by
  have made := opening.made
  unfold connect_of ConnectResult.connect_packet at made
  refine ⟨c.config.clean_session, ?_⟩
  split at made
  · exact LawfulHandler.connect_with_will _ _ _ _ _ _ _ _ _ _ _ made
  · exact LawfulHandler.connect _ _ _ _ _ _ _ made

theorem call_decodes {c : Client v} (idle : c.Idle) {op : Op v} (opens : op = .connect ∨ op = .reconnect)
    (world : World v.Packet v.Error) : Decodes (comes (c.withWorld world) op) (c.withWorld world) (c.after ⟨op, world⟩) := by
  change wp op.perform (c.withWorld world) fun _ c' => Decodes (comes (c.withWorld world) op) (c.withWorld world) c'
  rcases opens with rfl | rfl
  · exact wp_result (connect_decodes idle)
  · exact wp_result (reconnect_decodes idle)

/-- A call that sends a CONNECT over a transport that answers nothing stands where it writes it. -/
theorem muted_stands {c : Client v} (idle : c.Idle) (whole : Whole c) {op : Op v} (opens : op = .connect ∨ op = .reconnect)
    {world : World v.Packet v.Error} (come : comes (c.withWorld world) op) {frame : Frame v.Packet}
    (opening : Opening (c.withWorld world) frame) :
    Opened (c.events (muted ⟨op, world⟩)) ∧ (c.after (muted ⟨op, world⟩)).protocol_engine.packet_state = [] := by
  have come' : comes (c.withWorld (muted ⟨op, world⟩).world) op := by
    rcases opens with rfl | rfl
    · trivial
    · exact come
  have opening' : Opening (c.withWorld (muted ⟨op, world⟩).world) frame :=
    ⟨opening.valid, opening.free, opening.made, opening.encoded⟩
  have decodes := call_decodes idle opens (muted ⟨op, world⟩).world
  have log := Client.call_log idle (muted ⟨op, world⟩)
  cases decodes with
  | unopened none => exact absurd opening' (none come' frame)
  | unsent _ opened _ left log' queued =>
    have same := List.append_cancel_left (log'.symm.trans log)
    refine ⟨⟨_, same ▸ queued, opening_opens opened⟩, ?_⟩
    exact left.trans (whole opening.free)
  | sent _ _ out =>
    obtain ⟨_, _, _, flushed⟩ := out
    cases flushed

/-- If nothing is left to be decoded when the engine is free, then nothing is when a CONNECT is written. -/
theorem Whole.fresh {c : Client v} (reachable : c.Reachable) (whole : Whole c) (call : Call v) : Fresh c call := by
  rintro ⟨frame, queued, opens⟩
  obtain ⟨op, world⟩ := call
  have log := Client.call_log reachable.idle ⟨op, world⟩
  have connecting : op = .connect ∨ op = .reconnect →
      Opened (c.events (muted ⟨op, world⟩)) ∧ (c.after (muted ⟨op, world⟩)).protocol_engine.packet_state = [] := by
    intro connects
    cases call_decodes reachable.idle connects world with
    | unopened _ _ log' silent =>
      rw [List.append_cancel_left (log.symm.trans log')] at queued
      exact absurd queued (silent frame)
    | unsent come opening => exact muted_stands reachable.idle whole connects come opening
    | sent come opening => exact muted_stands reachable.idle whole connects come opening
  rcases emits_opens (Provenance.call_emits reachable.idle queued) opens with connects | reconnects | polls
  · exact connecting (.inl connects)
  · exact connecting (.inr reconnects)
  · cases polls
    have linked := Reconnect.connected_linked reachable
    have polled : wp (Op.perform (v := v) .poll) (c.withWorld world) fun _ c' => Unopened (c.withWorld world) c' :=
      wp_result (poll_unopened (c := c.withWorld world) reachable.idle linked)
    obtain ⟨events, log', none⟩ := polled
    rw [List.append_cancel_left (log.symm.trans log')] at queued
    exact absurd opens (none frame queued)

theorem whole_after {c : Client v} (reachable : c.Reachable) {call : Call v} (careful : ¬ Interrupted c call)
    (whole : Whole c) : Whole (c.after call) := by
  obtain ⟨op, world⟩ := call
  have idle : (c.withWorld world).Idle := reachable.idle
  by_cases linking : links op = false
  · have steady : Steady (c.withWorld world) (c.after ⟨op, world⟩) := perform_steady linking _
    have same : UndecodedC (c.withWorld world) (c.after ⟨op, world⟩) := undecoded_sweep.calm op (calm_op linking) _
    exact fun free => same.trans (whole (steady.engine.connected.symm.trans free))
  -- A connect finds nothing to be decoded if the engine is free, and leaves the flag set otherwise.
  have connecting : (op = .connect ∨ op = .reconnect) → (¬ (comes (c.withWorld world) op ∧ CutShort (c.withWorld world))) →
      (c.protocol_engine.connected = true → (c.after ⟨op, world⟩).protocol_engine.connected = true) →
      Whole (c.after ⟨op, world⟩) := by
    intro connects careful linked free
    have before : c.protocol_engine.connected = false := Bool.eq_false_iff.mpr fun flag => by
      cases (linked flag).symm.trans free
    have clear := whole before
    cases call_decodes reachable.idle connects world with
    | unopened _ left => exact left.trans clear
    | unsent _ _ _ left => exact left.trans clear
    | sent come opening sends decoded =>
      exact decoded clear fun inside => careful ⟨come, ⟨_, opening, sends⟩, inside⟩
  cases op with
  | connect =>
    refine connecting (.inl rfl) careful fun flag => ?_
    have ends : wp (Op.perform (v := v) .connect) (c.withWorld world) fun _ c' => c'.protocol_engine.connected = true :=
      wp_result (wp_mono (connect_flags _) fun r c' connects => connects_linked connects flag)
    exact ends
  | reconnect =>
    refine connecting (.inr rfl) careful fun flag => ?_
    have ends : wp (Op.perform (v := v) .reconnect) (c.withWorld world) fun _ c' => c'.protocol_engine.connected = true :=
      wp_result (wp_mono (reconnect_flags _) fun r c' reconnects => reconnects_linked reconnects flag)
    exact ends
  | disconnect =>
    change wp (Op.perform (v := v) .disconnect) (c.withWorld world) fun _ c' => Whole c'
    exact wp_result (disconnect_whole idle whole careful)
  | poll =>
    change wp (Op.perform (v := v) .poll) (c.withWorld world) fun _ c' => Whole c'
    have linked := Reconnect.connected_linked reachable
    by_cases flag : c.protocol_engine.connected = true
    · refine wp_result (wp_mono (poll_flags idle linked) fun r c' ended => ?_)
      have kept : c'.protocol_engine.connected = c.protocol_engine.connected := by
        rcases ended with same | ⟨-, -, same⟩ | ⟨-, -, same⟩ <;> exact congrArg Prod.snd same
      intro free
      cases (flag.symm.trans kept.symm).trans free
    · have down : c.protocol_engine.connected = false := Bool.eq_false_iff.mpr flag
      refine wp_result (wp_mono (poll_unlinked (c := c.withWorld world) (fun connected => flag (linked connected)) down)
        fun r c' outcome => ?_)
      rw [Whole, outcome.2]
      exact whole
  | _ => exact absurd rfl linking

/-- As long as no connection, and no attempt at one, ends inside a packet: whatever is
    called next, nothing of an earlier packet is left to be decoded when a CONNECT is written. -/
theorem decoding_fresh (world : World v.Packet v.Error) (setup : v.Setup) (config : ClientConfig) {calls : List (Call v)}
    (careful : Along Client.after (fun c call => ¬ Interrupted c call) (MqttClient.new world (v.handler setup) config) calls)
    (call : Call v) : Fresh (Client.run (MqttClient.new world (v.handler setup) config) calls) call := by
  obtain ⟨reachable, whole⟩ := Runs.invariant (I := fun c : Client v => c.Reachable ∧ Whole c)
    (fun c call holds careful => ⟨holds.1.after call, whole_after holds.1 careful holds.2⟩)
    ⟨⟨world, setup, config, [], rfl⟩, fun _ => rfl⟩ careful
  exact whole.fresh reachable call

end

/-! ### A connection that ends inside a packet -/

section
local instance : Codec V3.Packet MqttProtoError := Wire.v3Codec
local instance : Codec V5.Packet ErrorV5 := Wire.v5Codec

def new_client : Client .v3 := MqttClient.new (.obliging true []) (Version.handler .v3 ()) {}
def connecting : Call .v3 := ⟨.connect, .obliging true [.Connack ⟨false, 0⟩]⟩
def disconnecting : Call .v3 := ⟨.disconnect, .obliging true []⟩

/-- A poll that receives a whole packet. -/
def receiving : Call .v3 := ⟨.poll, .obliging true [.Pingresp]⟩

/-- A poll that is dropped when the first byte of a PUBLISH has arrived. -/
def receiving_part : Call .v3 := ⟨.poll, { (World.obliging true [] : World V3.Packet MqttProtoError) with
  read := fun _ => .waiting [0x30] }⟩

/-- The frame of the CONNECT of the new client. -/
def connect_frame : Frame V3.Packet :=
  let packet : V3.Packet := .Connect ⟨.V311, 60, "masaka_client", true, none, none, none⟩
  ⟨packet, Wire.v3 packet⟩

theorem decoding_fresh_whole :
    Opened (v := .v3) ((Client.run new_client [connecting, receiving, disconnecting]).events connecting) ∧
      Fresh (Client.run new_client [connecting, receiving, disconnecting]) connecting := by
  have careful : Along Client.after (fun c call => ¬ Interrupted c call) new_client [connecting, receiving, disconnecting] := by
    refine ⟨fun cut => cut.2.2, fun cut => cut.1, fun severed => ?_, trivial⟩
    exact severed.inside (by decide +kernel)
  exact ⟨⟨connect_frame, by decide +kernel, _, rfl⟩, decoding_fresh (v := .v3) _ () {} careful connecting⟩

/-- The second CONNECT is written while a byte of the first connection is left to be decoded. -/
theorem part_left : ¬ ∀ (world : World V3.Packet MqttProtoError) (config : ClientConfig) (calls : List (Call .v3))
    (call : Call .v3), Fresh (Client.run (MqttClient.new world (Version.handler .v3 ()) config : Client .v3) calls) call := by
  intro fresh
  have opened : Opened (v := .v3)
      ((Client.run new_client [connecting, receiving_part, disconnecting]).events connecting) :=
    ⟨connect_frame, by decide +kernel, _, rfl⟩
  obtain ⟨-, clear⟩ := fresh (.obliging true []) {} [connecting, receiving_part, disconnecting] connecting opened
  have left : ((Client.run new_client [connecting, receiving_part, disconnecting]).after
      (muted connecting)).protocol_engine.packet_state = [0x30] := by decide +kernel
  cases left.symm.trans clear

end

end Masaka.Decoding
