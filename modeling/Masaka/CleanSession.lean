import Masaka.Capacity
import Masaka.Provenance

/-!
Clean sessions. Connecting with a clean session clears the session first, and from then
on whatever is sent for a message belongs to one that has been accepted since
(`clean_session_isolates`): what is tracked is, what is retried or released is tracked,
and no byte is handed over but of the packet that was put on the write queue last.
-/
namespace Masaka.CleanSession
open Effect Tables Runs MqttProtocolHandler LawfulHandler MqttProtocolEngine Sending Provenance
open Tracking (Tracked)
open MqttClient (engine engineSession)

section
variable {P : Type}

/-- A message was accepted under the identifier, and the session has not been cleared since. -/
def Fresh (log : List (Event P)) (pid : Pid) : Prop :=
  ∃ before after, log = before ++ .accepted pid :: after ∧ .cleared ∉ after

theorem Fresh.append {log more : List (Event P)} {pid : Pid} (fresh : Fresh log pid) (kept : .cleared ∉ more) :
    Fresh (log ++ more) pid := by
  obtain ⟨before, after, rfl, uncleared⟩ := fresh
  refine ⟨before, after ++ more, by simp, fun cleared => ?_⟩
  exact (List.mem_append.mp cleared).elim uncleared kept

theorem Fresh.of_accepted {log more : List (Event P)} {pid : Pid} (accepted : .accepted pid ∈ more)
    (kept : .cleared ∉ more) : Fresh (log ++ more) pid := by
  obtain ⟨older, newer, rfl⟩ := List.append_of_mem accepted
  refine ⟨log ++ older, newer, by simp, fun cleared => kept ?_⟩
  exact List.mem_append_right _ (List.mem_cons_of_mem _ cleared)

/-- What is fresh was accepted after the session was last cleared. -/
theorem Fresh.since {before after : List (Event P)} {pid : Pid} (fresh : Fresh (before ++ .cleared :: after) pid) :
    .accepted pid ∈ after := by
  obtain ⟨older, newer, split, uncleared⟩ := fresh
  rcases split_append split with ⟨part, rfl⟩ | ⟨more, -, later⟩
  · have same := List.append_cancel_left ((List.append_assoc ..).symm.trans split)
    rw [← (List.cons.inj same).2] at uncleared
    exact absurd (List.mem_append_right _ List.mem_cons_self) uncleared
  · have member : .accepted pid ∈ Event.cleared :: after := by
      rw [later]
      exact List.mem_append_right _ List.mem_cons_self
    exact (List.mem_cons.mp member).resolve_left (by simp)

/-- The bytes are the last ones of the packet that was put on the write queue last,
    since when nothing was done but to hand it over. -/
def Handing (log : List (Event P)) (bytes : Bytes) : Prop :=
  ∃ before frame since n, log = before ++ .queued frame :: since ∧ (∀ event ∈ since, HandsOver event) ∧
    bytes = frame.bytes.drop n

/-- What is handed over since the session was cleared was put on the write queue since then. -/
theorem Handing.since {before after : List (Event P)} {bytes : Bytes}
    (handing : Handing (before ++ .cleared :: after) bytes) : Handing after bytes := by
  obtain ⟨older, frame, newer, n, split, hands_over, part⟩ := handing
  rcases split_append split with ⟨rest, rfl⟩ | ⟨more, -, later⟩
  · have same := List.append_cancel_left ((List.append_assoc ..).symm.trans split)
    have cleared : .cleared ∈ newer := by
      rw [← (List.cons.inj same).2]
      exact List.mem_append_right _ List.mem_cons_self
    exact (hands_over _ cleared).elim
  · rcases List.cons_eq_append_iff.mp later with ⟨-, here⟩ | ⟨more', -, there⟩
    · cases (List.cons.inj here).1
    · exact ⟨more', frame, newer, n, there, hands_over, part⟩

theorem writes_parts {tape rest : Tape} {bytes : Bytes} {events : List (Event P)}
    (writes : Writes tape bytes events rest) {part : Bytes} {answer : Answer Nat}
    (member : .write part answer ∈ events) : ∃ n, part = bytes.drop n := by
  induction writes with
  | done => cases member
  | @more tape rest bytes n events left took all ih =>
    rcases List.mem_cons.mp member with first | later
    · cases first
      exact ⟨0, rfl⟩
    · obtain ⟨m, rfl⟩ := ih later
      exact ⟨_, List.drop_drop⟩
theorem breaks_parts {tape rest : Tape} {bytes : Bytes} {events : List (Event P)} {halt : Halt MqttError}
    (breaks : Breaks tape bytes events rest halt) {part : Bytes} {answer : Answer Nat}
    (member : .write part answer ∈ events) : ∃ n, part = bytes.drop n := by
  induction breaks with
  | refused left refused =>
    cases List.mem_singleton.mp member
    exact ⟨0, rfl⟩
  | @more tape rest bytes n events halt inside took all ih =>
    rcases List.mem_cons.mp member with first | later
    · cases first
      exact ⟨0, rfl⟩
    · obtain ⟨m, rfl⟩ := ih later
      exact ⟨_, List.drop_drop⟩
theorem transmission_parts {tape rest : Tape} {flush : Answer Unit} {frame : Frame P} {events : List (Event P)}
    {r : Except (Halt MqttError) Unit} (transmission : Transmission tape flush frame events rest r) {part : Bytes}
    {answer : Answer Nat} (member : .write part answer ∈ events) : ∃ n, part = frame.bytes.drop n := by
  cases transmission with
  | complete all _ => exact writes_parts all (by simpa using member)
  | unflushed all _ => exact writes_parts all (by simpa using member)
  | broken breaks => exact breaks_parts breaks (by simpa using member)

end

section
variable {H P E α : Type} [MqttProtocolHandler H P E] [LawfulHandler H P E]

/-! ### What every act keeps -/

/-- Only clearing the session tells of it. -/
theorem act_cleared {config : ClientConfig} {grant : Grant} {v : View P} {act : Act P}
    (allowed : act.Allowed H config grant v) (cleared : .cleared ∈ act.events) : act = .clear := by
  cases act with
  | clear => rfl
  | transmit frame events rest =>
    obtain ⟨⟨flush, r, transmission⟩, -⟩ := allowed
    exact absurd cleared (transmission.unsaid (by simp) id)
  | release released frame events rest =>
    obtain ⟨⟨flush, transmission⟩, -⟩ := allowed
    exact absurd cleared (transmission.unsaid (by simp) id)
  | note event =>
    rw [← List.mem_singleton.mp cleared] at allowed
    exact allowed.elim
  | _ => simp [Act.events] at cleared

/-- What an act writes is the rest of the packet that it put on the write queue. -/
theorem act_written {config : ClientConfig} {grant : Grant} {v : View P} {act : Act P}
    (allowed : act.Allowed H config grant v) {before after : List (Event P)} {bytes : Bytes} {answer : Answer Nat}
    (split : act.events = before ++ .write bytes answer :: after) : Handing (v.log ++ before) bytes := by
  rcases act_events allowed with ⟨frame, flush, rest, r, transmission, -⟩ | aside
  · have wrote : .write bytes answer ∈ act.events := by rw [split]; simp
    obtain ⟨n, part⟩ := transmission_parts transmission wrote
    obtain ⟨more, same, hands_over⟩ := transmission.queued
    rcases List.cons_eq_append_iff.mp (same.symm.trans split) with ⟨-, here⟩ | ⟨since, rfl, later⟩
    · cases (List.cons.inj here).1
    · refine ⟨v.log, frame, since, n, rfl, fun event member => hands_over event ?_, part⟩
      rw [later]
      exact List.mem_append_left _ member
  · exact (aside (.write bytes answer) (by rw [split]; simp)).elim

/-- Whatever is tracked, sent or written is of a message that was accepted, or of a packet that was
    put on the write queue, since the session was last cleared. -/
structure Isolating (H : Type) {P E : Type} [MqttProtocolHandler H P E] [LawfulHandler H P E] (v : View P) : Prop where
  tracked : ∀ pid, Tracked v.session pid → Fresh v.log pid
  publishes : ∀ before frame after message pid, v.log = before ++ .queued frame :: after →
    shape (H := H) frame.packet = .publish message → message.qos_pid.pid = some pid → Fresh before pid
  writes : ∀ before bytes answer after, v.log = before ++ .write bytes answer :: after → Handing before bytes

theorem isolating_after {config : ClientConfig} {grant : Grant} {v : View P} {act : Act P}
    (allowed : act.Allowed H config grant v) (isolating : Isolating H v) : Isolating H (act.after v) := by
  refine ⟨fun pid tracked => ?_, fun before frame after message pid split publish carries => ?_,
    fun before bytes answer after split => ?_⟩
  · have uncleared : .cleared ∉ act.events := fun cleared => by
      rw [act_cleared allowed cleared] at tracked
      exact tracked.elim (AList.notMem_empty pid) (AList.notMem_empty pid)
    rcases tracked_after allowed tracked with old | accepted
    · exact (isolating.tracked pid old).append uncleared
    · exact .of_accepted accepted uncleared
  · rcases split_append split with ⟨part, here⟩ | ⟨more, rfl, later⟩
    · exact isolating.publishes _ _ _ _ _ here publish carries
    · refine (isolating.tracked pid (act_publish allowed later publish carries)).append fun cleared => ?_
      have clearing : act = .clear := act_cleared allowed (by rw [later]; exact List.mem_append_left _ cleared)
      have queued : .queued frame ∈ Act.events (P := P) .clear := by rw [← clearing, later]; simp
      simp [Act.events] at queued
  · rcases split_append split with ⟨part, here⟩ | ⟨more, rfl, later⟩
    · exact isolating.writes _ _ _ _ here
    · exact act_written allowed later

/-- Every PUBREL belongs to a message that was accepted since the session was last cleared. -/
def Released (H : Type) {P E : Type} [MqttProtocolHandler H P E] [LawfulHandler H P E] (log : List (Event P)) : Prop :=
  ∀ before frame after pid, log = before ++ .queued frame :: after → shape (H := H) frame.packet = .pubrel pid →
    Fresh before pid

/-- An idle client stays idle, and both are kept. -/
def Isolates (c c' : MqttClient H P E) : Prop := c.Idle → Isolating H c.view → Released H c.protocol_engine.log →
  c'.Idle ∧ Isolating H c'.view ∧ Released H c'.protocol_engine.log

theorem Isolates.trans {c c' c'' : MqttClient H P E} (first : Isolates c c') (second : Isolates c' c'') :
    Isolates c c'' := by
  intro idle isolating released
  obtain ⟨idle', isolating', released'⟩ := first idle isolating released
  exact second idle' isolating' released'

instance : Std.Refl (Isolates (H := H) (P := P) (E := E)) := ⟨fun _ idle isolating released => ⟨idle, isolating, released⟩⟩
instance : IsTrans (MqttClient H P E) Isolates := ⟨fun _ _ _ => Isolates.trans⟩

/-- What does allowed acts, with a reason for each PUBREL. -/
theorem isolates {grant : Grant} {A : Deed → Prop} {c c' : MqttClient H P E} (follows : Follows grant c c')
    (does : DoesC A c c') (pubrels : ∀ pid, A (.sends (.pubrel pid)) → Tracked c.session_state pid ∧ ¬ A .clears) :
    Isolates c c' := by
  intro idle isolating released
  obtain ⟨idle', -, acts, path⟩ := follows idle
  refine ⟨idle', path.invariant (fun _ _ => isolating_after) isolating, fun before frame after pid split pubrel => ?_⟩
  obtain ⟨-, events, log, allowed⟩ := does idle
  rw [log] at split
  rcases split_append split with ⟨part, here⟩ | ⟨more, rfl, later⟩
  · exact released _ _ _ _ here pubrel
  · have sends : A (.sends (.pubrel pid)) := by
      rw [← pubrel]
      exact allowed (.queued frame) (by rw [later]; simp) _ rfl
    obtain ⟨tracked, unclear⟩ := pubrels pid sends
    refine (isolating.tracked pid tracked).append fun cleared => unclear ?_
    exact allowed .cleared (by rw [later]; exact List.mem_append_left _ cleared) _ rfl

/-! ### The operations -/

/-- Anything but a PUBREL. -/
def Unreleasing (shape : Shape) : Prop := ∀ pid, shape ≠ .pubrel pid

/-- Only what is tracked is released, and the session is not cleared. -/
def Releasing (s : InMemorySession) : Deed → Prop
  | .sends shape => ∀ pid, shape = .pubrel pid → Tracked s pid
  | .clears => False

theorem calm {grant : Grant} {m : ClientM H P E α} (acting : Operations.Acting grant m)
    (does : Moves (DoesC (Sending Unreleasing)) m) : Moves Isolates m := fun c =>
  isolates (acting c) (does c) fun pid unreleasing => absurd rfl (unreleasing pid)

theorem again_unreleasing {shape : Shape} (again : Again shape) : Unreleasing shape := by
  rintro pid rfl
  exact again
theorem reply_unreleasing {shape : Shape} (reply : Provenance.Reply shape) : Unreleasing shape := by
  rintro pid rfl
  exact reply

theorem poll_connected_isolates : Moves Isolates (MqttClient.poll_connected (H := H)) := by
  intro c idle
  have releases : Moves (Releases (Releasing c.session_state)) (MqttClient.poll_connected (H := H)) :=
    poll_connected (fun _ again pid same => absurd same (again_unreleasing again pid)) (fun _ same => by cases same)
      fun _ reply pid same => absurd same (reply_unreleasing reply pid)
  have releasable : Releasable (Releasing c.session_state) c.session_state := fun pid tracked pid' same => by
    cases same
    exact tracked
  obtain ⟨-, -, does⟩ := releases c idle releasable
  have acting : Operations.Acting Polling.grant (MqttClient.poll_connected (H := H)) := Operations.poll_connected
  exact isolates (acting c) does (fun pid sends => ⟨sends pid rfl, id⟩) idle

theorem poll_isolates : Moves Isolates (MqttClient.poll (H := H)) := by
  have entered : ∀ new, new ≠ .Connected →
      Moves Isolates (MqttClient.set_connection_state new : ClientM H P E Unit) := fun new other =>
    have acting : Operations.Acting Polling.grant (MqttClient.set_connection_state new : ClientM H P E Unit) :=
      Operations.entering other
    calm acting (entering new)
  have reconnected : Moves Isolates (MqttClient.reconnect (H := H)) := by
    have acting : Operations.Acting Polling.grant (MqttClient.reconnect (H := H)) := Operations.reconnect
    refine calm acting (reconnect trivial (fun clean pid same => ?_) ?_)
    · cases same
    · exact fun _ again => again_unreleasing again
  refine Moves.get.bind fun c => Moves.ite (fun _ => Moves.ite (fun _ => ?_) fun _ => Moves.ite (fun _ => ?_) fun _ => ?_)
    fun _ => poll_connected_isolates
  · refine reconnected.attempt.bind fun result => ?_
    cases result with
    | ok _ => exact poll_connected_isolates
    | error _ => exact (entered _ (by decide)).bind fun _ => Moves.pure _
  · exact (entered _ (by decide)).bind fun _ => Moves.pure _
  · exact Moves.pure _

end

section
variable [Codec V3.Packet MqttProtoError] [Codec V5.Packet ErrorV5] {v : Version}

theorem perform_isolates (op : Op v) (c : Client v) : Isolates c (exec op.perform c).2 := by
  by_cases polls : op = .poll
  · subst polls
    exact Moves.bind (f := fun event => pure (Reply.event event)) poll_isolates (fun _ => Moves.pure _) c
  · intro idle
    refine isolates (op.perform_follows c) (perform_does idle) (fun pid emits => ?_) idle
    exact absurd (emits_pubrel emits) polls

theorem reachable_isolating {c : Client v} (reachable : c.Reachable) :
    Isolating v.Handler c.view ∧ Released v.Handler c.protocol_engine.log := by
  obtain ⟨world, setup, config, calls, rfl⟩ := reachable
  refine (Runs.invariant_all (I := fun c : Client v => c.Idle ∧ Isolating v.Handler c.view ∧
    Released v.Handler c.protocol_engine.log) (fun c call holds => ?_) ?_ calls).2
  · obtain ⟨idle, isolating, released⟩ := holds
    exact perform_isolates call.op (c.withWorld call.world) idle
      ⟨isolating.tracked, isolating.publishes, isolating.writes⟩ released
  · refine ⟨MqttClient.new_idle .., ⟨fun pid tracked => ?_, fun _ _ _ _ _ split => ?_, fun _ _ _ _ split => ?_⟩,
      fun _ _ _ _ split => ?_⟩
    · exact tracked.elim (absurd · (AList.notMem_empty pid)) (absurd · (AList.notMem_empty pid))
    · exact absurd split.symm (List.append_ne_nil_of_right_ne_nil _ (List.cons_ne_nil _ _))
    · exact absurd split.symm (List.append_ne_nil_of_right_ne_nil _ (List.cons_ne_nil _ _))
    · exact absurd split.symm (List.append_ne_nil_of_right_ne_nil _ (List.cons_ne_nil _ _))

/-- What a run does after the session was cleared concerns what has been accepted and queued since. -/
structure Isolated (v : Version) [Codec V3.Packet MqttProtoError] [Codec V5.Packet ErrorV5]
    (events : List (Event v.Packet)) : Prop where
  accepted : ∀ before frame after pid, events = before ++ .queued frame :: after →
    handshake (shape (H := v.Handler) frame.packet) = some pid → .accepted pid ∈ before
  written : ∀ before bytes answer after, events = before ++ .write bytes answer :: after → Handing before bytes

theorem isolated {c : Client v} (reachable : c.Reachable) {before after : List (Event v.Packet)}
    (log : c.protocol_engine.log = before ++ .cleared :: after) : Isolated v after := by
  obtain ⟨isolating, released⟩ := reachable_isolating reachable
  have located : ∀ {older newer : List (Event v.Packet)} {event : Event v.Packet}, after = older ++ event :: newer →
      c.protocol_engine.log = (before ++ .cleared :: older) ++ event :: newer := fun split => by
    rw [log, split]
    simp
  refine ⟨fun older frame newer pid split belongs => ?_, fun older bytes answer newer split => ?_⟩
  · cases shaped : shape (H := v.Handler) frame.packet with
    | publish message =>
      rw [shaped] at belongs
      exact (isolating.publishes _ _ _ _ _ (located split) shaped belongs).since
    | pubrel pid' =>
      rw [shaped] at belongs
      cases belongs
      exact (released _ _ _ _ (located split) shaped).since
    | _ => rw [shaped] at belongs; cases belongs
  · exact (isolating.writes _ _ _ _ (located split)).since

/-- The operation publishes what the packet carries. -/
def Requests : {v : Version} → Op v → Shape → Prop
  | _, .publish topic payload config, shape | _, .publish_v5 topic payload config _, shape =>
    First topic config.qos config.retain payload shape
  | _, _, _ => False

omit [Codec V3.Packet MqttProtoError] [Codec V5.Packet ErrorV5] in
/-- A PUBLISH without an identifier goes out once, for the operation that publishes it. -/
theorem emits_unstored {op : Op v} {message : V3.Publish} (emits : Emits op (.publish message))
    (unstored : message.qos_pid.pid = none) : Requests op (.publish message) := by
  cases op with
  | publish | publish_v5 => exact emits
  | connect | reconnect =>
    rcases emits with ⟨clean, same⟩ | again
    · cases same
    · exact absurd unstored again.2
  | poll =>
    rcases emits with ⟨clean, same⟩ | again | same | reply | ⟨pid, same⟩
    · cases same
    · exact absurd unstored again.2
    · cases same
    · exact reply.elim
    · cases same
  | disconnect | ping => cases emits
  | subscribe | subscribe_multiple | subscribe_v5 | unsubscribe | unsubscribe_multiple =>
    obtain ⟨_, _, same⟩ := emits
    cases same
  | next_message | set_v5_config => exact emits.elim

/-- Connecting starts with an empty session, as if the client had never had another one. -/
structure Renews (c : Client v) : Prop where
  clears : ∃ events, (exec MqttClient.connect c).2.protocol_engine.log = c.protocol_engine.log ++ .cleared :: events
  same : exec MqttClient.connect c =
    exec MqttClient.connect { c with session_state := .new c.session_state.sub_capacity }

/-- The client once the session was cleared to connect. -/
def opening (c : Client v) : Client v := { c with
  state := c.state.set_connection_state .Connecting
  session_state := SessionState.clear c.session_state
  protocol_engine := record .cleared c.protocol_engine }

theorem connect_renews {c : Client v} (idle : c.Idle) (clean : c.config.clean_session = true)
    (valid : c.config.validate = .ok ()) : Renews c := by
  obtain ⟨rest, connect, config_only, does⟩ := connect_rest (H := v.Handler) (P := v.Packet) (E := v.Error)
  have opened : ∀ c : Client v, c.config.clean_session = true → c.config.validate = .ok () →
      exec MqttClient.connect c = exec (rest c) (opening c) := fun c clean valid => by
    rw [connect, exec_bind, exec_get]
    simp only [valid, ofExcept_ok, pure_bind, clean, onlyIf, if_true]
    rfl
  constructor
  · obtain ⟨-, events, log, -⟩ := does (fun _ => True) c (fun _ => trivial) (fun _ _ => trivial) (opening c) idle
    refine ⟨events, ?_⟩
    rw [opened c clean valid]
    exact log.trans (List.append_assoc ..)
  · rw [opened c clean valid, opened { c with session_state := .new c.session_state.sub_capacity } clean valid]
    rw [config_only c { c with session_state := .new c.session_state.sub_capacity } rfl]
    rfl

/-- In every run, from a call of `connect` on that passes validation, and so clears the session: the client does what
    one with a new session does; a PUBLISH with an identifier or a PUBREL follows the acceptance of its message;
    only the bytes of a packet that was put on the write queue since are written; and a PUBLISH without an identifier
    is that of the call that sends it. -/
theorem clean_session_isolates {c : Client v} (reachable : c.Reachable) (clean : c.config.clean_session = true) :
    (∀ c' : Client v, c'.Idle → c'.config = c.config → c.config.validate = .ok () → Renews c') ∧
    (∀ before after, c.protocol_engine.log = before ++ .cleared :: after → Isolated v after) ∧
    ∀ (call : Call v) frame message, .queued frame ∈ c.events call →
      shape (H := v.Handler) frame.packet = .publish message → message.qos_pid.pid = none →
        Requests call.op (.publish message) := by
  refine ⟨fun c' idle config valid => ?_, fun before after log => isolated reachable log, ?_⟩
  · rw [← config] at clean valid
    exact connect_renews idle clean valid
  · intro call frame message queued publish unstored
    have emits := call_emits reachable.idle queued
    rw [publish] at emits
    exact emits_unstored emits unstored

end

section
local instance : Codec V3.Packet MqttProtoError := Wire.v3Codec
local instance : Codec V5.Packet ErrorV5 := Wire.v5Codec

/-- A client that connects again with a message pending, takes the next one under the same identifier and retries it. -/
def taken_again : Client .v3 := Client.run (MqttClient.new (.obliging true []) {} {})
  [⟨.connect, .obliging true [.Connack ⟨false, 0⟩]⟩, ⟨.publish "a" [1] ⟨.Level1, false⟩, .obliging true []⟩,
    ⟨.disconnect, .obliging true []⟩, ⟨.connect, .obliging true [.Connack ⟨false, 0⟩]⟩,
    ⟨.publish "b" [2] ⟨.Level1, false⟩, .obliging true []⟩,
    ⟨.poll, { World.obliging true [] with now := fun _ => 6000 }⟩]

theorem taken_again_reachable : taken_again.Reachable := ⟨_, (), _, _, rfl⟩

theorem clean_session_isolates_again : Isolated .v3 (taken_again.protocol_engine.log.drop 23) :=
  (clean_session_isolates taken_again_reachable (by decide +kernel)).2.1 (taken_again.protocol_engine.log.take 22) _
    (by decide +kernel)

end

end Masaka.CleanSession
