import Masaka.Polling
import Masaka.Tracking

/-!
Where the packets come from that an operation puts on the write queue: what each
operation may send (`perform_does`), and that a PUBLISH with an identifier and a
PUBREL belong to what the session held before or has accepted since (`call_sources`).
-/
namespace Masaka.Provenance
open Effect Tables Runs MqttProtocolHandler LawfulHandler MqttProtocolEngine Sending
open MqttClient (engine engineSession)
open Tracking (Tracked)

/-! ### What the session holds -/

/-- How many handshakes the session holds under the identifier. -/
def weight (s : InMemorySession) (pid : Pid) : Nat :=
  (if pid ∈ s.pending_publishes then 1 else 0) + (if pid ∈ s.pending_pubrels then 1 else 0)

section
variable {P : Type}

/-- The identifiers of the messages that were stored. -/
def acceptances (log : List (Event P)) : List Pid := log.filterMap fun
  | .accepted pid => some pid
  | _ => none

@[simp] theorem acceptances_append (log more : List (Event P)) :
    acceptances (log ++ more) = acceptances log ++ acceptances more := List.filterMap_append

theorem mem_acceptances {log : List (Event P)} {pid : Pid} : pid ∈ acceptances log ↔ .accepted pid ∈ log := by
  simp only [acceptances, List.mem_filterMap]
  constructor
  · rintro ⟨event, member, accepted⟩
    cases event <;> cases accepted
    exact member
  · exact fun member => ⟨.accepted pid, member, rfl⟩

end

theorem count_if_le {p q : Prop} [Decidable p] [Decidable q] (implies : p → q) :
    (if p then 1 else 0) ≤ (if q then 1 else 0 : Nat) := by
  split
  · rename_i holds
    rw [if_pos (implies holds)]
  · exact Nat.zero_le _

/-- A session that holds no more under the identifier. -/
theorem weight_le {s s' : InMemorySession} {pid : Pid} (publishes : pid ∈ s'.pending_publishes → pid ∈ s.pending_publishes)
    (pubrels : pid ∈ s'.pending_pubrels → pid ∈ s.pending_pubrels) : weight s' pid ≤ weight s pid :=
  Nat.add_le_add (count_if_le publishes) (count_if_le pubrels)

theorem weight_publish {s : InMemorySession} {pid : Pid} (member : pid ∈ s.pending_publishes) :
    weight s pid = 1 + if pid ∈ s.pending_pubrels then 1 else 0 := by
  rw [weight, if_pos member]
theorem weight_pubrel {s : InMemorySession} {pid : Pid} (gone : pid ∉ s.pending_publishes) :
    weight s pid = if pid ∈ s.pending_pubrels then 1 else 0 := by
  rw [weight, if_neg gone, Nat.zero_add]

theorem weight_pos {s : InMemorySession} {pid : Pid} : 0 < weight s pid ↔ Tracked s pid := by
  unfold weight Tracked
  split <;> split <;> simp_all

section
variable {H P E : Type} [MqttProtocolHandler H P E] [LawfulHandler H P E]

/-- Only a message that is accepted adds to the handshakes. -/
theorem weight_after {config : ClientConfig} {grant : Grant} {v : View P} {act : Act P}
    (allowed : act.Allowed H config grant v) (pid : Pid) :
    weight (act.session v.session) pid ≤ weight v.session pid + (acceptances act.events).count pid := by
  have fewer : ∀ {s : InMemorySession}, (pid ∈ s.pending_publishes → pid ∈ v.session.pending_publishes) →
      (pid ∈ s.pending_pubrels → pid ∈ v.session.pending_pubrels) →
      weight s pid ≤ weight v.session pid + (acceptances act.events).count pid := fun publishes pubrels =>
    (weight_le publishes pubrels).trans (Nat.le_add_right _ _)
  have untouched : ∀ s : InMemorySession, SessionState.untouched s = SessionState.untouched v.session →
      weight s pid ≤ weight v.session pid + (acceptances act.events).count pid := fun s same => by
    have handshakes := SessionState.handshakes_untouched same
    refine fewer ?_ ?_
    · rw [show s.pending_publishes = _ from congrArg Prod.fst handshakes]; exact id
    · rw [show s.pending_pubrels = _ from congrArg Prod.snd handshakes]; exact id
  cases act with
  | transmit | note | state | link | hand_out => exact fewer id id
  | add taken topic_filter qos => exact untouched _ (SessionState.add_subscription_untouched ..)
  | confirm taken codes => exact untouched _ (SessionState.confirm_subscription_untouched ..)
  | remove order topic_filter => exact untouched _ (SessionState.remove_subscription_untouched ..)
  | clear => exact fewer (absurd · (AList.notMem_empty pid)) (absurd · (AList.notMem_empty pid))
  | complete taken => exact fewer (fun member => (AList.mem_erase.mp member).2) id
  | finish taken => exact fewer id fun member => (AList.mem_erase.mp member).2
  | retry taken message =>
    obtain ⟨old, stored, -⟩ := allowed
    have present : taken ∈ v.session.pending_publishes := mem_iff_lookup.mpr ⟨old, stored⟩
    exact fewer (fun member => ((AList.mem_insert _).mp member).elim (fun same => same ▸ present) id) id
  | accept taken message =>
    by_cases same : pid = taken
    · subst same
      have stored : pid ∈ (Act.session (P := P) v.session (.accept pid message)).pending_publishes :=
        (AList.mem_insert _).mpr (.inl rfl)
      have one : (acceptances (P := P) (Act.accept pid message).events).count pid = 1 := by simp [acceptances, Act.events]
      have pubrels := count_if_le (p := pid ∈ (Act.session (P := P) v.session (.accept pid message)).pending_pubrels)
        (q := pid ∈ v.session.pending_pubrels) id
      rw [one, weight_publish stored, weight]
      omega
    · exact fewer (fun member => ((AList.mem_insert _).mp member).resolve_left same) id
  | release taken frame events rest =>
    obtain ⟨-, present, -⟩ := allowed
    by_cases same : pid = taken
    · subst same
      have gone : pid ∉ (Act.session v.session (.release pid frame events rest)).pending_publishes :=
        fun member => (AList.mem_erase.mp member).1 rfl
      rw [weight_pubrel gone, weight_publish present]
      split <;> omega
    · refine fewer (fun member => (AList.mem_erase.mp member).2) fun member => ?_
      exact ((AList.mem_insert _).mp member).resolve_left same

/-- What is outstanding after some acts was outstanding before, or has been accepted. -/
theorem follows_weight {grant : Grant} {c c' : MqttClient H P E} (follows : Follows grant c c') (idle : c.Idle)
    (pid : Pid) : weight c'.session_state pid + (acceptances c.protocol_engine.log).count pid ≤
      weight c.session_state pid + (acceptances c'.protocol_engine.log).count pid := by
  obtain ⟨-, -, acts, path⟩ := follows idle
  refine path.invariant (I := fun view => weight view.session pid + (acceptances c.protocol_engine.log).count pid ≤
    weight c.session_state pid + (acceptances view.log).count pid) (fun view act allowed holds => ?_) (le_refl _)
  have step := weight_after allowed pid
  simp only [Act.after, acceptances_append, List.count_append]
  omega

/-- What is tracked after an act was tracked before, or is accepted by it. -/
theorem tracked_after {config : ClientConfig} {grant : Grant} {v : View P} {act : Act P}
    (allowed : act.Allowed H config grant v) {pid : Pid} (tracked : Tracked (act.session v.session) pid) :
    Tracked v.session pid ∨ .accepted pid ∈ act.events := by
  have gained := weight_after allowed pid
  have some := weight_pos.mpr tracked
  by_cases before : Tracked v.session pid
  · exact .inl before
  · have none : ¬ 0 < weight v.session pid := fun held => before (weight_pos.mp held)
    exact .inr (mem_acceptances.mp (List.count_pos_iff.mp (by omega)))

/-- An element of two lists one after the other is in the first or in the second. -/
theorem split_append {α : Type} {first second before after : List α} {a : α}
    (split : first ++ second = before ++ a :: after) : (∃ part, first = before ++ a :: part) ∨
      ∃ more, before = first ++ more ∧ second = more ++ a :: after := by
  rcases List.append_eq_append_iff.mp split with ⟨more, same, later⟩ | ⟨part, here, rest⟩
  · exact .inr ⟨more, same, later⟩
  · cases part with
    | nil => exact .inr ⟨[], by rw [List.append_nil] at here ⊢; exact here.symm, rest.symm⟩
    | cons b part =>
      cases (List.cons.inj rest).1
      exact .inl ⟨part, here⟩

/-- An event that is no part of a transmission. -/
def Aside : Event P → Prop
  | .queued _ | .write _ _ | .sent _ | .flush _ => False
  | _ => True

/-- The events of an act are those of a transmission, of a PUBREL or of a packet that is permitted, or apart from any. -/
theorem act_events {config : ClientConfig} {grant : Grant} {v : View P} {act : Act P}
    (allowed : act.Allowed H config grant v) :
    (∃ frame flush rest r, Transmission v.write flush frame act.events rest r ∧
      ((∃ pid, shape (H := H) frame.packet = .pubrel pid) ∨ Permitted H grant.plain v frame.packet)) ∨
    ∀ event ∈ act.events, Aside event := by
  cases act with
  | transmit frame events rest =>
    obtain ⟨⟨flush, r, transmission⟩, permitted⟩ := allowed
    exact .inl ⟨frame, flush, rest, r, transmission, .inr permitted⟩
  | release pid frame events rest =>
    obtain ⟨⟨flush, transmission⟩, -, pubrel⟩ := allowed
    exact .inl ⟨frame, flush, rest, _, transmission, .inl ⟨pid, pubrel⟩⟩
  | note event =>
    refine .inr fun other member => ?_
    rw [List.mem_singleton.mp member]
    cases event with
    | close | received | clock | delay => trivial
    | _ => exact absurd allowed id
  | accept | hand_out | clear | complete | retry | finish | add | confirm | remove | state | link =>
    simp [Act.events, Aside]

/-- A transmission queues one packet, with its first event. -/
theorem transmission_queued {tape rest : Tape} {flush : Answer Unit} {frame frame' : Frame P} {events : List (Event P)}
    {r : Except (Halt MqttError) Unit} (transmission : Transmission tape flush frame' events rest r)
    {before after : List (Event P)} (split : events = before ++ .queued frame :: after) : frame = frame' ∧ before = [] := by
  obtain ⟨more, same, hands_over⟩ := transmission.queued
  rw [same] at split
  rcases List.cons_eq_append_iff.mp split with ⟨first, here⟩ | ⟨before', -, later⟩
  · cases (List.cons.inj here).1
    exact ⟨rfl, first⟩
  · exact (hands_over (.queued frame) (by rw [later]; simp)).elim

/-- A PUBLISH with an identifier that an act sends is tracked. -/
theorem act_publish {config : ClientConfig} {grant : Grant} {v : View P} {act : Act P}
    (allowed : act.Allowed H config grant v) {before after : List (Event P)} {frame : Frame P}
    (split : act.events = before ++ .queued frame :: after) {message : V3.Publish}
    (publish : shape (H := H) frame.packet = .publish message) {pid : Pid} (carries : message.qos_pid.pid = some pid) :
    Tracked v.session pid := by
  rcases act_events allowed with ⟨frame', flush, rest, r, transmission, sending⟩ | aside
  · cases (transmission_queued transmission split).1
    rcases sending with ⟨released, pubrel⟩ | permitted
    · cases publish.symm.trans pubrel
    · simp only [Permitted, publish] at permitted
      obtain ⟨message', stored, -⟩ := permitted pid carries
      exact .inl (mem_iff_lookup.mpr ⟨message', stored⟩)
  · exact (aside (.queued frame) (by rw [split]; simp)).elim

/-- A PUBLISH with an identifier belongs to what was tracked before the acts, or was accepted before it. -/
theorem path_publish {config : ClientConfig} {grant : Grant} {v : View P} {acts : List (Act P)}
    (allowed : Along Act.after (Act.Allowed H config grant) v acts) {before after : List (Event P)} {frame : Frame P}
    (split : acts.flatMap Act.events = before ++ .queued frame :: after) {message : V3.Publish}
    (publish : shape (H := H) frame.packet = .publish message) {pid : Pid} (carries : message.qos_pid.pid = some pid) :
    Tracked v.session pid ∨ .accepted pid ∈ before := by
  induction acts generalizing v before with
  | nil => simp at split
  | cons act rest ih =>
    rw [List.flatMap_cons] at split
    rcases split_append split with ⟨part, here⟩ | ⟨more, rfl, later⟩
    · exact .inl (act_publish allowed.1 here publish carries)
    · rcases ih allowed.2 later with tracked | accepted
      · exact (tracked_after allowed.1 tracked).imp_right (List.mem_append_left _)
      · exact .inr (List.mem_append_right _ accepted)

/-- A packet that an act sends completely was put on the write queue by it. -/
theorem act_sent {config : ClientConfig} {grant : Grant} {v : View P} {act : Act P}
    (allowed : act.Allowed H config grant v) {frame : Frame P} (member : .sent frame ∈ act.events) :
    .queued frame ∈ act.events := by
  rcases act_events allowed with ⟨frame', flush, rest, r, transmission, -⟩ | aside
  · obtain ⟨more, same, -⟩ := transmission.queued
    rw [transmission.sends member, same]
    exact List.mem_cons_self
  · exact (aside _ member).elim

/-- What is tracked after some acts was tracked before, or has been accepted. -/
theorem follows_tracked {grant : Grant} {c c' : MqttClient H P E} (follows : Follows grant c c') (idle : c.Idle)
    {pid : Pid} (tracked : Tracked c'.session_state pid) : Tracked c.session_state pid ∨
      (acceptances c.protocol_engine.log).count pid < (acceptances c'.protocol_engine.log).count pid := by
  have gained := follows_weight follows idle pid
  have some := weight_pos.mpr tracked
  by_cases before : Tracked c.session_state pid
  · exact .inl before
  · have none : ¬ 0 < weight c.session_state pid := fun held => before (weight_pos.mp held)
    exact .inr (by omega)

/-- Only an act that takes an identifier accepts a message. -/
theorem act_accepted {config : ClientConfig} {grant : Grant} {v : View P} {act : Act P} {pid : Pid}
    (allowed : act.Allowed H config grant v) (accepted : .accepted pid ∈ act.events) : grant.identifier = some pid := by
  cases act with
  | transmit frame events rest =>
    obtain ⟨⟨flush, r, transmission⟩, -⟩ := allowed
    exact absurd accepted (transmission.unsaid (by simp) id)
  | release released frame events rest =>
    obtain ⟨⟨flush, transmission⟩, -⟩ := allowed
    exact absurd accepted (transmission.unsaid (by simp) id)
  | accept taken message =>
    have same : pid = taken := by simpa [Act.events] using accepted
    rw [same]
    exact allowed.1
  | note event =>
    rw [← List.mem_singleton.mp accepted] at allowed
    exact allowed.elim
  | _ => simp [Act.events] at accepted

theorem untaking_acceptances {config : ClientConfig} {grant : Grant} (untaking : grant.identifier = none) {v : View P}
    {act : Act P} (allowed : act.Allowed H config grant v) : acceptances act.events = [] := by
  refine List.eq_nil_iff_forall_not_mem.mpr fun pid member => ?_
  cases untaking.symm.trans (act_accepted allowed (mem_acceptances.mp member))

/-- Acts that take no identifier leave nothing tracked that was not tracked before. -/
theorem untaking_tracked {grant : Grant} (untaking : grant.identifier = none) {c c' : MqttClient H P E}
    (follows : Follows grant c c') (idle : c.Idle) {pid : Pid} (tracked : Tracked c'.session_state pid) :
    Tracked c.session_state pid := by
  refine (follows_tracked follows idle tracked).resolve_right ?_
  obtain ⟨-, -, acts, path⟩ := follows idle
  have kept : ∀ view (act : Act P), act.Allowed H c.config grant view →
      acceptances view.log = acceptances c.protocol_engine.log →
      acceptances (act.after view).log = acceptances c.protocol_engine.log := by
    intro view act allowed same
    change acceptances (view.log ++ act.events) = _
    rw [acceptances_append, untaking_acceptances untaking allowed, List.append_nil, same]
  have same : acceptances c'.protocol_engine.log = acceptances c.protocol_engine.log :=
    path.invariant (I := fun view => acceptances view.log = acceptances c.protocol_engine.log) kept rfl
  rw [same]
  exact lt_irrefl _

end

/-! ### What is put on the write queue -/

/-- What an operation does that others can tell: it sends a packet of the shape, or clears the session. -/
inductive Deed where
  | sends (shape : Shape)
  | clears

/-- Only packets of such a shape are sent. -/
def Sending (A : Shape → Prop) : Deed → Prop
  | .sends shape => A shape
  | .clears => True

section
variable {H P E α β : Type} [MqttProtocolHandler H P E] [LawfulHandler H P E]

/-- What an event tells of. -/
def deed (H : Type) {P E : Type} [MqttProtocolHandler H P E] [LawfulHandler H P E] : Event P → Option Deed
  | .queued frame => some (.sends (shape (H := H) frame.packet))
  | .cleared => some .clears
  | _ => none

/-- An idle engine stays idle, and does nothing but what the predicate allows. -/
def Does (A : Deed → Prop) (e e' : MqttProtocolEngine H P E) : Prop :=
  e.write_queue = [] → e'.write_queue = [] ∧ ∃ events, e'.log = e.log ++ events ∧
    ∀ event ∈ events, ∀ done ∈ deed H event, A done

variable {A : Deed → Prop}

theorem Does.refl (e : MqttProtocolEngine H P E) : Does A e e := fun idle => ⟨idle, [], by simp⟩
theorem Does.trans {e e' e'' : MqttProtocolEngine H P E} (first : Does A e e') (second : Does A e' e'') :
    Does A e e'' := by
  intro idle
  obtain ⟨idle', events, log, allowed⟩ := first idle
  obtain ⟨idle'', more, log', allowed'⟩ := second idle'
  refine ⟨idle'', events ++ more, by rw [log', log, List.append_assoc], fun event member => ?_⟩
  exact (List.mem_append.mp member).elim (allowed event) (allowed' event)

abbrev DoesS (A : Deed → Prop) (s s' : MqttProtocolEngine H P E × InMemorySession) : Prop := Does A s.1 s'.1
abbrev DoesC (A : Deed → Prop) (c c' : MqttClient H P E) : Prop := Does A c.protocol_engine c'.protocol_engine

instance : Std.Refl (Does (H := H) (P := P) (E := E) A) := ⟨Does.refl⟩
instance : IsTrans (MqttProtocolEngine H P E) (Does A) := ⟨fun _ _ _ => Does.trans⟩
instance : Std.Refl (DoesS (H := H) (P := P) (E := E) A) := ⟨fun s => Does.refl s.1⟩
instance : IsTrans (MqttProtocolEngine H P E × InMemorySession) (DoesS A) := ⟨fun _ _ _ => Does.trans⟩
instance : Std.Refl (DoesC (H := H) (P := P) (E := E) A) := ⟨fun c => Does.refl c.protocol_engine⟩
instance : IsTrans (MqttClient H P E) (DoesC A) := ⟨fun _ _ _ => Does.trans⟩

theorem Does.event {e e' : MqttProtocolEngine H P E} (event : Event P) (log : e'.log = e.log ++ [event])
    (allowed : ∀ done ∈ deed H event, A done) (queue : e'.write_queue = e.write_queue) : Does A e e' := fun idle =>
  ⟨queue.trans idle, [event], log, fun other member => by rw [List.mem_singleton.mp member]; exact allowed⟩
theorem Does.aside {e e' : MqttProtocolEngine H P E} (log : e'.log = e.log)
    (queue : e'.write_queue = e.write_queue) : Does A e e' := fun idle =>
  ⟨queue.trans idle, [], by rw [log, List.append_nil], by simp⟩

theorem Does.sent {packet : P} {r : Except (Halt MqttError) Unit} {e e' : MqttProtocolEngine H P E}
    (sent : Sent packet e r e') (allowed : A (.sends (shape (H := H) packet))) : Does A e e' := by
  intro idle
  refine ⟨sent.idle idle, ?_⟩
  cases sent with
  | unencoded _ => exact ⟨[], by simp⟩
  | encoded _ transmission _ =>
    refine ⟨_, rfl, transmission.all (fun done doing => ?_) (fun _ _ => by simp [deed]) (by simp [deed])
      (fun _ => by simp [deed]) fun _ => by simp [deed]⟩
    cases doing
    exact allowed

/-! ### The engine -/

theorem clock : Moves (Does A) (current_timestamp_ms : EngineM H P E Nat) := fun _ =>
  .event (.clock _) rfl (by simp [deed]) rfl
theorem recording (event : Event P) (allowed : ∀ done ∈ deed H event, A done) :
    Moves (Does A) (modify (record event) : EngineM H P E PUnit) := fun _ => .event event rfl allowed rfl
theorem setting {f : MqttProtocolEngine H P E → MqttProtocolEngine H P E} (log : ∀ e, (f e).log = e.log)
    (queue : ∀ e, (f e).write_queue = e.write_queue) : Moves (Does A) (modify f : EngineM H P E PUnit) := fun e =>
  .aside (log e) (queue e)

theorem sending {packet : P} (allowed : A (.sends (shape (H := H) packet))) : Moves (Does A) (send_packet (H := H) packet) :=
  fun _ idle => Does.sent (send_packet_spec packet idle) allowed idle

theorem waiting : Moves (Does A) (receive_packet_unlogged : EngineM H P E PacketAction) := by
  intro e idle
  have waited := receive_packet_unlogged_spec e
  refine ⟨waited.queue.trans idle, arrival e, waited.log, ?_⟩
  unfold arrival
  split <;> simp [deed]

theorem engine_ping (allowed : A (.sends .pingreq)) : Moves (Does A) (MqttProtocolEngine.ping : EngineM H P E Unit) :=
  Moves.get.bind fun e => Moves.ite (fun _ => Moves.fail _) fun _ => sending (by rw [LawfulHandler.pingreq]; exact allowed)

theorem engine_disconnect (allowed : A (.sends .disconnect)) :
    Moves (Does A) (MqttProtocolEngine.disconnect : EngineM H P E Unit) := by
  refine Moves.get.bind fun e => Moves.ite (fun _ => Moves.pure _) fun _ => ?_
  refine (sending (by rw [LawfulHandler.disconnect]; exact allowed)).bind fun _ => ?_
  exact Moves.bind (setting (fun _ => rfl) fun _ => rfl) fun _ => fun _ => .event (.close _) rfl (by simp [deed]) rfl

theorem connect_with_will (allowed : ∀ clean, A (.sends (.connect clean))) (id : String) (user : Option String)
    (pass : Option Bytes) (alive : UInt16) (clean : Bool) (topic : Option TopicName) (message : Option Bytes)
    (qos : Option QoS) (retain : Bool) : Moves (Does A)
      (connect_with_will id user pass alive clean topic message qos retain : EngineM H P E PacketAction) := by
  refine Moves.get.bind fun e => Moves.ite (fun _ => Moves.fail _) fun _ => ?_
  refine Moves.bind (setting (fun _ => rfl) fun _ => rfl) fun _ => Moves.bind_ofExcept fun packet created => ?_
  have shaped : shape (H := H) packet = .connect clean := by
    split at created
    · exact LawfulHandler.connect_with_will _ _ _ _ _ _ _ _ _ _ _ created
    · exact LawfulHandler.connect _ _ _ _ _ _ _ created
  refine (sending (by rw [shaped]; exact allowed clean)).bind fun _ => waiting.bind fun action => ?_
  cases action with
  | ConnectAck session_present return_code =>
    refine Moves.ite (fun _ => ?_) fun _ => Moves.fail _
    exact Moves.bind (setting (fun _ => rfl) fun _ => rfl) fun _ => Moves.pure _
  | _ => exact Moves.fail _

/-! ### The session -/

theorem inEngine {m : EngineM H P E α} (does : Moves (Does A) m) : Moves (DoesS A) (zoom first m) :=
  does.zoom first fun _ _ => id
theorem ofEngine {m : EngineM H P E α} (does : Moves (Does A) m) : Moves (DoesC A) (zoom engine m) :=
  does.zoom engine fun _ _ => id
theorem ofSession {m : SessionM H P E α} (does : Moves (DoesS A) m) : Moves (DoesC A) (zoom engineSession m) :=
  does.zoom engineSession fun _ _ => id

theorem onSession (f : InMemorySession → α × InMemorySession) : Moves (DoesS A) (onSession f : SessionM H P E α) :=
  fun s => Does.refl s.1
theorem trySession (f : InMemorySession → Except MqttError α × InMemorySession) :
    Moves (DoesS A) (trySession f : SessionM H P E α) :=
  (onSession _).bind fun _ => Moves.ofExcept _ _
theorem next_pid : Moves (DoesS A) (next_pid : SessionM H P E Pid) :=
  (onSession _).bind fun pid => Moves.bind (inEngine (recording (.handed_out pid) (by simp [deed]))) fun _ => Moves.pure _
theorem publish_pid (qos : QoS) : Moves (DoesS A) (publish_pid qos : SessionM H P E (Option Pid)) := by
  cases qos with
  | Level0 => exact Moves.pure _
  | Level1 | Level2 => exact next_pid.bind fun _ => Moves.pure _
theorem store_pending (pid : Option Pid) (topic : TopicName) (qos : QoS) (retain : Bool) (payload : Bytes) :
    Moves (DoesS A) (store_pending pid topic qos retain payload : SessionM H P E Unit) := by
  cases pid with
  | none => exact Moves.pure _
  | some pid =>
    exact (inEngine clock).bind fun _ => (trySession _).bind fun _ => inEngine (recording (.accepted pid) (by simp [deed]))

/-- A PUBLISH that goes out for the first time. -/
def First (topic : TopicName) (qos : QoS) (retain : Bool) (payload : Bytes) : Shape → Prop
  | .publish message => message.dup = false ∧ message.topic_name = topic ∧ message.qos_pid.qos = qos ∧
      message.retain = retain ∧ message.payload = payload
  | _ => False

/-- A PUBLISH that goes out again, which has an identifier. -/
def Again : Shape → Prop
  | .publish message => message.dup = true ∧ message.qos_pid.pid ≠ none
  | _ => False

theorem again {h : H} {topic : TopicName} {qos : QoS} {retain : Bool} {payload : Bytes} {pid : Pid} {packet : P}
    (created : create_publish_packet h topic qos retain payload (some pid) true = .ok packet) :
    Again (shape (H := H) packet) := by
  obtain ⟨qp, carried, shaped⟩ := LawfulHandler.publish _ _ _ _ _ _ _ _ created
  rw [shaped]
  exact ⟨rfl, by rw [(qos_pid_level carried).2]; simp⟩

theorem publish {topic : TopicName} {qos : QoS} {retain : Bool} {payload : Bytes}
    (allowed : ∀ shape, First topic qos retain payload shape → A (.sends shape)) :
    Moves (DoesS A) (publish topic qos retain payload : SessionM H P E (Option Pid)) := by
  refine Moves.get.bind fun s => Moves.ite (fun _ => Moves.fail _) fun _ => (publish_pid qos).bind fun pid => ?_
  refine Moves.bind_ofExcept fun packet created => (store_pending pid topic qos retain payload).bind fun _ => ?_
  obtain ⟨qp, carried, shaped⟩ := LawfulHandler.publish _ _ _ _ _ _ _ _ created
  refine Moves.bind (inEngine (sending (allowed _ ?_))) fun _ => Moves.pure _
  rw [shaped]
  exact ⟨rfl, rfl, (qos_pid_level carried).1, rfl, rfl⟩

/-- A request that takes an identifier and is sent. -/
theorem requesting {create : Pid → Except E P}
    (allowed : ∀ pid packet, create pid = .ok packet → A (.sends (shape (H := H) packet))) :
    Moves (DoesS (H := H) A) (MqttProtocolEngine.next_pid >>= fun pid => ofExcept (into H) (create pid) >>= fun packet =>
      zoom first (send_packet packet) >>= fun _ => pure pid) :=
  next_pid.bind fun pid => Moves.bind_ofExcept fun packet created =>
    (inEngine (sending (allowed pid packet created))).bind fun _ => Moves.pure _

theorem subscribe (allowed : ∀ pid topics, A (.sends (.subscribe pid topics))) (subscriptions : List (TopicFilter × QoS)) :
    Moves (DoesS A) (subscribe subscriptions : SessionM H P E Pid) :=
  Moves.get.bind fun _ => Moves.ite (fun _ => Moves.fail _) fun _ => requesting fun pid packet created => by
    rw [LawfulHandler.subscribe _ _ _ _ created]
    exact allowed pid subscriptions
theorem unsubscribe (allowed : ∀ pid topics, A (.sends (.unsubscribe pid topics))) (topics : List TopicFilter) :
    Moves (DoesS A) (unsubscribe topics : SessionM H P E Pid) :=
  Moves.get.bind fun _ => Moves.ite (fun _ => Moves.fail _) fun _ => requesting fun pid packet created => by
    rw [LawfulHandler.unsubscribe _ _ _ _ created]
    exact allowed pid topics

/-- A reply that goes out. -/
theorem replying (create : H → Except E P) (allowed : ∀ h packet, create h = .ok packet → A (.sends (shape (H := H) packet))) :
    Moves (DoesS A) (get >>= fun s => ofExcept (into H) (create s.1.handler) >>= fun packet =>
      zoom first (send_packet packet) : SessionM H P E Unit) :=
  Moves.get.bind fun _ => Moves.bind_ofExcept fun packet created => inEngine (sending (allowed _ packet created))

/-- The answer to a packet. -/
def Reply : Shape → Prop
  | .puback _ | .pubrec _ | .pubcomp _ => True
  | _ => False

/-- What receiving a packet sends, a PUBREL apart. -/
theorem acknowledge_other (allowed : ∀ shape, Reply shape → A (.sends shape)) {action : PacketAction}
    (other : ∀ pid, action ≠ .PublishRec pid) : Moves (DoesS A) (acknowledge (H := H) action) := by
  cases action with
  | PublishRec pid => exact absurd rfl (other pid)
  | PublishAck pid => exact (onSession _).bind fun _ => Moves.pure _
  | PublishComplete pid => exact (onSession _).bind fun _ => (onSession _).bind fun _ => Moves.pure _
  | PublishRelease pid =>
    exact replying (fun h => create_pubcomp_packet h pid) fun h packet created => allowed _ (by
          rw [lawful_shape (H := H) LawfulHandler.pubcomp created]; trivial)
  | PublishReceived topic qos retain payload pid =>
    cases pid with
    | none => cases qos <;> exact Moves.pure _
    | some pid =>
      cases qos with
      | Level0 => exact Moves.pure _
      | Level1 =>
        exact replying (fun h => create_puback_packet h pid) fun h packet created => allowed _ (by
          rw [lawful_shape (H := H) LawfulHandler.puback created]; trivial)
      | Level2 =>
        exact replying (fun h => create_pubrec_packet h pid) fun h packet created => allowed _ (by
          rw [lawful_shape (H := H) LawfulHandler.pubrec created]; trivial)
  | ConnectAck _ _ | SubscribeAck _ _ | UnsubscribeAck _ | PingResponse | None => exact Moves.pure _

theorem retry_publish (allowed : ∀ shape, Again shape → A (.sends shape)) (current_time : Nat) (pid : Pid) :
    Moves (DoesS A) (retry_publish (H := H) current_time pid) := by
  refine Moves.get.bind fun s => ?_
  dsimp only
  cases SessionState.get_outgoing_publish_mut pid s.2 with
  | none => exact Moves.pure _
  | some found =>
    exact (onSession _).bind fun _ => Moves.bind_ofExcept fun packet created =>
      inEngine (sending (allowed _ (again (H := H) created)))

theorem retry_pubrel {pid : Pid} (allowed : A (.sends (.pubrel pid))) (current_time : Nat) :
    Moves (DoesS A) (retry_pubrel (H := H) current_time pid) :=
  Moves.get.bind fun _ => Moves.bind_ofExcept fun packet created => Moves.ite
    (fun _ => inEngine (sending (by rw [lawful_shape (H := H) LawfulHandler.pubrel created]; exact allowed))) fun _ => Moves.pure _

/-- Every PUBREL of what the session holds may be sent. -/
def Releasable (A : Deed → Prop) (s : InMemorySession) : Prop :=
  ∀ pid, pid ∈ s.pending_publishes ∨ pid ∈ s.pending_pubrels → A (.sends (.pubrel pid))

omit [LawfulHandler H P E] in
/-- A retry keeps what is pending. -/
theorem retry_publish_pending (current_time : Nat) (pid : Pid) (s : MqttProtocolEngine H P E × InMemorySession) :
    wp (MqttProtocolEngine.retry_publish (H := H) current_time pid) s fun _ s' =>
      (∀ p, p ∈ s'.2.pending_publishes → p ∈ s.2.pending_publishes) ∧ s'.2.pending_pubrels = s.2.pending_pubrels := by
  rw [MqttProtocolEngine.retry_publish, wp_bind, wp_get]
  simp only [SessionState.get_outgoing_publish_mut]
  cases stored : s.2.pending_publishes.lookup pid with
  | none => exact ⟨fun _ => id, rfl⟩
  | some message =>
    have kept : ∀ written p, p ∈ s.2.pending_publishes.insert pid written → p ∈ s.2.pending_publishes :=
      fun written p member => ((AList.mem_insert _).mp member).elim
        (fun same => same ▸ mem_iff_lookup.mpr ⟨message, stored⟩) id
    simp only [Option.map_some, wp_bind, MqttProtocolEngine.onSession, wp_ofExec, wp_ofExcept]
    split
    · exact ⟨kept _, rfl⟩
    · exact ⟨kept _, trivial⟩

/-- The retries send nothing but what is pending, if the PUBRELs may be sent. -/
theorem handle_retries (resent : ∀ shape, Again shape → A (.sends shape)) (current_time : Nat)
    (s : MqttProtocolEngine H P E × InMemorySession) (releasable : Releasable A s.2) :
    DoesS A s (exec (handle_retries (H := H) current_time) s).2 := by
  let I : MqttProtocolEngine H P E × InMemorySession → Prop := fun s' => DoesS A s s' ∧ Releasable A s'.2
  have dropping : ∀ pid, Safe I (fun _ => True) (do
      let _ ← MqttProtocolEngine.onSession (SessionState.complete_outgoing_publish pid) : SessionM H P E Unit) := by
    intro pid s' holds
    exact ⟨⟨holds.1, fun p member => holds.2 p (member.imp_left fun kept => (AList.mem_erase.mp kept).2)⟩, fun _ _ => trivial⟩
  have retrying : ∀ pid, Safe I (fun _ => True) (MqttProtocolEngine.retry_publish (H := H) current_time pid) := by
    intro pid s' holds
    obtain ⟨publishes, pubrels⟩ := retry_publish_pending current_time pid s'
    refine ⟨⟨Does.trans holds.1 (retry_publish resent current_time pid s'), fun p member => ?_⟩, fun _ _ => trivial⟩
    rw [pubrels] at member
    exact holds.2 p (member.imp_left (publishes p))
  have releasing : ∀ pid, A (.sends (.pubrel pid)) →
      Safe I (fun _ => True) (MqttProtocolEngine.retry_pubrel (H := H) current_time pid) := by
    intro pid allowed s' holds
    have same : Moves (fun s s' : MqttProtocolEngine H P E × InMemorySession => s'.2 = s.2)
        (MqttProtocolEngine.retry_pubrel (H := H) current_time pid) :=
      fun s => by
        rw [MqttProtocolEngine.retry_pubrel, exec_bind, exec_get]
        dsimp only
        cases create_pubrel_packet s.1.handler pid with
        | error err => rfl
        | ok packet =>
          rw [ofExcept_ok, pure_bind]
          split <;> rfl
    refine ⟨⟨Does.trans holds.1 (retry_pubrel allowed current_time s'), ?_⟩, fun _ _ => trivial⟩
    rw [same]
    exact holds.2
  rw [MqttProtocolEngine.handle_retries, exec_bind, exec_get]
  refine (Safe.bind (Safe.forM fun pid _ => dropping pid) (fun _ => Safe.bind (Safe.forM fun pid _ => retrying pid)
    fun _ => fun s' holds => ?_) s ⟨Does.refl s.1, releasable⟩).1.1
  rw [exec_bind, exec_get]
  refine Safe.forM (fun pid member => releasing pid (holds.2 pid (.inr ?_))) s' holds
  obtain ⟨entry, listed, rfl⟩ := List.mem_map.mp (List.mem_of_mem_take member)
  exact mem_iff_lookup.mpr ⟨entry.2, mem_iter.mp listed⟩

/-- The answer to a packet, if the PUBREL of a pending message may be sent. -/
theorem acknowledge (replied : ∀ shape, Reply shape → A (.sends shape)) (action : PacketAction)
    (s : MqttProtocolEngine H P E × InMemorySession) (releasable : Releasable A s.2) :
    DoesS A s (exec (acknowledge (H := H) action) s).2 := by
  by_cases pubrec : ∃ pid, action = .PublishRec pid
  · obtain ⟨pid, rfl⟩ := pubrec
    rw [MqttProtocolEngine.acknowledge, exec_bind]
    simp only [MqttProtocolEngine.onSession, exec_ofExec, SessionState.complete_outgoing_publish]
    cases stored : s.2.pending_publishes.lookup pid with
    | none => exact Does.refl s.1
    | some message =>
      have allowed : A (.sends (.pubrel pid)) := releasable pid (.inl (mem_iff_lookup.mpr ⟨message, stored⟩))
      have released : Moves (DoesS A) (get >>= fun s => ofExcept (into H) (create_pubrel_packet s.1.handler pid) >>=
          fun packet => zoom first (send_packet packet) >>= fun _ =>
            MqttProtocolEngine.trySession (SessionState.store_outgoing_pubrel pid) : SessionM H P E Unit) := by
        refine Moves.get.bind fun _ => Moves.bind_ofExcept fun packet created => ?_
        refine (inEngine (sending ?_)).bind fun _ => trySession _
        rw [lawful_shape (H := H) LawfulHandler.pubrel created]
        exact allowed
      exact released (s.1, { s.2 with pending_publishes := s.2.pending_publishes.erase pid })
  · exact acknowledge_other replied (fun pid same => pubrec ⟨pid, same⟩) s

/-! ### The client -/

theorem entering (new : ConnectionState) : Moves (DoesC A) (MqttClient.set_connection_state new : ClientM H P E Unit) :=
  fun c => Does.refl c.protocol_engine
theorem whenConnected {request : ClientM H P E Unit} (does : Moves (DoesC A) request) :
    Moves (DoesC A) (MqttClient.whenConnected request) :=
  Moves.get.bind fun _ => Moves.ite (fun _ => Moves.fail _) fun _ => does
theorem trySession_client (f : InMemorySession → Except MqttError α × InMemorySession) :
    Moves (DoesC A) (MqttClient.trySession f : ClientM H P E α) := ofSession (trySession f)
theorem counting : Moves (DoesC A) (modify fun c => { c with state := c.state.record_message_sent } :
    ClientM H P E PUnit) := fun c => Does.refl c.protocol_engine
theorem ping (allowed : A (.sends .pingreq)) : Moves (DoesC A) (MqttClient.ping : ClientM H P E Unit) :=
  whenConnected (ofEngine (engine_ping allowed))

theorem handle_packet_action (action : PacketAction) :
    Moves (DoesC A) (MqttClient.handle_packet_action action : ClientM H P E (Option ClientEvent)) := by
  cases action with
  | PublishReceived topic qos retain payload pid =>
    exact (ofEngine clock).bind fun _ => Moves.bind (fun c => Does.refl c.protocol_engine) fun _ => Moves.pure _
  | SubscribeAck pid codes => exact (trySession_client _).bind fun _ => Moves.pure _
  | _ => exact Moves.pure _

/-- Connecting: a configuration that passes validation has the session cleared, if it is to be, before anything else. -/
theorem connect_rest : ∃ rest : MqttClient H P E → ClientM H P E Unit,
    MqttClient.connect = (get >>= fun c => ofExcept MqttError.Config c.config.validate >>= fun _ =>
      MqttClient.set_connection_state .Connecting >>= fun _ =>
        onlyIf c.config.clean_session MqttClient.clear_session >>= fun _ => rest c) ∧
    (∀ c c', c.config = c'.config → rest c = rest c') ∧
    ∀ (A : Deed → Prop) c, (∀ clean, A (.sends (.connect clean))) → (∀ shape, Again shape → A (.sends shape)) →
      Moves (DoesC A) (rest c) := by
  refine ⟨_, rfl, fun c c' same => by rw [same], fun A c opened resent => ?_⟩
  have refused : ∀ err, Moves (DoesC A) (do MqttClient.set_connection_state .Error; fail err : ClientM H P E Unit) :=
    fun err => (entering _).bind fun _ => Moves.fail err
  refine (ofEngine (connect_with_will opened _ _ _ _ _ _ _ _ _)).attempt.bind fun result => ?_
  rcases result with err | action
  · exact refused err
  cases action with
  | ConnectAck session_present return_code =>
    refine Moves.ite (fun _ => (entering _).bind fun _ => ?_) fun _ => refused _
    refine Moves.bind (fun c => Does.refl c.protocol_engine) fun _ => Moves.onlyIf fun _ => Moves.get.bind fun c => ?_
    refine Moves.forM (fun entry => Moves.get.bind fun c => Moves.bind_ofExcept fun packet created => ?_) _
    exact ofEngine (sending (resent _ (again (H := H) created)))
  | _ => exact refused _

theorem connect (clears : A .clears) (opened : ∀ clean, A (.sends (.connect clean)))
    (resent : ∀ shape, Again shape → A (.sends shape)) : Moves (DoesC A) (MqttClient.connect : ClientM H P E Unit) := by
  obtain ⟨rest, same, -, does⟩ := connect_rest (H := H) (P := P) (E := E)
  rw [same]
  refine Moves.get.bind fun c => Moves.bind_ofExcept fun _ _ => (entering _).bind fun _ => ?_
  refine Moves.bind (Moves.onlyIf fun _ => ?_) fun _ => does A c opened resent
  exact fun c => Does.event .cleared rfl (by rintro done ⟨⟩; exact clears) rfl

theorem reconnect (clears : A .clears) (opened : ∀ clean, A (.sends (.connect clean)))
    (resent : ∀ shape, Again shape → A (.sends shape)) : Moves (DoesC A) (MqttClient.reconnect : ClientM H P E Unit) := by
  refine Moves.get.bind fun c => Moves.ite (fun _ => Moves.fail _) fun _ => Moves.ite (fun _ => Moves.fail _) fun _ => ?_
  refine Moves.bind (fun c => Does.refl c.protocol_engine) fun _ => ?_
  exact (ofEngine fun _ => .event (.delay _) rfl (by simp [deed]) rfl).bind fun _ => connect clears opened resent

/-- Whatever was to be answered and retried, only what was tracked is released. -/
def Releases (A : Deed → Prop) (c c' : MqttClient H P E) : Prop :=
  c.Idle → Releasable A c.session_state → c'.Idle ∧ Releasable A c'.session_state ∧ DoesC A c c'

theorem Releases.trans {c c' c'' : MqttClient H P E} (first : Releases A c c') (second : Releases A c' c'') :
    Releases A c c'' := by
  intro idle releasable
  obtain ⟨idle', releasable', does⟩ := first idle releasable
  obtain ⟨idle'', releasable'', does'⟩ := second idle' releasable'
  exact ⟨idle'', releasable'', does.trans does'⟩

instance : Std.Refl (Releases (H := H) (P := P) (E := E) A) := ⟨fun _ idle releasable => ⟨idle, releasable, Does.refl _⟩⟩
instance : IsTrans (MqttClient H P E) (Releases A) := ⟨fun _ _ _ => Releases.trans⟩

/-- What takes no identifier and sends only what may be released. -/
theorem releasing {m : ClientM H P E α} (acting : Operations.Acting Polling.grant m)
    (does : ∀ c, Releasable A c.session_state → DoesC A c (exec m c).2) : Moves (Releases A) m := by
  intro c idle releasable
  refine ⟨(acting c idle).1, fun pid tracked => ?_, does c releasable⟩
  exact releasable pid (untaking_tracked rfl (acting c) idle tracked)

theorem receive (replied : ∀ shape, Reply shape → A (.sends shape)) : Moves (Releases A) (MqttClient.receive (H := H)) := by
  have receiving : Moves (Releases A) (zoom engineSession (receive_packet (H := H))) := by
    refine releasing Operations.receive_packet fun c releasable => ?_
    have receives : wp (receive_packet (H := H)) (c.protocol_engine, c.session_state) fun _ s =>
        Does A c.protocol_engine s.1 := by
      rw [receive_packet, wp_bind, wp_zoom]
      refine wp_mono (Moves.wp (waiting (A := A)) c.protocol_engine) fun r e waited => ?_
      cases r with
      | error _ => exact waited
      | ok action =>
        refine wp_result (f := fun _ => action) ?_
        exact Does.trans waited (acknowledge replied action (e, c.session_state) releasable)
    exact receives
  refine receiving.attempt.bind fun result => ?_
  cases result with
  | error err => exact Moves.bind (releasing (Operations.entering (by decide)) fun c _ => entering _ c) fun _ => Moves.fail _
  | ok action => exact releasing (Operations.handle_packet_action action) fun c _ => handle_packet_action action c

theorem poll_connected (resent : ∀ shape, Again shape → A (.sends shape)) (pinged : A (.sends .pingreq))
    (replied : ∀ shape, Reply shape → A (.sends shape)) : Moves (Releases A) (MqttClient.poll_connected (H := H)) := by
  refine Moves.bind (releasing Operations.clock fun c _ => ofEngine clock c) fun time => Moves.get.bind fun c => ?_
  refine Moves.ite (fun _ => ?_) fun _ => ?_
  · exact Moves.bind (releasing (Operations.entering (by decide)) fun c _ => entering _ c) fun _ => Moves.fail _
  refine Moves.bind (Moves.onlyIf fun _ => releasing Operations.ping fun c _ => ping pinged c) fun _ => ?_
  refine Moves.bind (releasing (Operations.handle_retries time) fun c releasable => ?_) fun _ => receive replied
  exact handle_retries resent time (c.protocol_engine, c.session_state) releasable

theorem poll (clears : A .clears) (opened : ∀ clean, A (.sends (.connect clean)))
    (resent : ∀ shape, Again shape → A (.sends shape)) (pinged : A (.sends .pingreq))
    (replied : ∀ shape, Reply shape → A (.sends shape)) : Moves (Releases A) (MqttClient.poll (H := H)) := by
  have entered : ∀ new, new ≠ .Connected →
      Moves (Releases A) (MqttClient.set_connection_state new : ClientM H P E Unit) := fun new other =>
    releasing (Operations.entering other) fun c _ => entering new c
  refine Moves.get.bind fun c => Moves.ite (fun _ => Moves.ite (fun _ => ?_) fun _ => Moves.ite (fun _ => ?_) fun _ => ?_)
    fun _ => poll_connected resent pinged replied
  · refine (Moves.attempt (releasing Operations.reconnect fun c _ => reconnect clears opened resent c)).bind fun result => ?_
    cases result with
    | ok _ => exact poll_connected resent pinged replied
    | error _ => exact (entered _ (by decide)).bind fun _ => Moves.pure _
  · exact (entered _ (by decide)).bind fun _ => Moves.pure _
  · exact Moves.pure _

theorem disconnect (allowed : A (.sends .disconnect)) : Moves (DoesC A) (MqttClient.disconnect : ClientM H P E Unit) := by
  refine Moves.get.bind fun c => Moves.ite (fun _ => Moves.pure _) fun _ => (entering _).bind fun _ => ?_
  refine (ofEngine (engine_disconnect allowed)).attempt.bind fun result => ?_
  exact (entering _).bind fun _ => Moves.ofExcept _ _

theorem publish_client {topic : TopicName} {payload : Bytes} {config : PublishConfig}
    (allowed : ∀ shape, First topic config.qos config.retain payload shape → A (.sends shape)) :
    Moves (DoesC A) (MqttClient.publish topic payload config : ClientM H P E Unit) := by
  refine whenConnected (Moves.get.bind fun c => Moves.ite (fun _ => Moves.fail _) fun _ => ?_)
  exact (ofSession (publish allowed)).bind fun _ => counting

theorem add_subscriptions (pid : Pid) (subscriptions : List (TopicFilter × QoS)) :
    Moves (DoesC A) (MqttClient.add_subscriptions pid subscriptions : ClientM H P E Unit) :=
  Moves.forM (fun _ => trySession_client _) _

theorem remove_local_subscription (topic_filter : TopicFilter) :
    Moves (DoesC A) (MqttClient.remove_local_subscription topic_filter : ClientM H P E Unit) := fun c =>
  Does.refl c.protocol_engine

end

/-! ### The operations -/

section
variable [Codec V5.Packet ErrorV5]

theorem publish_v5 {A : Deed → Prop} {topic : TopicName} {payload : Bytes} {config : PublishConfig}
    (allowed : ∀ shape, First topic config.qos config.retain payload shape → A (.sends shape)) (v5_config : V5PublishConfig) :
    Moves (DoesC A) (MqttClient.publish_v5 topic payload config v5_config) := by
  refine whenConnected (Moves.get.bind fun c => Moves.ite (fun _ => Moves.fail _) fun _ => ?_)
  refine (ofSession (publish_pid (H := V5Handler) config.qos)).bind fun pid => ?_
  refine Moves.bind (fun _ => .aside rfl rfl) fun _ => Moves.bind_ofExcept fun packet created => ?_
  refine (ofSession (store_pending (H := V5Handler) pid topic config.qos config.retain payload)).bind fun _ => ?_
  obtain ⟨qp, carried, shaped⟩ := Operations.create_publish_with_config_shape created
  refine (ofEngine (sending (H := V5Handler) (allowed _ ?_))).bind fun _ => counting
  rw [show shape (H := V5Handler) packet = _ from shaped]
  exact ⟨rfl, rfl, (qos_pid_level carried).1, rfl, rfl⟩

theorem subscribe_v5 {A : Deed → Prop} (allowed : ∀ pid topics, A (.sends (.subscribe pid topics)))
    (subscriptions : List (TopicFilter × QoS)) (v5_config : V5SubscribeConfig) :
    Moves (DoesC A) (MqttClient.subscribe_v5 subscriptions v5_config) := by
  refine whenConnected (Moves.ite (fun _ => Moves.pure _) fun _ => (ofSession (next_pid (H := V5Handler))).bind fun pid => ?_)
  refine Moves.bind_ofExcept fun packet created => (ofEngine (sending (H := V5Handler) ?_)).bind fun _ =>
    add_subscriptions _ _
  cases subscriptions <;> cases created
  exact allowed _ _

/-- A CONNECT. -/
def Opens (shape : Shape) : Prop := ∃ clean, shape = .connect clean

/-- What an operation may send. -/
def Emits : {v : Version} → Op v → Shape → Prop
  | _, .connect, shape | _, .reconnect, shape => Opens shape ∨ Again shape
  | _, .disconnect, shape => shape = .disconnect
  | _, .publish topic payload config, shape | _, .publish_v5 topic payload config _, shape =>
    First topic config.qos config.retain payload shape
  | _, .subscribe _ _, shape | _, .subscribe_multiple _, shape | _, .subscribe_v5 _ _, shape =>
    ∃ pid topics, shape = .subscribe pid topics
  | _, .unsubscribe _, shape | _, .unsubscribe_multiple _, shape => ∃ pid topics, shape = .unsubscribe pid topics
  | _, .ping, shape => shape = .pingreq
  | _, .poll, shape => Opens shape ∨ Again shape ∨ shape = .pingreq ∨ Reply shape ∨ ∃ pid, shape = .pubrel pid
  | _, .next_message, _ | _, .set_v5_config _, _ => False

end

section
variable [Codec V3.Packet MqttProtoError] [Codec V5.Packet ErrorV5] {v : Version}

/-- An operation sends only what it may send. -/
theorem perform_does {op : Op v} {c : Client v} (idle : c.Idle) : DoesC (Sending (Emits op)) c (exec op.perform c).2 := by
  cases op with
  | connect => exact Moves.bind (connect trivial (fun clean => .inl ⟨clean, rfl⟩) fun _ => .inr) (fun _ => Moves.pure _) c
  | reconnect => exact Moves.bind (reconnect trivial (fun clean => .inl ⟨clean, rfl⟩) fun _ => .inr) (fun _ => Moves.pure _) c
  | disconnect => exact Moves.bind (disconnect (A := Sending (Emits (.disconnect : Op v))) rfl) (fun _ => Moves.pure _) c
  | publish topic payload config => exact Moves.bind (publish_client fun _ => id) (fun _ => Moves.pure _) c
  | subscribe topic_filter qos =>
    refine Moves.bind (whenConnected ?_) (fun _ => Moves.pure _) c
    exact (ofSession (subscribe (fun _ _ => ⟨_, _, rfl⟩) _)).bind fun _ => trySession_client _
  | subscribe_multiple subscriptions =>
    refine Moves.bind (whenConnected (Moves.ite (fun _ => Moves.pure _) fun _ => ?_)) (fun _ => Moves.pure _) c
    exact (ofSession (subscribe (fun _ _ => ⟨_, _, rfl⟩) _)).bind fun _ => add_subscriptions _ _
  | unsubscribe topic_filter =>
    refine Moves.bind (whenConnected ?_) (fun _ => Moves.pure _) c
    exact (ofSession (unsubscribe (fun _ _ => ⟨_, _, rfl⟩) _)).bind fun _ => remove_local_subscription _
  | unsubscribe_multiple topic_filters =>
    refine Moves.bind (whenConnected (Moves.ite (fun _ => Moves.pure _) fun _ => ?_)) (fun _ => Moves.pure _) c
    exact (ofSession (unsubscribe (fun _ _ => ⟨_, _, rfl⟩) _)).bind fun _ => Moves.forM remove_local_subscription _
  | ping => exact Moves.bind (ping (A := Sending (Emits (.ping : Op v))) rfl) (fun _ => Moves.pure _) c
  | poll =>
    have releases : Moves (Releases (Sending (Emits (.poll : Op v)))) (MqttClient.poll (H := v.Handler)) :=
      poll trivial (fun clean => .inl ⟨clean, rfl⟩) (fun _ again => .inr (.inl again)) (.inr (.inr (.inl rfl)))
        fun _ reply => .inr (.inr (.inr (.inl reply)))
    have polled := Moves.bind (f := fun event => pure (Reply.event event)) releases (fun _ => Moves.pure _) c idle
    exact (polled fun pid _ => .inr (.inr (.inr (.inr ⟨pid, rfl⟩)))).2.2
  | next_message => exact Does.refl c.protocol_engine
  | publish_v5 topic payload config v5_config =>
    exact Moves.bind (publish_v5 (fun _ => id) v5_config) (fun _ => Moves.pure _) c
  | subscribe_v5 subscriptions v5_config =>
    exact Moves.bind (subscribe_v5 (fun _ _ => ⟨_, _, rfl⟩) subscriptions v5_config) (fun _ => Moves.pure _) c
  | set_v5_config config => exact Does.aside rfl rfl

/-- The identifier of a handshake that a packet belongs to: of a PUBLISH with one, and of a PUBREL. -/
def handshake : Shape → Option Pid
  | .publish message => message.qos_pid.pid
  | .pubrel pid => some pid
  | _ => none

omit [Codec V3.Packet MqttProtoError] [Codec V5.Packet ErrorV5] in
/-- Only a poll releases messages. -/
theorem emits_pubrel {op : Op v} {pid : Pid} (emits : Emits op (.pubrel pid)) : op = .poll := by
  cases op with
  | poll => rfl
  | connect | reconnect =>
    rcases emits with ⟨clean, same⟩ | again
    · cases same
    · exact again.elim
  | disconnect | ping => cases emits
  | subscribe | subscribe_multiple | subscribe_v5 | unsubscribe | unsubscribe_multiple =>
    obtain ⟨_, _, same⟩ := emits
    cases same
  | publish | publish_v5 | next_message | set_v5_config => exact emits.elim

/-- What a call does shows in its events. -/
theorem call_deeds {A : Deed → Prop} {c : Client v} (idle : c.Idle) {call : Call v}
    (does : DoesC A (c.withWorld call.world) (c.after call)) {event : Event v.Packet} (member : event ∈ c.events call) :
    ∀ done ∈ deed v.Handler event, A done := by
  obtain ⟨-, events, log, sources⟩ := does idle
  have gained : c.events call = events := by
    rw [Client.events, log]
    exact List.drop_left
  rw [gained] at member
  exact sources event member

theorem call_emits {c : Client v} (idle : c.Idle) {call : Call v} {frame : Frame v.Packet}
    (queued : .queued frame ∈ c.events call) : Emits call.op (shape (H := v.Handler) frame.packet) :=
  call_deeds idle (perform_does idle) queued _ rfl

/-- Every PUBREL that a call sends belongs to what was tracked before it. -/
theorem call_pubrel {c : Client v} (idle : c.Idle) {call : Call v} {frame : Frame v.Packet} {pid : Pid}
    (queued : .queued frame ∈ c.events call) (pubrel : shape (H := v.Handler) frame.packet = .pubrel pid) :
    Tracked c.session_state pid := by
  by_cases polls : call.op = .poll
  · let A : Deed → Prop := Sending fun shape => ∀ pid, shape = .pubrel pid → Tracked c.session_state pid
    have releases : Moves (Releases A) (MqttClient.poll (H := v.Handler)) :=
      poll trivial (fun _ _ other => by cases other) (fun _ again _ same => by rw [same] at again; exact again.elim)
        (fun _ other => by cases other) fun _ reply _ same => by rw [same] at reply; exact reply.elim
    have polled := Moves.bind (f := fun event => pure (Reply.event event)) releases (fun _ => Moves.pure _)
      (c.withWorld call.world) idle fun pid tracked shape' same => by cases same; exact tracked
    have does : DoesC A (c.withWorld call.world) (c.after call) := by
      rw [Client.after, Client.call, polls]
      exact polled.2.2
    exact call_deeds idle does queued _ rfl pid pubrel
  · have emits := call_emits idle queued
    rw [pubrel] at emits
    exact absurd (emits_pubrel emits) polls

/-- What a call does of a handshake belongs to what was tracked before it, or was accepted in it. -/
theorem call_sources {c : Client v} (idle : c.Idle) {call : Call v} {before after : List (Event v.Packet)}
    {frame : Frame v.Packet} {pid : Pid} (split : c.events call = before ++ .queued frame :: after)
    (belongs : handshake (shape (H := v.Handler) frame.packet) = some pid) :
    Tracked c.session_state pid ∨ .accepted pid ∈ before := by
  cases shaped : shape (H := v.Handler) frame.packet with
  | publish message =>
    rw [shaped] at belongs
    obtain ⟨-, -, acts, path, events⟩ := Client.call_path idle call
    rw [events] at split
    exact path_publish path.1 split shaped belongs
  | pubrel released =>
    rw [shaped] at belongs
    cases belongs
    exact .inl (call_pubrel idle (by rw [split]; simp) shaped)
  | _ => rw [shaped] at belongs; cases belongs

/-- A packet that a call sends completely was put on the write queue in it. -/
theorem call_sent {c : Client v} (idle : c.Idle) {call : Call v} {frame : Frame v.Packet}
    (sent : .sent frame ∈ c.events call) : .queued frame ∈ c.events call := by
  obtain ⟨-, -, acts, path, events⟩ := Client.call_path idle call
  rw [events] at sent ⊢
  obtain ⟨act, member, here⟩ := List.mem_flatMap.mp sent
  obtain ⟨view, allowed⟩ := along_mem path.1 member
  exact List.mem_flatMap.mpr ⟨act, member, act_sent allowed here⟩

/-- What is tracked after a call was tracked before, or accepted in it. -/
theorem call_tracked {c : Client v} (idle : c.Idle) {call : Call v} {pid : Pid}
    (tracked : Tracked (c.after call).session_state pid) :
    Tracked c.session_state pid ∨ .accepted pid ∈ c.events call := by
  refine (follows_tracked (call.op.perform_follows (c.withWorld call.world)) idle tracked).imp_right fun more => ?_
  have gained : (acceptances c.protocol_engine.log).count pid <
      (acceptances (c.after call).protocol_engine.log).count pid := more
  rw [Client.call_log idle, acceptances_append, List.count_append] at gained
  exact mem_acceptances.mp (List.count_pos_iff.mp (by omega))

/-- The log of a run goes on where it was. -/
theorem run_log {c : Client v} (reachable : c.Reachable) (calls : List (Call v)) :
    ∃ events, (c.run calls).protocol_engine.log = c.protocol_engine.log ++ events := by
  induction calls generalizing c with
  | nil => exact ⟨[], (List.append_nil _).symm⟩
  | cons call calls ih =>
    obtain ⟨events, log⟩ := ih (reachable.after call)
    refine ⟨c.events call ++ events, ?_⟩
    rw [← List.append_assoc, ← Client.call_log reachable.idle]
    exact log

/-- The events of a run that starts with a call. -/
theorem run_split {c : Client v} (reachable : c.Reachable) {call : Call v} {calls : List (Call v)}
    {events : List (Event v.Packet)} (log : (c.run (call :: calls)).protocol_engine.log = c.protocol_engine.log ++ events) :
    ∃ more, ((c.after call).run calls).protocol_engine.log = (c.after call).protocol_engine.log ++ more ∧
      events = c.events call ++ more := by
  obtain ⟨more, log'⟩ := run_log (reachable.after call) calls
  have whole : c.protocol_engine.log ++ events = c.protocol_engine.log ++ (c.events call ++ more) := by
    rw [← log, ← List.append_assoc, ← Client.call_log reachable.idle]
    exact log'
  exact ⟨more, log', List.append_cancel_left whole⟩

/-- A packet that a run sends completely was put on the write queue in it. -/
theorem run_sent {c : Client v} (reachable : c.Reachable) {calls : List (Call v)} {events : List (Event v.Packet)}
    (log : (c.run calls).protocol_engine.log = c.protocol_engine.log ++ events) {frame : Frame v.Packet}
    (sent : .sent frame ∈ events) : .queued frame ∈ events := by
  induction calls generalizing c events with
  | nil =>
    have none : events = [] := List.self_eq_append_right.mp log
    rw [none] at sent
    cases sent
  | cons call calls ih =>
    obtain ⟨more, log', rfl⟩ := run_split reachable log
    refine List.mem_append.mpr ((List.mem_append.mp sent).imp (call_sent reachable.idle) fun later => ?_)
    exact ih (reachable.after call) log' later

/-- What a run does of a handshake belongs to what was tracked before it, or was accepted in it. -/
theorem run_sources {c : Client v} (reachable : c.Reachable) {calls : List (Call v)} {before after : List (Event v.Packet)}
    {frame : Frame v.Packet} {pid : Pid}
    (log : (c.run calls).protocol_engine.log = c.protocol_engine.log ++ (before ++ .queued frame :: after))
    (belongs : handshake (shape (H := v.Handler) frame.packet) = some pid) :
    Tracked c.session_state pid ∨ .accepted pid ∈ before := by
  induction calls generalizing c before with
  | nil =>
    have none : before ++ .queued frame :: after = [] := List.self_eq_append_right.mp log
    simp at none
  | cons call calls ih =>
    obtain ⟨events, log', split⟩ := run_split reachable log
    rcases split_append split.symm with ⟨part, here⟩ | ⟨more, rfl, later⟩
    · exact call_sources reachable.idle here belongs
    · rw [later] at log'
      rcases ih (reachable.after call) log' with tracked | accepted
      · exact (call_tracked reachable.idle tracked).imp_right (List.mem_append_left _)
      · exact .inr (List.mem_append_right _ accepted)

end

end Masaka.Provenance
