import Masaka.Sending
import Masaka.Calls

/-!
The acts of a client. An operation does one act after another, each under a
condition that the code ensures; what holds of a new client and survives every
such act therefore holds after every run.
-/
namespace Masaka
open Effect Tables Runs MqttProtocolHandler LawfulHandler Sending

variable {H P E α β : Type}

/-- The identifiers that a log says were handed out. -/
def handed (log : List (Event P)) : List Pid := log.filterMap fun
  | .handed_out pid => some pid
  | _ => none

@[simp] theorem handed_append (log more : List (Event P)) : handed (log ++ more) = handed log ++ handed more :=
  List.filterMap_append

/-- Sending hands out nothing. -/
theorem transmission_handed {tape rest : Tape} {flush : Answer Unit} {frame : Frame P} {events : List (Event P)}
    {r : Except (Halt MqttError) Unit} (transmission : Transmission tape flush frame events rest r) :
    handed events = [] :=
  List.filterMap_eq_nil_iff.mpr (transmission.all rfl (fun _ _ => rfl) rfl (fun _ => rfl) fun _ => rfl)

theorem sent_handed [MqttProtocolHandler H P E] {packet : P} {e e' : MqttProtocolEngine H P E}
    {r : Except (Halt MqttError) Unit} (sent : Sent packet e r e') : handed e'.log = handed e.log := by
  cases sent with
  | unencoded _ => rfl
  | encoded _ transmission => simp [transmission_handed transmission]

/-- The part of a client's state that its acts change. -/
structure View (P : Type) where
  state : ConnectionState
  connected : Bool
  session : InMemorySession
  /-- The transport's answers to come. -/
  write : Tape
  log : List (Event P)

def MqttClient.view (c : MqttClient H P E) : View P where
  state := c.state.connection_state
  connected := c.protocol_engine.connected
  session := c.session_state
  write := c.protocol_engine.world.write
  log := c.protocol_engine.log

/-- All of it but the log. -/
def View.rest (v : View P) : ConnectionState × Bool × InMemorySession × Tape := (v.state, v.connected, v.session, v.write)

theorem View.ext_rest {v v' : View P} (rest : v.rest = v'.rest) (log : v.log = v'.log) : v = v' := by
  cases v; cases v'; cases log; cases rest; rfl

/-- What a call may do: the identifier it may take, the filters whose records it may
    add and remove, and whether its PUBLISH has nothing but what the session stores. -/
structure Grant where
  identifier : Option Pid
  addable : List TopicFilter
  removable : List TopicFilter
  plain : Bool

/-- One act of a client. -/
inductive Act (P : Type) where
  /-- A packet goes out, or a part of it. -/
  | transmit (frame : Frame P) (events : List (Event P)) (rest : Tape)
  /-- An event that changes nothing. -/
  | note (event : Event P)
  /-- An identifier is taken for a request that is not tracked. -/
  | hand_out (pid : Pid)
  /-- An identifier is taken for a message, which is stored under it. -/
  | accept (pid : Pid) (message : InflightMessage)
  /-- A message is no longer pending: it was acknowledged or given up. -/
  | complete (pid : Pid)
  /-- A retransmission is counted. -/
  | retry (pid : Pid) (message : InflightMessage)
  /-- A PUBREC is answered, and the PUBREL stored. -/
  | release (pid : Pid) (frame : Frame P) (events : List (Event P)) (rest : Tape)
  /-- A PUBREL is no longer pending. -/
  | finish (pid : Pid)
  | add (pid : Pid) (topic_filter : TopicFilter) (qos : QoS)
  | confirm (pid : Pid) (return_codes : List UInt8)
  | remove (order : IterOrder Pid) (topic_filter : TopicFilter)
  | clear
  | state (new : ConnectionState)
  | link (connected : Bool)

namespace Act

/-- What an act adds to the log. -/
def events : Act P → List (Event P)
  | .transmit _ events _ | .release _ _ events _ => events
  | .note event => [event]
  | .hand_out pid => [.handed_out pid]
  | .accept pid message => [.handed_out pid, .clock message.timestamp, .accepted pid]
  | .clear => [.cleared]
  | .complete _ | .retry _ _ | .finish _ | .add _ _ _ | .confirm _ _ | .remove _ _ | .state _ | .link _ => []

/-- What an act makes of the session. -/
def session (s : InMemorySession) : Act P → InMemorySession
  | .hand_out _ => (SessionState.next_pid s).2
  | .accept pid message => (SessionState.store_outgoing_publish pid message (SessionState.next_pid s).2).2
  | .complete pid => (SessionState.complete_outgoing_publish pid s).2
  | .retry pid message => (SessionState.store_outgoing_publish pid message s).2
  | .release pid _ _ _ => (SessionState.store_outgoing_pubrel pid (SessionState.complete_outgoing_publish pid s).2).2
  | .finish pid => (SessionState.complete_outgoing_pubrel pid s).2
  | .add pid topic_filter qos => (SessionState.add_subscription pid topic_filter qos s).2
  | .confirm pid return_codes => (SessionState.confirm_subscription pid return_codes s).2
  | .remove order topic_filter => (SessionState.remove_subscription order topic_filter s).2
  | .clear => SessionState.clear s
  | .transmit _ _ _ | .note _ | .state _ | .link _ => s

/-- The state after an act. -/
def after (v : View P) (act : Act P) : View P where
  state := match act with
    | .state new => new
    | _ => v.state
  connected := match act with
    | .link connected => connected
    | _ => v.connected
  session := act.session v.session
  write := match act with
    | .transmit _ _ rest | .release _ _ _ rest => rest
    | _ => v.write
  log := v.log ++ act.events

end Act

/-- A packet of this shape is neither a CONNECT nor a PUBLISH nor a PUBREL. -/
def Shape.Plain : Shape → Prop
  | .connect _ | .publish _ | .pubrel _ => False
  | _ => True

/-- An event that concerns neither a packet to send nor the session. -/
def Event.Quiet : Event P → Prop
  | .close _ | .received _ | .clock _ | .delay _ => True
  | _ => False

section
variable [MqttProtocolHandler H P E] [LawfulHandler H P E]

/-- The messages differ at most in what retransmission changes. -/
def InflightMessage.SameAs (message old : InflightMessage) : Prop :=
  message = { old with retry_count := message.retry_count, timestamp := message.timestamp }

theorem InflightMessage.SameAs.trans {message old older : InflightMessage} (first : message.SameAs old)
    (second : old.SameAs older) : message.SameAs older := by
  rw [SameAs, first, second]

/-- The retransmission of a stored message. -/
def Retransmits (H : Type) {P E : Type} [MqttProtocolHandler H P E] (message : InflightMessage) (pid : Pid)
    (packet : P) : Prop :=
  ∃ h : H, create_publish_packet h message.topic message.qos message.retain message.payload (some pid) true = .ok packet

/-- When a packet may go out: a CONNECT asks for a clean session only when nothing
    is pending; a PUBLISH is pending, and is either made from what is stored or goes
    out right after it was stored; a PUBREL belongs to a message that is not pending or
    has been released before. -/
def Permitted (H : Type) {P E : Type} [MqttProtocolHandler H P E] [LawfulHandler H P E] (plain : Bool) (v : View P)
    (packet : P) : Prop :=
  match shape (H := H) packet with
  | .connect clean_session =>
    clean_session = true → v.session.pending_publishes = ∅ ∧ v.session.pending_pubrels = ∅
  | .publish publish => ∀ pid, publish.qos_pid.pid = some pid → ∃ message,
      v.session.pending_publishes.lookup pid = some message ∧
        (publish.dup = true → Retransmits H message pid packet) ∧
        (publish.dup = false → v.log.getLast? = some (.accepted pid) ∧
          (plain = true → ∀ again, Retransmits H message pid again → Repeats (H := H) packet again))
  | .pubrel pid => pid ∉ v.session.pending_publishes ∨ pid ∈ v.session.pending_pubrels
  | _ => True

/-- When an act may be done by a call with the given grant. -/
def Act.Allowed (H : Type) {P E : Type} [MqttProtocolHandler H P E] [LawfulHandler H P E] (config : ClientConfig)
    (grant : Grant) (v : View P) : Act P → Prop
  | .transmit frame events rest =>
    (∃ flush r, Transmission v.write flush frame events rest r) ∧ Permitted H grant.plain v frame.packet
  | .note event => event.Quiet
  | .hand_out pid => grant.identifier = some pid ∧ pid = v.session.next_pid
  | .accept pid message => grant.identifier = some pid ∧ pid = v.session.next_pid ∧ message.qos ≠ .Level0
  | .complete _ => True
  | .retry pid message => ∃ old, v.session.pending_publishes.lookup pid = some old ∧ message.SameAs old
  | .release pid frame events rest => (∃ flush, Transmission v.write flush frame events rest (.ok ())) ∧
      pid ∈ v.session.pending_publishes ∧ shape (H := H) frame.packet = .pubrel pid
  | .finish _ => True
  | .add pid topic_filter _ => grant.identifier = some pid ∧ topic_filter ∈ grant.addable ∧
      (handed v.log).getLast? = some pid ∧ v.session.next_pid = pid.next
  | .confirm _ _ => True
  | .remove _ topic_filter => topic_filter ∈ grant.removable
  | .clear => config.clean_session = true
  | .state new => new = .Connected → v.connected = true ∧ config.validate = .ok ()
  | .link connected => connected = false → v.state ≠ .Connected

/-- The identifier that an act takes. -/
def Act.takes : Act P → Option Pid
  | .hand_out pid | .accept pid _ => some pid
  | _ => none

/-- Sending and the other acts hand out nothing. -/
theorem Act.Allowed.handed {config : ClientConfig} {grant : Grant} {v : View P} {act : Act P}
    (allowed : act.Allowed H config grant v) : handed act.events = act.takes.toList := by
  cases act with
  | transmit frame events rest =>
    obtain ⟨⟨flush, r, sent⟩, -⟩ := allowed
    exact transmission_handed sent
  | release pid frame events rest =>
    obtain ⟨⟨flush, sent⟩, -⟩ := allowed
    exact transmission_handed sent
  | note event =>
    cases event with
    | close | received | clock | delay => rfl
    | _ => exact absurd allowed id
  | _ => rfl

theorem Act.Allowed.granted {config : ClientConfig} {grant : Grant} {v : View P} {act : Act P} {pid : Pid}
    (allowed : act.Allowed H config grant v) (takes : act.takes = some pid) :
    grant.identifier = some pid ∧ pid = v.session.next_pid := by
  cases act with
  | hand_out taken => cases takes; exact allowed
  | accept taken message => cases takes; exact ⟨allowed.1, allowed.2.1⟩
  | _ => cases takes

/-- A message that is pending after an act is a new one, or was pending before. -/
theorem Act.Allowed.pending {config : ClientConfig} {grant : Grant} {v : View P} {act : Act P} {pid : Pid}
    {message : InflightMessage} (allowed : act.Allowed H config grant v)
    (stored : (act.session v.session).pending_publishes.lookup pid = some message) :
    act = .accept pid message ∨ ∃ old, v.session.pending_publishes.lookup pid = some old ∧ message.SameAs old := by
  have erased : ∀ taken, (v.session.pending_publishes.erase taken).lookup pid = some message →
      ∃ old, v.session.pending_publishes.lookup pid = some old ∧ message.SameAs old := by
    intro taken stored
    rw [lookup_erase_if] at stored
    split at stored
    · cases stored
    · exact ⟨message, stored, rfl⟩
  have same : ∀ s : InMemorySession, SessionState.untouched s = SessionState.untouched v.session →
      s.pending_publishes.lookup pid = some message → v.session.pending_publishes.lookup pid = some message :=
    fun s untouched stored => (congrArg (AList.lookup pid ·.2.1) untouched).symm.trans stored
  cases act with
  | transmit | note | state | link | hand_out | finish => exact .inr ⟨message, stored, rfl⟩
  | accept taken message' =>
    change (v.session.pending_publishes.insert taken message').lookup pid = _ at stored
    rw [lookup_insert_if] at stored
    split at stored
    · rename_i here
      cases stored
      exact .inl (by rw [here])
    · exact .inr ⟨message, stored, rfl⟩
  | complete taken => exact .inr (erased taken stored)
  | release taken => exact .inr (erased taken stored)
  | retry taken message' =>
    obtain ⟨old, found, same⟩ := allowed
    change (v.session.pending_publishes.insert taken message').lookup pid = _ at stored
    rw [lookup_insert_if] at stored
    split at stored
    · rename_i here
      cases stored
      exact .inr ⟨old, here ▸ found, same⟩
    · exact .inr ⟨message, stored, rfl⟩
  | add taken topic_filter qos =>
    exact .inr ⟨message, same _ (SessionState.add_subscription_untouched ..) stored, rfl⟩
  | confirm taken codes =>
    exact .inr ⟨message, same _ (SessionState.confirm_subscription_untouched ..) stored, rfl⟩
  | remove order topic_filter =>
    exact .inr ⟨message, same _ (SessionState.remove_subscription_untouched ..) stored, rfl⟩
  | clear => cases (AList.lookup_empty pid).symm.trans stored

/-- The acts that lead from one state of a client to another. -/
def Path (grant : Grant) (c c' : MqttClient H P E) (acts : List (Act P)) : Prop :=
  Along Act.after (Act.Allowed H c.config grant) c.view acts ∧ c'.view = run Act.after c.view acts

/-- Nothing waits to be written. Between two calls this is always so. -/
def MqttClient.Idle (c : MqttClient H P E) : Prop := c.protocol_engine.write_queue = []

omit [MqttProtocolHandler H P E] [LawfulHandler H P E] in
theorem MqttClient.new_idle (world : World P E) (handler : H) (config : ClientConfig) :
    (MqttClient.new world handler config).Idle := rfl

/-- A client that was idle has done allowed acts and is idle again. -/
def Follows (grant : Grant) (c c' : MqttClient H P E) : Prop :=
  c.Idle → c'.Idle ∧ c'.config = c.config ∧ ∃ acts, Path grant c c' acts

variable {grant : Grant} {c c' c'' : MqttClient H P E}

theorem Path.append {acts more : List (Act P)} (same : c'.config = c.config) (first : Path grant c c' acts)
    (second : Path grant c' c'' more) : Path grant c c'' (acts ++ more) := by
  obtain ⟨allowed, view⟩ := first
  obtain ⟨allowed', view'⟩ := second
  rw [same, view] at allowed'
  exact ⟨along_append.mpr ⟨allowed, allowed'⟩, by rw [view', view, run_append]⟩

/-- The events of the acts are those that the log has gained. -/
theorem Path.log {acts : List (Act P)} (path : Path grant c c' acts) :
    c'.protocol_engine.log = c.protocol_engine.log ++ acts.flatMap Act.events := by
  have gained : ∀ (acts : List (Act P)) (v : View P), (run Act.after v acts).log = v.log ++ acts.flatMap Act.events := by
    intro acts
    induction acts with
    | nil => simp
    | cons act rest ih => exact fun v => by rw [run_cons, ih]; simp [Act.after]
  exact (congrArg View.log path.2).trans (gained acts c.view)

theorem Follows.refl (c : MqttClient H P E) : Follows grant c c :=
  fun idle => ⟨idle, rfl, [], trivial, rfl⟩
theorem Follows.trans (before : Follows grant c c') (after : Follows grant c' c'') : Follows grant c c'' := by
  intro idle
  obtain ⟨idle', same, acts, path⟩ := before idle
  obtain ⟨idle'', same', more, path'⟩ := after idle'
  exact ⟨idle'', same'.trans same, acts ++ more, path.append same path'⟩

instance : Std.Refl (Follows (H := H) (P := P) (E := E) grant) := ⟨Follows.refl⟩
instance : IsTrans (MqttClient H P E) (Follows grant) := ⟨fun _ _ _ => Follows.trans⟩

/-- A change that is one allowed act. -/
theorem Follows.act (act : Act P) (allowed : act.Allowed H c.config grant c.view)
    (rest : c'.view.rest = (act.after c.view).rest)
    (log : c'.protocol_engine.log = c.protocol_engine.log ++ act.events)
    (queue : c'.protocol_engine.write_queue = c.protocol_engine.write_queue) (config : c'.config = c.config) :
    Follows grant c c' :=
  fun idle => ⟨queue.trans idle, config, [act], ⟨allowed, trivial⟩, View.ext_rest rest log⟩

/-- A change that no act is needed for. -/
theorem Follows.aside (rest : c'.view.rest = c.view.rest)
    (log : c'.protocol_engine.log = c.protocol_engine.log)
    (queue : c'.protocol_engine.write_queue = c.protocol_engine.write_queue) (config : c'.config = c.config) :
    Follows grant c c' :=
  fun idle => ⟨queue.trans idle, config, [], trivial, View.ext_rest rest log⟩

/-- Sequencing, where the rest depends on what is known after the first part. -/
theorem Follows.seq {m : ClientM H P E α} {f : α → ClientM H P E β} {K : α → MqttClient H P E → Prop}
    (first : c.Idle → wp m c fun r c' => Follows grant c c' ∧ ∀ a, r = .ok a → K a c')
    (next : ∀ a c', c'.Idle → K a c' → Follows grant c' (exec (f a) c').2) :
    Follows grant c (exec (m >>= f) c).2 := by
  intro idle
  obtain ⟨followed, known⟩ := first idle
  rw [exec_bind]
  rcases ran : exec m c with ⟨h | a, c'⟩
  · rw [ran] at followed; exact followed idle
  · rw [ran] at followed known
    exact followed.trans (next a c' (followed idle).1 (known a rfl)) idle

/-- Sequencing after a fallible pure computation. -/
theorem Follows.ofExcept {δ : Type} {into : δ → MqttError} {x : Except δ α} {f : α → ClientM H P E β}
    (next : ∀ a, x = .ok a → Follows grant c (exec (f a) c).2) :
    Follows grant c (exec (Effect.ofExcept into x >>= f) c).2 := by
  cases x with
  | error e => exact .refl c
  | ok a => exact next a rfl

/-- A loop whose body needs an invariant. -/
theorem Follows.forM {I : MqttClient H P E → Prop} {f : β → ClientM H P E PUnit} {l : List β}
    (each : ∀ b ∈ l, ∀ c, c.Idle → I c → Follows grant c (exec (f b) c).2 ∧ I (exec (f b) c).2) (start : I c) :
    Follows grant c (exec (l.forM f) c).2 := by
  induction l generalizing c with
  | nil => exact .refl c
  | cons b rest ih =>
    refine Follows.seq (K := fun _ c' => I c') (fun idle => ?_) fun _ c' _ holds => ?_
    · have done := each b List.mem_cons_self c idle start
      exact ⟨done.1, fun _ _ => done.2⟩
    · exact ih (fun b' member => each b' (List.mem_cons_of_mem _ member)) holds

/-- Sending a permitted packet is an act. -/
theorem Follows.sent {packet : P} {r : Except (Halt MqttError) Unit} {e : MqttProtocolEngine H P E}
    (sent : Sent packet c.protocol_engine r e) (permitted : Permitted H grant.plain c.view packet) :
    Follows grant c (MqttClient.engine.set e c) := by
  intro idle
  cases sent with
  | unencoded _ => exact Follows.refl c idle
  | encoded encoded transmission =>
    exact ⟨rfl, rfl, [.transmit _ _ _], ⟨⟨⟨_, _, transmission⟩, permitted⟩, trivial⟩, rfl⟩

end

end Masaka
