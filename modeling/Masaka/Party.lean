import Masaka.Engine
import Masaka.Monitor

/-!
The conduct of an MQTT client, whatever its code: which packets it may send, as the
connection, the packets it has received and the messages it has accepted decide it.
The machine knows nothing of tables, timers and transports; it reads the log and
refuses what a client must not do.
-/
namespace Masaka
open LawfulHandler

/-- The connection of a client, as it knows it. -/
inductive Phase where
  | down
  /-- The CONNECT is out; the next packet decides. -/
  | opening
  | up
  deriving DecidableEq

/-- What the next packet may be because of what happened last. -/
inductive Turn where
  | free
  /-- The answer to the packet received last. -/
  | answer (shape : Shape)
  /-- A request under the identifier handed out last. -/
  | request (pid : Pid)
  /-- The message accepted last, for the first time. -/
  | message (pid : Pid)
  /-- None before the one on the write queue is handed over or given up. -/
  | sending (shape : Shape)
  deriving DecidableEq

/-- A party to the protocol. -/
structure Party where
  phase : Phase
  /-- The messages that are accepted and not acknowledged. -/
  publishable : Finset Pid
  /-- The messages whose PUBREC has come and whose PUBCOMP has not. -/
  releasable : Finset Pid
  turn : Turn
  deriving DecidableEq

/-- A CONNACK that accepts the connection. -/
def Shape.accepts : Shape → Bool
  | .connack _ code => code = 0
  | _ => false

namespace Party

def new : Party where
  phase := .down
  publishable := ∅
  releasable := ∅
  turn := .free

/-- The packets that may be sent. A CONNECT that discards the session needs one that holds nothing; a
    PUBLISH with an identifier belongs to a message that is not acknowledged, and does without the DUP
    flag only right after the message was accepted; an answer belongs to the packet received last. -/
def MayQueue (q : Party) : Shape → Prop
  | .connect clean_session => q.phase ≠ .up ∧ (clean_session = true → q.publishable = ∅ ∧ q.releasable = ∅)
  | .publish message => q.phase = .up ∧ (message.qos_pid.pid = none → message.dup = false) ∧
      ∀ pid ∈ message.qos_pid.pid, pid ∈ q.publishable ∧ (message.dup = false → q.turn = .message pid)
  | .pubrel pid => q.phase = .up ∧ pid ∈ q.releasable
  | .puback pid => q.phase = .up ∧ q.turn = .answer (.puback pid)
  | .pubrec pid => q.phase = .up ∧ q.turn = .answer (.pubrec pid)
  | .pubcomp pid => q.phase = .up ∧ q.turn = .answer (.pubcomp pid)
  | .subscribe pid topics => q.phase = .up ∧ q.turn = .request pid ∧ topics ≠ []
  | .unsubscribe pid topics => q.phase = .up ∧ q.turn = .request pid ∧ topics ≠ []
  | .pingreq | .disconnect => q.phase = .up
  | .connack _ _ | .suback _ _ | .unsuback _ | .pingresp | .auth => False

instance (q : Party) : (shape : Shape) → Decidable (q.MayQueue shape)
  | .connect _ => inferInstanceAs (Decidable (_ ∧ (_ → _)))
  | .publish _ => inferInstanceAs (Decidable (_ ∧ (_ → _) ∧ ∀ pid ∈ (_ : Option Pid), _ ∧ (_ → _)))
  | .pubrel _ | .puback _ | .pubrec _ | .pubcomp _ => inferInstanceAs (Decidable (_ ∧ _))
  | .subscribe _ _ | .unsubscribe _ _ => inferInstanceAs (Decidable (_ ∧ _ ∧ _))
  | .pingreq | .disconnect => inferInstanceAs (Decidable (_ = _))
  | .connack _ _ | .suback _ _ | .unsuback _ | .pingresp | .auth => inferInstanceAs (Decidable False)

/-- A packet goes on the write queue: a CONNECT gives up what was left of a connection. -/
def queues (q : Party) (shape : Shape) : Party where
  phase := match shape with
    | .connect _ => .down
    | _ => q.phase
  publishable := q.publishable
  releasable := q.releasable
  turn := .sending shape

/-- The answer that a packet calls for. -/
def reply : Shape → Turn
  | .publish message => match message.qos_pid with
    | .Level0 => .free
    | .Level1 pid => .answer (.puback pid)
    | .Level2 pid => .answer (.pubrec pid)
  | .pubrel pid => .answer (.pubcomp pid)
  | _ => .free

/-- A packet arrives on a connection that is up. -/
def hears (q : Party) (shape : Shape) : Party where
  phase := q.phase
  publishable := match shape with
    | .puback pid | .pubrec pid | .pubcomp pid => q.publishable.erase pid
    | _ => q.publishable
  releasable := match shape with
    | .pubrec pid => if pid ∈ q.publishable then insert pid q.releasable else q.releasable
    | .pubcomp pid => q.releasable.erase pid
    | _ => q.releasable
  turn := reply shape

/-- What an event makes of a party, if it may happen. -/
def step (H : Type) {P E : Type} [MqttProtocolHandler H P E] [LawfulHandler H P E] (q : Party) :
    Event P → Option Party
  | .queued frame =>
    if q.MayQueue (shape (H := H) frame.packet) then some (q.queues (shape (H := H) frame.packet)) else none
  | .sent frame =>
    if q.turn = .sending (shape (H := H) frame.packet) then
      match shape (H := H) frame.packet with
      | .connect _ => if q.phase = .down then some { q with phase := .opening, turn := .free } else none
      | _ => some { q with turn := .free }
    else none
  | .received packet => match q.phase with
    | .down => none
    | .opening => some { q with phase := if (shape (H := H) packet).accepts then .up else .down, turn := .free }
    | .up => some (q.hears (shape (H := H) packet))
  | .close _ => if q.phase = .up then some { q with phase := .down, turn := .free } else none
  | .handed_out pid => if q.phase = .up then some { q with turn := .request pid } else none
  | .accepted pid =>
    if q.phase = .up ∧ q.turn = .request pid then
      some { q with publishable := insert pid q.publishable, turn := .message pid }
    else none
  | .cleared => some { q with publishable := ∅, releasable := ∅, turn := .free }
  | .write _ _ | .flush _ | .clock _ | .delay _ => some q

/-! ### What the log says of a party -/

section
variable {H P E : Type} [MqttProtocolHandler H P E] [LawfulHandler H P E]

/-- A packet of the shape arrives. -/
def Arrives (H : Type) {P E : Type} [MqttProtocolHandler H P E] [LawfulHandler H P E] (shaped : Shape → Prop)
    (event : Event P) : Prop := ∃ packet, event = .received packet ∧ shaped (shape (H := H) packet)

/-- A connection was accepted, and has not been closed since. -/
def Linked (H : Type) {P E : Type} [MqttProtocolHandler H P E] [LawfulHandler H P E] : List (Event P) → Prop :=
  Monitor.Since (fun _ event => Arrives H (fun shape => shape.accepts = true) event)
    fun _ event => ∃ answer, event = .close answer

/-- A packet of the shape arrives on a connection. -/
def Hears (H : Type) {P E : Type} [MqttProtocolHandler H P E] [LawfulHandler H P E] (shaped : Shape → Prop)
    (past : List (Event P)) (event : Event P) : Prop := Linked H past ∧ Arrives H shaped event

/-- A packet that acknowledges a PUBLISH, well or not. -/
def Acknowledges (pid : Pid) (shape : Shape) : Prop :=
  shape = .puback pid ∨ shape = .pubrec pid ∨ shape = .pubcomp pid

/-- A message was accepted under the identifier, and has neither been acknowledged nor forgotten since. -/
def Outstanding (H : Type) {P E : Type} [MqttProtocolHandler H P E] [LawfulHandler H P E] (pid : Pid) :
    List (Event P) → Prop :=
  Monitor.Since (fun _ event => event = .accepted pid)
    fun past event => event = .cleared ∨ Hears H (Acknowledges pid) past event

/-- The PUBREC of an outstanding message has come, and the message has neither been completed nor forgotten since. -/
def Released (H : Type) {P E : Type} [MqttProtocolHandler H P E] [LawfulHandler H P E] (pid : Pid) :
    List (Event P) → Prop :=
  Monitor.Since (fun past event => Outstanding H pid past ∧ Hears H (· = .pubrec pid) past event)
    fun past event => event = .cleared ∨ Hears H (· = .pubcomp pid) past event

/-- The steps of a party, one case for each thing that may happen. -/
inductive Takes (H : Type) {P E : Type} [MqttProtocolHandler H P E] [LawfulHandler H P E] (q : Party) :
    Event P → Party → Prop where
  | queued {frame : Frame P} : q.MayQueue (shape (H := H) frame.packet) →
      Takes H q (.queued frame) (q.queues (shape (H := H) frame.packet))
  /-- The CONNECT is out. -/
  | opened {frame : Frame P} : q.phase = .down → Takes H q (.sent frame) { q with phase := .opening, turn := .free }
  | sent {frame : Frame P} : Takes H q (.sent frame) { q with turn := .free }
  /-- The first packet decides the connection. -/
  | decided {packet : P} : q.phase = .opening → Takes H q (.received packet)
      { q with phase := if (shape (H := H) packet).accepts then .up else .down, turn := .free }
  | heard {packet : P} : q.phase = .up → Takes H q (.received packet) (q.hears (shape (H := H) packet))
  | closed {answer : Answer Unit} : q.phase = .up → Takes H q (.close answer) { q with phase := .down, turn := .free }
  | handed_out {pid : Pid} : q.phase = .up → Takes H q (.handed_out pid) { q with turn := .request pid }
  | accepted {pid : Pid} : q.phase = .up → q.turn = .request pid →
      Takes H q (.accepted pid) { q with publishable := insert pid q.publishable, turn := .message pid }
  | cleared : Takes H q .cleared { q with publishable := ∅, releasable := ∅, turn := .free }
  | write {bytes : Bytes} {answer : Answer Nat} : Takes H q (.write bytes answer) q
  | flush {answer : Answer Unit} : Takes H q (.flush answer) q
  | clock {now : Nat} : Takes H q (.clock now) q
  | delay {ms : UInt32} : Takes H q (.delay ms) q

/-- Every step is one of these. -/
theorem step_takes {q q' : Party} {event : Event P} (stepped : q.step H event = some q') : Takes H q event q' := by
  cases event with
  | queued frame =>
    simp only [step] at stepped
    split at stepped <;> cases stepped
    exact .queued ‹_›
  | sent frame =>
    simp only [step] at stepped
    split at stepped
    · split at stepped
      · split at stepped <;> cases stepped
        exact .opened ‹_›
      · cases stepped
        exact .sent
    · cases stepped
  | received packet =>
    simp only [step] at stepped
    split at stepped <;> cases stepped
    · exact .decided ‹_›
    · exact .heard ‹_›
  | close answer =>
    simp only [step] at stepped
    split at stepped <;> cases stepped
    exact .closed ‹_›
  | handed_out pid =>
    simp only [step] at stepped
    split at stepped <;> cases stepped
    exact .handed_out ‹_›
  | accepted pid =>
    simp only [step] at stepped
    split at stepped <;> cases stepped
    rename_i may
    exact .accepted may.1 may.2
  | cleared => cases stepped; exact .cleared
  | write => cases stepped; exact .write
  | flush => cases stepped; exact .flush
  | clock => cases stepped; exact .clock
  | delay => cases stepped; exact .delay

/-- A packet goes out or arrives. -/
def Moves (event : Event P) : Prop := (∃ frame, event = .queued frame) ∨ ∃ packet, event = .received packet

/-- A packet that calls for the answer was the last one to arrive, and none has been sent since. -/
def Owes (H : Type) {P E : Type} [MqttProtocolHandler H P E] [LawfulHandler H P E] (answer : Shape) :
    List (Event P) → Prop :=
  Monitor.Since (Hears H fun shape => reply shape = .answer answer) fun _ event => Moves event

/-- The identifier was handed out, and no packet has been sent or received since. -/
def Handed (pid : Pid) : List (Event P) → Prop :=
  Monitor.Since (fun _ event => event = .handed_out pid) fun _ event => Moves event

/-- A message was accepted under the identifier, and no packet has been sent or received since. -/
def Accepted (pid : Pid) : List (Event P) → Prop :=
  Monitor.Since (fun _ event => event = .accepted pid) fun _ event => Moves event

/-- A packet of the shape is put on the write queue. -/
def Queues (H : Type) {P E : Type} [MqttProtocolHandler H P E] [LawfulHandler H P E] (shaped : Shape) (event : Event P) :
    Prop := ∃ frame : Frame P, event = .queued frame ∧ shape (H := H) frame.packet = shaped

/-- A packet of the shape was put on the write queue, and has not been handed over since; nor has another moved. -/
def Writing (H : Type) {P E : Type} [MqttProtocolHandler H P E] [LawfulHandler H P E] (shaped : Shape) :
    List (Event P) → Prop :=
  Monitor.Since (fun _ event => Queues H shaped event) fun _ event => Moves event ∨ ∃ frame, event = .sent frame

/-- What a step makes of the connection. -/
theorem step_phase {q q' : Party} {event : Event P} (stepped : q.step H event = some q') :
    q'.phase = .up ↔ Arrives H (fun shape => shape.accepts = true) event ∨
      q.phase = .up ∧ ¬ ∃ answer, event = .close answer := by
  cases step_takes stepped with
  | @queued frame may =>
    cases shaped : shape (H := H) frame.packet with
    | connect clean => rw [shaped] at may; simp [queues, Arrives, may.1]
    | _ => simp [queues, Arrives]
  | opened down => simp [Arrives, down]
  | @decided packet opening => by_cases accepted : (shape (H := H) packet).accepts <;> simp [Arrives, accepted, opening]
  | heard up => simp [hears, up]
  | _ => simp [Arrives]

/-- What a step makes of the messages that are not acknowledged. -/
theorem step_publishable {q q' : Party} {event : Event P} (stepped : q.step H event = some q') (pid : Pid) :
    pid ∈ q'.publishable ↔ event = .accepted pid ∨ pid ∈ q.publishable ∧
      ¬ (event = .cleared ∨ q.phase = .up ∧ Arrives H (Acknowledges pid) event) := by
  cases step_takes stepped with
  | decided opening => simp [opening]
  | @heard packet up =>
    cases shaped : shape (H := H) packet <;> simp [hears, Arrives, shaped, Acknowledges, up, eq_comm, and_comm]
  | accepted _ _ => simp [Arrives, eq_comm]
  | _ => simp [queues, Arrives]

/-- What a step makes of the messages that may be released. -/
theorem step_releasable {q q' : Party} {event : Event P} (stepped : q.step H event = some q') (pid : Pid) :
    pid ∈ q'.releasable ↔ (pid ∈ q.publishable ∧ q.phase = .up ∧ Arrives H (· = .pubrec pid) event) ∨
      pid ∈ q.releasable ∧ ¬ (event = .cleared ∨ q.phase = .up ∧ Arrives H (· = .pubcomp pid) event) := by
  cases step_takes stepped with
  | decided opening => simp [opening]
  | @heard packet up =>
    cases shaped : shape (H := H) packet with
    | pubrec known =>
      by_cases held : known ∈ q.publishable <;> by_cases same : known = pid <;>
        simp_all [hears, Arrives, eq_comm]
    | _ => simp [hears, Arrives, shaped, up, eq_comm, and_comm]
  | _ => simp [queues, Arrives]

/-- What the next packet may be is decided by the step, or was before. -/
theorem step_turn {q q' : Party} {event : Event P} (stepped : q.step H event = some q') : match q'.turn with
    | .free => True
    | .answer shape => q.phase = .up ∧ Arrives H (fun heard => reply heard = .answer shape) event ∨
        q.turn = .answer shape ∧ ¬ Moves event
    | .request pid => event = .handed_out pid ∨ q.turn = .request pid ∧ ¬ Moves event
    | .message pid => event = .accepted pid ∨ q.turn = .message pid ∧ ¬ Moves event
    | .sending shape => Queues H shape event ∨ q.turn = .sending shape ∧
        ¬ (Moves event ∨ ∃ frame, event = .sent frame) := by
  cases step_takes stepped with
  | queued may => exact .inl ⟨_, rfl, rfl⟩
  | opened down => trivial
  | sent => trivial
  | decided opening => trivial
  | @heard packet up =>
    cases shaped : shape (H := H) packet with
    | publish message => cases level : message.qos_pid <;> simp [hears, reply, shaped, level, up, Arrives]
    | _ => simp [hears, reply, shaped, up, Arrives]
  | closed up => trivial
  | handed_out up => exact .inl rfl
  | accepted up turn => exact .inl rfl
  | cleared => trivial
  | write | flush | clock | delay => cases q.turn <;> simp [Moves]

/-- The party is what the log says of it. -/
structure Tells (H : Type) {P E : Type} [MqttProtocolHandler H P E] [LawfulHandler H P E] (log : List (Event P))
    (q : Party) : Prop where
  phase : q.phase = .up ↔ Linked H log
  publishable : ∀ pid, pid ∈ q.publishable ↔ Outstanding H pid log
  releasable : ∀ pid, pid ∈ q.releasable ↔ Released H pid log
  turn : match q.turn with
    | .free => True
    | .answer shape => Owes H shape log
    | .request pid => Handed pid log
    | .message pid => Accepted pid log
    | .sending shape => Writing H shape log

theorem read_tells {q : Party} {log : List (Event P)} (accepted : Monitor.read (step H) new log = some q) :
    Tells H log q := by
  refine Monitor.read_history accepted ⟨?_, fun pid => ?_, fun pid => ?_, trivial⟩
    fun past here event next tells stepped => ⟨?_, fun pid => ?_, fun pid => ?_, ?_⟩
  · exact iff_of_false (by simp [new]) (Monitor.not_since_nil _ _)
  · exact iff_of_false (Finset.notMem_empty pid) (Monitor.not_since_nil _ _)
  · exact iff_of_false (Finset.notMem_empty pid) (Monitor.not_since_nil _ _)
  · rw [step_phase stepped, tells.phase, Linked, Monitor.since_concat]
  · rw [step_publishable stepped, tells.phase, tells.publishable, Outstanding, Monitor.since_concat]
    rfl
  · rw [step_releasable stepped, tells.phase, tells.publishable, tells.releasable, Released, Monitor.since_concat]
    rfl
  · have turned := step_turn stepped
    have before := tells.turn
    cases turn : next.turn with
    | free => trivial
    | answer answer =>
      simp only [turn] at turned ⊢
      rw [Owes, Monitor.since_concat]
      refine turned.imp (fun now => ⟨tells.phase.mp now.1, now.2⟩) fun kept => ⟨?_, kept.2⟩
      exact (show Owes H answer past by simpa only [kept.1] using before)
    | request pid =>
      simp only [turn] at turned ⊢
      rw [Handed, Monitor.since_concat]
      refine turned.imp_right fun kept => ⟨?_, kept.2⟩
      exact (show Handed pid past by simpa only [kept.1] using before)
    | message pid =>
      simp only [turn] at turned ⊢
      rw [Accepted, Monitor.since_concat]
      refine turned.imp_right fun kept => ⟨?_, kept.2⟩
      exact (show Accepted pid past by simpa only [kept.1] using before)
    | sending shape =>
      simp only [turn] at turned ⊢
      rw [Writing, Monitor.since_concat]
      refine turned.imp_right fun kept => ⟨?_, kept.2⟩
      exact (show Writing H shape past by simpa only [kept.1] using before)

/-- When a packet may go out, as the log before it decides it. -/
def Fits (H : Type) {P E : Type} [MqttProtocolHandler H P E] [LawfulHandler H P E] (past : List (Event P)) :
    Shape → Prop
  | .connect clean_session => ¬ Linked H past ∧
      (clean_session = true → ∀ pid, ¬ Outstanding H pid past ∧ ¬ Released H pid past)
  | .publish message => Linked H past ∧ (message.qos_pid.pid = none → message.dup = false) ∧
      ∀ pid, message.qos_pid.pid = some pid → Outstanding H pid past ∧ (message.dup = false → Accepted pid past)
  | .pubrel pid => Linked H past ∧ Released H pid past
  | .puback pid => Linked H past ∧ Owes H (.puback pid) past
  | .pubrec pid => Linked H past ∧ Owes H (.pubrec pid) past
  | .pubcomp pid => Linked H past ∧ Owes H (.pubcomp pid) past
  | .subscribe pid topics => Linked H past ∧ Handed pid past ∧ topics ≠ []
  | .unsubscribe pid topics => Linked H past ∧ Handed pid past ∧ topics ≠ []
  | .pingreq | .disconnect => Linked H past
  | .connack _ _ | .suback _ _ | .unsuback _ | .pingresp | .auth => False

/-- What a party may send fits what was logged. -/
theorem MayQueue.fits {q : Party} {past : List (Event P)} (tells : Tells H past q) {shape : Shape}
    (may : q.MayQueue shape) : Fits H past shape := by
  have turn := tells.turn
  cases shape with
  | connect clean =>
    refine ⟨fun linked => may.1 (tells.phase.mpr linked), fun discards pid => ?_⟩
    obtain ⟨publishable, releasable⟩ := may.2 discards
    rw [← tells.publishable, ← tells.releasable, publishable, releasable]
    exact ⟨Finset.notMem_empty pid, Finset.notMem_empty pid⟩
  | publish message =>
    refine ⟨tells.phase.mp may.1, may.2.1, fun pid carries => ?_⟩
    obtain ⟨held, new⟩ := may.2.2 pid carries
    refine ⟨(tells.publishable pid).mp held, fun first => ?_⟩
    simpa only [new first] using turn
  | pubrel pid => exact ⟨tells.phase.mp may.1, (tells.releasable pid).mp may.2⟩
  | puback pid | pubrec pid | pubcomp pid => exact ⟨tells.phase.mp may.1, by simpa only [may.2] using turn⟩
  | subscribe pid topics | unsubscribe pid topics =>
    exact ⟨tells.phase.mp may.1, by simpa only [may.2.1] using turn, may.2.2⟩
  | pingreq | disconnect => exact tells.phase.mp may
  | connack | suback | unsuback | pingresp | auth => exact may.elim

theorem queued_may {q q' : Party} {frame : Frame P} (stepped : q.step H (.queued frame) = some q') :
    q.MayQueue (shape (H := H) frame.packet) := by
  generalize same : Event.queued frame = event at stepped
  cases step_takes stepped with
  | queued may => cases same; exact may
  | _ => cases same

/-- What goes out is what was queued last. -/
theorem sent_turn {q q' : Party} {frame : Frame P} (stepped : q.step H (.sent frame) = some q') :
    q.turn = .sending (shape (H := H) frame.packet) := by
  simp only [step] at stepped
  split at stepped
  · assumption
  · cases stepped

/-- Every packet of a log that the party accepts fits what was logged before it. -/
theorem read_fits {q : Party} {before after : List (Event P)} {frame : Frame P}
    (accepted : Monitor.read (step H) new (before ++ .queued frame :: after) = some q) :
    Fits H before (shape (H := H) frame.packet) := by
  obtain ⟨here, next, first, stepped, -⟩ := Monitor.read_event accepted
  exact (queued_may stepped).fits (read_tells first)

end

end Party

end Masaka
