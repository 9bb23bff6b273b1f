import Masaka.ConnectResult

/-!
The passes over what is pending. A pass sends its packets one after another until one
of them fails. `handle_retries` gives up the messages that were counted often enough,
counts each of those that are due before it sends it, and then sends the PUBRELs for
which there is time.
-/
namespace Masaka.Retries
open Effect Tables MqttProtocolHandler MqttProtocolEngine Sending ConnectResult
open MqttClient (engine)

variable {H P E : Type}

/-- A packet is sent, well or not; once it is out, the engine takes the time. -/
structure Departs [MqttProtocolHandler H P E] (packet : P) (e : MqttProtocolEngine H P E)
    (r : Except (Halt MqttError) Unit) (e' : MqttProtocolEngine H P E) : Prop where
  sent : Sent packet e r e'
  stamped : r = .ok () → e'.world.flush = flushed e.world.flush ∧ e'.last_packet_sent_time = e.world.now 0 ∧
    e'.world.now = fun n => e.world.now (n + 1)

/-- A message with one more retransmission counted. -/
def counted (current_time : Nat) (message : InflightMessage) : InflightMessage :=
  { message with retry_count := message.retry_count + 1, timestamp := current_time }

/-- The session with the retransmission of an entry counted. -/
def count (current_time : Nat) (s : InMemorySession) (entry : Pid × InflightMessage) : InMemorySession :=
  { s with pending_publishes := s.pending_publishes.insert entry.1 (counted current_time entry.2) }

/-- The entries that are due, in the order in which they are visited. -/
def due (current_time : Nat) (order : IterOrder Pid) (s : InMemorySession) : List (Pid × InflightMessage) :=
  (SessionState.pending_outgoing_publishes order s).filter fun entry => retries current_time entry.2

/-- The PUBRELs that a pass looks at. -/
def releases (order : IterOrder Pid) (s : InMemorySession) : List Pid :=
  (SessionState.pending_outgoing_pubrels order s).take 10

/-- The part of a session that the retries of publishes do not touch. -/
def others (s : InMemorySession) : Pid × HashSet Pid × HashMap Pid SubscriptionInfo × HashSet TopicFilter × Nat :=
  (s.next_pid, s.pending_pubrels, s.subscriptions, s.active_topics, s.sub_capacity)

/-- What a pass makes of the session: the entries that it gives up are gone, and those it has begun
    to send again are counted. -/
structure Counted (current_time : Nat) (started : List (Pid × InflightMessage)) (s s' : InMemorySession) : Prop where
  lookup : ∀ pid, s'.pending_publishes.lookup pid = (s.pending_publishes.lookup pid).bind fun message =>
    if drops current_time message then none
    else if pid ∈ started.map Prod.fst then some (counted current_time message) else some message
  rest : others s' = others s

section
variable [MqttProtocolHandler H P E]

theorem send_packet_departs (packet : P) {e : MqttProtocolEngine H P E} (idle : e.write_queue = []) :
    wp (send_packet packet) e (Departs packet e) := by
  refine wp_mono (wp_and (send_packet_spec packet idle) (send_packet_stamps packet idle)) fun r e' outcome => ?_
  exact ⟨outcome.1, outcome.2.1⟩

/-- Packets are sent one after another until one cannot be made or sent; the number says how many were begun. -/
inductive Series : List (Except E P) → MqttProtocolEngine H P E → Nat → Except (Halt MqttError) Unit →
    MqttProtocolEngine H P E → Prop where
  | done {e : MqttProtocolEngine H P E} : Series [] e 0 (.ok ()) e
  | unmade {e : MqttProtocolEngine H P E} {err : E} {rest : List (Except E P)} :
      Series (.error err :: rest) e 1 (.error (.err (into H err))) e
  | stopped {e e' : MqttProtocolEngine H P E} {packet : P} {rest : List (Except E P)} {halt : Halt MqttError} :
      Departs packet e (.error halt) e' → Series (.ok packet :: rest) e 1 (.error halt) e'
  | next {e e' e'' : MqttProtocolEngine H P E} {packet : P} {rest : List (Except E P)} {n : Nat}
      {r : Except (Halt MqttError) Unit} : Departs packet e (.ok ()) e' → Series rest e' n r e'' →
      Series (.ok packet :: rest) e (n + 1) r e''

/-- The engine lets a PUBREL go: more than a second has passed since it sent a packet. -/
def Ready (current_time : Nat) (e : MqttProtocolEngine H P E) : Prop :=
  min (e.last_packet_sent_time + 1000) (2 ^ 64 - 1) < current_time

/-- The PUBRELs are sent that there is time for, until one fails. The list has those that were sent. -/
inductive Paced (current_time : Nat) : List Pid → MqttProtocolEngine H P E → List Pid →
    Except (Halt MqttError) Unit → MqttProtocolEngine H P E → Prop where
  | done {e : MqttProtocolEngine H P E} : Paced current_time [] e [] (.ok ()) e
  | skipped {e e' : MqttProtocolEngine H P E} {pid : Pid} {rest sent : List Pid} {r : Except (Halt MqttError) Unit} :
      ¬ Ready current_time e → Paced current_time rest e sent r e' → Paced current_time (pid :: rest) e sent r e'
  | stopped {e e' : MqttProtocolEngine H P E} {pid : Pid} {rest : List Pid} {packet : P} {halt : Halt MqttError} :
      Ready current_time e → create_pubrel_packet e.handler pid = .ok packet → Departs packet e (.error halt) e' →
      Paced current_time (pid :: rest) e [] (.error halt) e'
  | next {e e' e'' : MqttProtocolEngine H P E} {pid : Pid} {rest sent : List Pid} {packet : P}
      {r : Except (Halt MqttError) Unit} : Ready current_time e → create_pubrel_packet e.handler pid = .ok packet →
      Departs packet e (.ok ()) e' → Paced current_time rest e' sent r e'' →
      Paced current_time (pid :: rest) e (pid :: sent) r e''

/-- What an engine that sends keeps. -/
structure Kept (e e' : MqttProtocolEngine H P E) : Prop where
  idle : e.write_queue = [] → e'.write_queue = []
  handler : e'.handler = e.handler
  order : e'.world.order = e.world.order
  connected : e'.connected = e.connected

omit [MqttProtocolHandler H P E] in
theorem Kept.refl (e : MqttProtocolEngine H P E) : Kept e e := ⟨id, rfl, rfl, rfl⟩
omit [MqttProtocolHandler H P E] in
theorem Kept.trans {e e' e'' : MqttProtocolEngine H P E} (first : Kept e e') (second : Kept e' e'') : Kept e e'' :=
  ⟨second.idle ∘ first.idle, second.handler.trans first.handler, second.order.trans first.order,
    second.connected.trans first.connected⟩

theorem Departs.kept {packet : P} {e e' : MqttProtocolEngine H P E} {r : Except (Halt MqttError) Unit}
    (departs : Departs packet e r e') : Kept e e' := by
  obtain ⟨connected, handler, -, order, -⟩ := departs.sent.frame
  exact ⟨departs.sent.idle, handler, order, connected⟩

theorem Series.kept {list : List (Except E P)} {e e' : MqttProtocolEngine H P E} {n : Nat}
    {r : Except (Halt MqttError) Unit} (series : Series list e n r e') : Kept e e' := by
  induction series with
  | done => exact .refl _
  | unmade => exact .refl _
  | stopped departs => exact departs.kept
  | next departs _ ih => exact departs.kept.trans ih

theorem Paced.kept {current_time : Nat} {pids sent : List Pid} {e e' : MqttProtocolEngine H P E}
    {r : Except (Halt MqttError) Unit} (paced : Paced current_time pids e sent r e') : Kept e e' := by
  induction paced with
  | done => exact .refl _
  | skipped _ _ ih => exact ih
  | stopped _ _ departs => exact departs.kept
  | next _ _ departs _ ih => exact departs.kept.trans ih

/-- The transport takes and flushes all that it is given. -/
structure Flows (e : MqttProtocolEngine H P E) : Prop where
  write : Taking e.world.write
  flush : ∀ n, e.world.flush n = some (.ok ())

/-- Over such a transport sending fails only if the packet cannot be encoded. -/
theorem Departs.flows {packet : P} {e e' : MqttProtocolEngine H P E} {r : Except (Halt MqttError) Unit}
    (departs : Departs packet e r e') (flows : Flows e) : Flows e' ∧ ∀ halt, r = .error halt →
      ∃ err, encode_packet e.handler packet = .error err := by
  have sent := departs.sent
  cases sent with
  | unencoded failed => exact ⟨flows, fun _ _ => ⟨_, failed⟩⟩
  | encoded _ transmission flushes =>
    refine ⟨⟨transmission.taking flows.write, ?_⟩, fun halt stopped => ?_⟩
    · rcases flushes with rfl | rfl
      · exact flows.flush
      · exact fun n => flows.flush (n + 1)
    · cases transmission with
      | complete _ _ => cases stopped
      | unflushed _ failed =>
        rw [flows.flush 0] at failed
        cases failed
      | broken breaks => exact absurd flows.write breaks.not_taking

/-- A packet that is out has been written. -/
theorem Departs.wrote {packet : P} {e e' : MqttProtocolEngine H P E} (departs : Departs packet e (.ok ()) e') :
    ∃ events, e'.log = e.log ++ events ∧ Wrote [packet] events := by
  have sent := departs.sent
  cases sent with
  | encoded _ transmission _ => exact ⟨_, rfl, transmission_wrote transmission⟩

/-- The packet can be encoded, and the transport takes all of it. -/
def Hands (h : H) (tape : Tape) (packet : P) : Prop :=
  ∃ bytes, encode_packet h packet = .ok bytes ∧ Takes tape bytes.length

/-- One of the packets cannot be made or handed over, after those before it were sent. -/
inductive Falters (h : H) : Tape → (Nat → Answer Unit) → List (Except E P) → Prop where
  | unmade {tape : Tape} {flush : Nat → Answer Unit} {err : E} {rest : List (Except E P)} :
      Falters h tape flush (.error err :: rest)
  | unsent {tape : Tape} {flush : Nat → Answer Unit} {packet : P} {rest : List (Except E P)} : ¬ Hands h tape packet →
      Falters h tape flush (.ok packet :: rest)
  | later {tape tape' : Tape} {flush : Nat → Answer Unit} {packet : P} {rest : List (Except E P)} {bytes : VarBytes}
      {events : List (Event P)} : encode_packet h packet = .ok bytes → Writes tape bytes events tape' →
      flush 0 = some (.ok ()) → Falters h tape' (flushed flush) rest → Falters h tape flush (.ok packet :: rest)

/-- A packet that is out was encoded, taken and flushed. -/
theorem Departs.taken {packet : P} {e e' : MqttProtocolEngine H P E} (departs : Departs packet e (.ok ()) e') :
    ∃ bytes, ∃ writes : List (Event P), encode_packet e.handler packet = .ok bytes ∧
      Writes e.world.write bytes writes e'.world.write ∧ e.world.flush 0 = some (.ok ()) := by
  have sent := departs.sent
  cases sent with
  | encoded encodes transmission _ =>
    cases transmission with
    | complete writes answer => exact ⟨_, _, encodes, writes, answer⟩

theorem falters_next {h : H} {tape tape' : Tape} {flush : Nat → Answer Unit} {packet : P} {rest : List (Except E P)}
    {bytes : VarBytes} {writes : List (Event P)} (encodes : encode_packet h packet = .ok bytes)
    (wrote : Writes tape bytes writes tape') (answer : flush 0 = some (.ok ())) :
    Falters h tape flush (.ok packet :: rest) ↔ Falters h tape' (flushed flush) rest := by
  refine ⟨fun falters => ?_, .later encodes wrote answer⟩
  cases falters with
  | unsent short => exact absurd ⟨_, encodes, wrote.takes⟩ short
  | later encodes' wrote' _ falters =>
    cases encodes.symm.trans encodes'
    rwa [writes_unique wrote wrote'] at falters

/-- What of a packet has been handed over: all of it, or not even its last byte. -/
theorem Departs.part {packet : P} {e e' : MqttProtocolEngine H P E} {r : Except (Halt MqttError) Unit}
    (departs : Departs packet e r e') : ∃ events, e'.log = e.log ++ events ∧ (∀ pid, .accepted pid ∉ events) ∧
      (packets_sent events = [packet] ∧ Hands e.handler e.world.write packet ∨
        packets_sent events = [] ∧ ¬ Hands e.handler e.world.write packet ∧ r ≠ .ok ()) := by
  have sent := departs.sent
  cases sent with
  | unencoded failed =>
    refine ⟨[], (List.append_nil _).symm, by simp, .inr ⟨rfl, ?_, fun ended => by cases ended⟩⟩
    rintro ⟨bytes, encodes, -⟩
    cases failed.symm.trans encodes
  | encoded encodes transmission _ =>
    refine ⟨_, rfl, fun pid => transmission.unsaid (by simp) id, ?_⟩
    rcases transmission.handed_over with ⟨whole, takes⟩ | ⟨nothing, short, stopped⟩
    · exact .inl ⟨whole, _, encodes, takes⟩
    · refine .inr ⟨nothing, ?_, stopped⟩
      rintro ⟨bytes, encodes', takes⟩
      cases encodes.symm.trans encodes'
      exact short takes

/-- A series has handed over the packets that it has begun to send, or all but the last one. -/
theorem Series.part {list : List (Except E P)} {e e' : MqttProtocolEngine H P E} {n : Nat}
    {r : Except (Halt MqttError) Unit} (series : Series list e n r e') : ∃ k events, e'.log = e.log ++ events ∧
      (∀ pid, .accepted pid ∉ events) ∧ (packets_sent events).map .ok = list.take k ∧ k ≤ n ∧ n ≤ k + 1 ∧
        (r = .ok () → k = n) ∧ (k = n ↔ ¬ Falters e.handler e.world.write e.world.flush list) := by
  induction series with
  | done =>
    refine ⟨0, [], (List.append_nil _).symm, by simp, rfl, by simp, by simp, fun _ => rfl, fun _ falters => ?_, fun _ => rfl⟩
    cases falters
  | unmade =>
    refine ⟨0, [], (List.append_nil _).symm, by simp, rfl, by simp, by simp, (by simp), ?_⟩
    exact ⟨fun same => (by cases same), fun steady => absurd .unmade steady⟩
  | stopped departs =>
    obtain ⟨events, log, none, ⟨all, hands⟩ | ⟨nothing, short, -⟩⟩ := departs.part
    · refine ⟨1, events, log, none, by simp [all], by simp, by simp, (by simp), fun _ falters => ?_,
        fun _ => rfl⟩
      cases falters with
      | unsent short => exact short hands
      | later encodes writes answer _ => cases departs.sent.succeeds_iff.mpr ⟨_, encodes, writes.takes, answer⟩
    · refine ⟨0, events, log, none, by simp [nothing], by simp, by simp, (by simp), ?_⟩
      exact ⟨fun same => (by cases same), fun steady => absurd (.unsent short) steady⟩
  | @next e e₁ e₂ packet rest n r departs _ ih =>
    obtain ⟨events, log, none, all⟩ := departs.part
    obtain ⟨k, more, log', none', sent, less, most, ended, handed⟩ := ih
    obtain ⟨here, hands⟩ := all.resolve_right fun stopped => stopped.2.2 rfl
    have on : Falters e₁.handler e₁.world.write e₁.world.flush rest ↔
        Falters e.handler e.world.write e.world.flush (.ok packet :: rest) := by
      obtain ⟨bytes, writes, encodes, wrote, answer⟩ := departs.taken
      rw [departs.kept.handler, (departs.stamped rfl).1, falters_next encodes wrote answer]
    refine ⟨k + 1, events ++ more, by rw [log', log, List.append_assoc], ?_, ?_, by omega, by omega, ?_, ?_⟩
    · intro pid member
      exact (List.mem_append.mp member).elim (none pid) (none' pid)
    · rw [packets_sent, List.filterMap_append, ← packets_sent, ← packets_sent, here, List.map_append, sent]
      rfl
    · intro returned
      rw [ended returned]
    · rw [← on, ← handed, Nat.add_right_cancel_iff]

/-- The PUBRELs that are sent are some of those that are to be sent. -/
theorem Paced.part {current_time : Nat} {pids sent : List Pid} {e e' : MqttProtocolEngine H P E}
    {r : Except (Halt MqttError) Unit} (paced : Paced current_time pids e sent r e') : ∃ events,
      e'.log = e.log ++ events ∧ (∀ pid, .accepted pid ∉ events) ∧
        ∀ packet ∈ packets_sent events, ∃ pid, create_pubrel_packet e.handler pid = .ok packet := by
  have alone : ∀ {events : List (Event P)} {packet : P} {r : Except (Halt MqttError) Unit} {pid : Pid} {h : H}
      {e : MqttProtocolEngine H P E}, create_pubrel_packet h pid = .ok packet →
      (packets_sent events = [packet] ∧ Hands e.handler e.world.write packet ∨
        packets_sent events = [] ∧ ¬ Hands e.handler e.world.write packet ∧ r ≠ .ok ()) →
      ∀ packet ∈ packets_sent events, ∃ pid, create_pubrel_packet h pid = .ok packet := by
    intro events packet r pid h e created all other member
    rcases all with ⟨one, -⟩ | ⟨nothing, -⟩
    · rw [one] at member
      rw [List.mem_singleton.mp member]
      exact ⟨pid, created⟩
    · rw [nothing] at member
      cases member
  induction paced with
  | done => exact ⟨[], (List.append_nil _).symm, by simp, by simp [packets_sent]⟩
  | skipped _ _ ih => exact ih
  | stopped _ created departs =>
    obtain ⟨events, log, none, all⟩ := departs.part
    exact ⟨events, log, none, alone created all⟩
  | next _ created departs _ ih =>
    obtain ⟨events, log, none, all⟩ := departs.part
    obtain ⟨more, log', none', later⟩ := ih
    rw [departs.kept.handler] at later
    refine ⟨events ++ more, by rw [log', log, List.append_assoc], fun pid member => ?_, fun packet member => ?_⟩
    · exact (List.mem_append.mp member).elim (none pid) (none' pid)
    · rw [packets_sent, List.filterMap_append] at member
      exact (List.mem_append.mp member).elim (alone created all packet) (later packet)

omit [MqttProtocolHandler H P E] in
/-- What the packets of a list of entries tell, if each of them tells it of its entry. -/
theorem filterMap_made {β : Type} {make : Pid × InflightMessage → Except E P} {tell : P → Option β}
    {told : Pid × InflightMessage → β} (each : ∀ entry packet, make entry = .ok packet → tell packet = some (told entry))
    {entries : List (Pid × InflightMessage)} {packets : List P} {k : Nat}
    (sent : packets.map .ok = (entries.map make).take k) : packets.filterMap tell = (entries.take k).map told := by
  induction entries generalizing packets k with
  | nil =>
    rw [List.map_nil, List.take_nil, List.map_eq_nil_iff] at sent
    rw [sent, List.take_nil]
    rfl
  | cons entry rest ih =>
    cases k with
    | zero =>
      rw [List.take_zero, List.map_eq_nil_iff] at sent
      rw [sent, List.take_zero]
      rfl
    | succ k =>
      rw [List.map_cons, List.take_succ_cons] at sent
      obtain ⟨packet, others, rfl, made, later⟩ := List.map_eq_cons_iff.mp sent
      rw [List.filterMap_cons, each entry packet made.symm, List.take_succ_cons, List.map_cons]
      exact congrArg (told entry :: ·) (ih later)

/-- A series begins to send no more packets than it has. -/
theorem Series.begun {list : List (Except E P)} {e e' : MqttProtocolEngine H P E} {n : Nat}
    {r : Except (Halt MqttError) Unit} (series : Series list e n r e') : n ≤ list.length := by
  induction series with
  | done => exact Nat.le_refl 0
  | unmade => exact Nat.succ_le_succ (Nat.zero_le _)
  | stopped _ => exact Nat.succ_le_succ (Nat.zero_le _)
  | next _ _ ih => exact Nat.succ_le_succ ih

/-- A series that succeeds has sent all of its packets. -/
theorem Series.all {list : List (Except E P)} {e e' : MqttProtocolEngine H P E} {n : Nat}
    (series : Series list e n (.ok ()) e') : n = list.length := by
  generalize ended : (.ok () : Except (Halt MqttError) Unit) = r at series
  induction series with
  | done => rfl
  | unmade => cases ended
  | stopped _ => cases ended
  | next _ _ ih => rw [List.length_cons, ih ended]

/-- It has written them in order. -/
theorem Series.wrote {list : List (Except E P)} {e e' : MqttProtocolEngine H P E} {n : Nat}
    (series : Series list e n (.ok ()) e') : ∃ packets events, list = packets.map .ok ∧ e'.log = e.log ++ events ∧
      Wrote packets events := by
  generalize ended : (.ok () : Except (Halt MqttError) Unit) = r at series
  induction series with
  | done => exact ⟨[], [], rfl, (List.append_nil _).symm, Wrote.nil⟩
  | unmade => cases ended
  | stopped _ => cases ended
  | @next _ _ _ packet _ _ _ departs _ ih =>
    obtain ⟨events, log, wrote⟩ := departs.wrote
    obtain ⟨packets, more, rfl, log', wrote'⟩ := ih ended
    exact ⟨packet :: packets, events ++ more, rfl, by rw [log', log, List.append_assoc], wrote.append wrote'⟩

/-- Over a transport that works a series fails only if a packet cannot be made or encoded. -/
theorem Series.flows {list : List (Except E P)} {e e' : MqttProtocolEngine H P E} {n : Nat}
    {r : Except (Halt MqttError) Unit} (series : Series list e n r e') (flows : Flows e) : Flows e' ∧
      ((∀ made ∈ list, ∃ packet bytes, made = .ok packet ∧ encode_packet e.handler packet = .ok bytes) → r = .ok ()) := by
  induction series with
  | done => exact ⟨flows, fun _ => rfl⟩
  | unmade =>
    refine ⟨flows, fun sendable => ?_⟩
    obtain ⟨_, _, made, -⟩ := sendable _ List.mem_cons_self
    cases made
  | stopped departs =>
    obtain ⟨flows', fails⟩ := departs.flows flows
    refine ⟨flows', fun sendable => ?_⟩
    obtain ⟨packet, bytes, made, encodes⟩ := sendable _ List.mem_cons_self
    obtain ⟨err, failed⟩ := fails _ rfl
    cases made
    cases encodes.symm.trans failed
  | next departs _ ih =>
    obtain ⟨flows'', ends⟩ := ih (departs.flows flows).1
    refine ⟨flows'', fun sendable => ends fun made member => ?_⟩
    rw [departs.kept.handler]
    exact sendable made (List.mem_cons_of_mem _ member)

/-- Over a transport that works the PUBRELs that were sent were written, and the others were not; they
    fail only if one cannot be encoded. -/
theorem Paced.wrote {current_time : Nat} {pids sent : List Pid} {e e' : MqttProtocolEngine H P E}
    {r : Except (Halt MqttError) Unit} (paced : Paced current_time pids e sent r e') (flows : Flows e) :
    Flows e' ∧ (∃ packets events, sent.map (create_pubrel_packet e.handler) = packets.map .ok ∧
      e'.log = e.log ++ events ∧ Wrote packets events) ∧
    ((∀ pid packet, create_pubrel_packet e.handler pid = .ok packet → ∃ bytes, encode_packet e.handler packet = .ok bytes) →
      r = .ok ()) := by
  induction paced with
  | done => exact ⟨flows, ⟨[], [], rfl, (List.append_nil _).symm, Wrote.nil⟩, fun _ => rfl⟩
  | skipped _ _ ih => exact ih flows
  | stopped _ created departs =>
    obtain ⟨flows', fails⟩ := departs.flows flows
    obtain ⟨err, failed⟩ := fails _ rfl
    obtain ⟨-, rfl⟩ := departs.sent.unencoded_same failed
    refine ⟨flows, ⟨[], [], rfl, (List.append_nil _).symm, Wrote.nil⟩, fun encodes => ?_⟩
    obtain ⟨bytes, encoded⟩ := encodes _ _ created
    cases encoded.symm.trans failed
  | @next _ _ _ pid _ _ packet _ _ created departs _ ih =>
    obtain ⟨events, log, wrote⟩ := departs.wrote
    rw [departs.kept.handler] at ih
    obtain ⟨flows', ⟨packets, more, made, log', wrote'⟩, done⟩ := ih (departs.flows flows).1
    refine ⟨flows', ⟨packet :: packets, events ++ more, ?_, by rw [log', log, List.append_assoc], wrote.append wrote'⟩, done⟩
    rw [List.map_cons, List.map_cons, created, made]

/-! ### Time -/

omit [MqttProtocolHandler H P E] in
theorem ready_iff {current_time : Nat} (bounded : current_time < 2 ^ 64) (e : MqttProtocolEngine H P E) :
    Ready current_time e ↔ e.last_packet_sent_time + 1000 < current_time := by
  rw [Ready, Nat.min_def]
  split <;> omega

omit [MqttProtocolHandler H P E] in
theorem not_ready {current_time : Nat} (bounded : current_time < 2 ^ 64) {e : MqttProtocolEngine H P E}
    (recent : current_time ≤ e.last_packet_sent_time) : ¬ Ready current_time e := by
  rw [ready_iff bounded]
  omega

/-- If the clock does not show an earlier time, a packet that is sent is sent no earlier. -/
theorem Departs.recent {current_time : Nat} {packet : P} {e e' : MqttProtocolEngine H P E}
    (departs : Departs packet e (.ok ()) e') (clock : ∀ n, current_time ≤ e.world.now n) :
    current_time ≤ e'.last_packet_sent_time ∧ ∀ n, current_time ≤ e'.world.now n := by
  obtain ⟨-, last, now⟩ := departs.stamped rfl
  rw [last, now]
  exact ⟨clock 0, fun n => clock (n + 1)⟩

/-- A series that has sent a packet has sent it no earlier. -/
theorem Series.recent {current_time : Nat} {list : List (Except E P)} {e e' : MqttProtocolEngine H P E} {n : Nat}
    (series : Series list e n (.ok ()) e') (clock : ∀ n, current_time ≤ e.world.now n) :
    (∀ n, current_time ≤ e'.world.now n) ∧ (list = [] ∧ e' = e ∨ current_time ≤ e'.last_packet_sent_time) := by
  generalize ended : (.ok () : Except (Halt MqttError) Unit) = r at series
  induction series with
  | done => exact ⟨clock, .inl ⟨rfl, rfl⟩⟩
  | unmade => cases ended
  | stopped _ => cases ended
  | next departs _ ih =>
    obtain ⟨sent, clock'⟩ := departs.recent clock
    obtain ⟨clock'', last⟩ := ih clock' ended
    refine ⟨clock'', .inr ?_⟩
    rcases last with ⟨-, rfl⟩ | recent
    · exact sent
    · exact recent

/-- An engine that has sent a packet since then sends no PUBREL. -/
theorem Paced.none {current_time : Nat} (bounded : current_time < 2 ^ 64) {pids sent : List Pid}
    {e e' : MqttProtocolEngine H P E} {r : Except (Halt MqttError) Unit} (paced : Paced current_time pids e sent r e')
    (recent : current_time ≤ e.last_packet_sent_time) : sent = [] := by
  induction paced with
  | done => rfl
  | skipped _ _ ih => exact ih recent
  | stopped _ _ _ => rfl
  | next ready _ _ _ _ => exact absurd ready (not_ready bounded recent)

/-- One PUBREL at most is sent, and only if more than a second has passed. -/
theorem Paced.once {current_time : Nat} (bounded : current_time < 2 ^ 64) {pids sent : List Pid}
    {e e' : MqttProtocolEngine H P E} {r : Except (Halt MqttError) Unit} (paced : Paced current_time pids e sent r e')
    (clock : ∀ n, current_time ≤ e.world.now n) :
    sent = [] ∨ (∃ pid ∈ pids, sent = [pid]) ∧ e.last_packet_sent_time + 1000 < current_time := by
  induction paced with
  | done => exact .inl rfl
  | skipped _ _ ih =>
    refine (ih clock).imp_right fun one => ⟨?_, one.2⟩
    obtain ⟨pid, member, alone⟩ := one.1
    exact ⟨pid, List.mem_cons_of_mem _ member, alone⟩
  | stopped _ _ _ => exact .inl rfl
  | @next _ _ _ pid rest sent _ _ ready _ departs paced _ =>
    refine .inr ⟨⟨pid, List.mem_cons_self, ?_⟩, (ready_iff bounded _).mp ready⟩
    rw [paced.none bounded (departs.recent clock).1]

/-! ### Resuming -/

/-- Sending the pending messages again is a series of their retransmissions. -/
theorem resend_series (entries : List (Pid × InflightMessage)) {c : MqttClient H P E} (idle : c.Idle) :
    wp (entries.forM MqttClient.resend) c fun r c' => c' = { c with protocol_engine := c'.protocol_engine } ∧
      ∃ n, Series (entries.map (again c.protocol_engine.handler)) c.protocol_engine n r c'.protocol_engine := by
  induction entries generalizing c with
  | nil => exact ⟨rfl, 0, .done⟩
  | cons entry rest ih =>
    change wp (MqttClient.resend entry >>= fun _ => rest.forM MqttClient.resend) c _
    rw [wp_bind, MqttClient.resend, wp_bind, wp_get, List.map_cons]
    change wp (Effect.ofExcept (into H) (again c.protocol_engine.handler entry) >>= _) c _
    cases created : again c.protocol_engine.handler entry with
    | error err => exact ⟨rfl, 1, .unmade⟩
    | ok packet =>
      rw [ofExcept_ok, pure_bind, wp_zoom]
      refine wp_mono (send_packet_departs packet idle) fun r e departs => ?_
      cases r with
      | error halt => exact ⟨rfl, 1, .stopped departs⟩
      | ok _ =>
        refine wp_mono (ih (c := engine.set e c) (departs.kept.idle idle)) fun r c' outcome => ?_
        obtain ⟨same, n, series⟩ := outcome
        change Series (rest.map (again e.handler)) e n r _ at series
        rw [departs.kept.handler] at series
        exact ⟨same, n + 1, .next departs series⟩

/-! ### Retrying -/

omit [MqttProtocolHandler H P E] in
/-- Giving up messages empties their places in the table. -/
theorem drop_loop (pids : List Pid) (e : MqttProtocolEngine H P E) (s : InMemorySession) :
    wp (pids.forM fun pid => do
      let _ ← onSession (SessionState.complete_outgoing_publish pid)) (e, s) fun r st => r = .ok () ∧ st.1 = e ∧
        (∀ pid, st.2.pending_publishes.lookup pid = if pid ∈ pids then none else s.pending_publishes.lookup pid) ∧
          others st.2 = others s := by
  induction pids generalizing s with
  | nil => exact ⟨rfl, rfl, fun _ => rfl, rfl⟩
  | cons pid rest ih =>
    let drop : Pid → SessionM H P E Unit := fun pid => do
      let _ ← onSession (SessionState.complete_outgoing_publish pid)
    change wp (drop pid >>= fun _ => rest.forM drop) (e, s) _
    have dropped : exec (drop pid) (e, s) = (.ok (), e, (SessionState.complete_outgoing_publish pid s).2) := rfl
    rw [wp_bind, wp, dropped]
    refine wp_mono (ih (SessionState.complete_outgoing_publish pid s).2) fun r st outcome => ?_
    obtain ⟨done, same, lookup, kept⟩ := outcome
    refine ⟨done, same, fun other => ?_, kept⟩
    rw [lookup other, SessionState.complete_outgoing_publish, lookup_erase_if]
    by_cases here : other = pid
    · simp [here]
    · simp [here]

/-- A message that is due is counted, and then sent again. -/
theorem retry_publish_spec (current_time : Nat) {pid : Pid} {message : InflightMessage} {e : MqttProtocolEngine H P E}
    (idle : e.write_queue = []) {s : InMemorySession} (stored : s.pending_publishes.lookup pid = some message) :
    wp (MqttProtocolEngine.retry_publish current_time pid) (e, s) fun r st =>
      st.2 = count current_time s (pid, message) ∧ match again e.handler (pid, message) with
        | .error err => r = .error (.err (into H err)) ∧ st.1 = e
        | .ok packet => Departs packet e r st.1 := by
  rw [MqttProtocolEngine.retry_publish, wp_bind, wp_get]
  simp only [SessionState.get_outgoing_publish_mut, stored, Option.map_some]
  rw [wp_bind, MqttProtocolEngine.onSession, wp_ofExec]
  change wp (Effect.ofExcept (into H) (again e.handler (pid, message)) >>= _) _ _
  cases created : again e.handler (pid, message) with
  | error err => exact ⟨rfl, rfl, rfl⟩
  | ok packet =>
    rw [ofExcept_ok, pure_bind, wp_zoom]
    exact wp_mono (send_packet_departs packet idle) fun r e' departs => ⟨rfl, departs⟩

/-- The loop over the messages that are due. -/
theorem retry_loop (current_time : Nat) (entries : List (Pid × InflightMessage)) (nodup : (entries.map Prod.fst).Nodup)
    {e : MqttProtocolEngine H P E} (idle : e.write_queue = []) {s : InMemorySession}
    (stored : ∀ entry ∈ entries, s.pending_publishes.lookup entry.1 = some entry.2) :
    wp ((entries.map Prod.fst).forM (MqttProtocolEngine.retry_publish current_time)) (e, s) fun r st =>
      ∃ n, Series (entries.map (again e.handler)) e n r st.1 ∧ st.2 = (entries.take n).foldl (count current_time) s := by
  induction entries generalizing e s with
  | nil => exact ⟨0, .done, rfl⟩
  | cons entry rest ih =>
    obtain ⟨fresh, nodup⟩ := List.nodup_cons.mp nodup
    change wp (MqttProtocolEngine.retry_publish current_time entry.1 >>= fun _ =>
      (rest.map Prod.fst).forM (MqttProtocolEngine.retry_publish current_time)) (e, s) _
    rw [wp_bind]
    refine wp_mono (retry_publish_spec current_time idle (stored entry List.mem_cons_self)) fun r st outcome => ?_
    obtain ⟨e', s'⟩ := st
    obtain ⟨rfl, sent⟩ := outcome
    rw [List.map_cons]
    cases created : again e.handler entry with
    | error err =>
      rw [show again e.handler (entry.1, entry.2) = .error err from created] at sent
      obtain ⟨rfl, rfl⟩ := sent
      exact ⟨1, .unmade, rfl⟩
    | ok packet =>
      rw [show again e.handler (entry.1, entry.2) = .ok packet from created] at sent
      cases r with
      | error halt => exact ⟨1, .stopped sent, rfl⟩
      | ok _ =>
        -- The other entries are where they were.
        have others : ∀ other ∈ rest, (count current_time s entry).pending_publishes.lookup other.1 = some other.2 := by
          intro other member
          refine (AList.lookup_insert_ne ?_).trans (stored other (List.mem_cons_of_mem _ member))
          exact fun same => fresh (same ▸ List.mem_map_of_mem member)
        refine wp_mono (ih nodup (sent.kept.idle idle) others) fun r st later => ?_
        obtain ⟨n, series, session⟩ := later
        rw [sent.kept.handler] at series
        exact ⟨n + 1, .next sent series, session⟩

/-- Counting entries changes what is stored under their identifiers, and nothing else. -/
theorem count_lookup (current_time : Nat) (entries : List (Pid × InflightMessage)) (nodup : (entries.map Prod.fst).Nodup)
    {s : InMemorySession} (stored : ∀ entry ∈ entries, s.pending_publishes.lookup entry.1 = some entry.2) :
    (∀ pid, (entries.foldl (count current_time) s).pending_publishes.lookup pid =
      if pid ∈ entries.map Prod.fst then (s.pending_publishes.lookup pid).map (counted current_time)
      else s.pending_publishes.lookup pid) ∧
    others (entries.foldl (count current_time) s) = others s := by
  induction entries generalizing s with
  | nil => exact ⟨fun _ => by simp, rfl⟩
  | cons entry rest ih =>
    obtain ⟨fresh, nodup⟩ := List.nodup_cons.mp nodup
    have others : ∀ other ∈ rest, (count current_time s entry).pending_publishes.lookup other.1 = some other.2 := by
      intro other member
      refine (AList.lookup_insert_ne ?_).trans (stored other (List.mem_cons_of_mem _ member))
      exact fun same => fresh (same ▸ List.mem_map_of_mem member)
    obtain ⟨lookup, kept⟩ := ih nodup others
    rw [List.foldl_cons]
    refine ⟨fun pid => ?_, kept⟩
    rw [lookup pid, count, lookup_insert_if, List.map_cons]
    by_cases here : pid = entry.1
    · subst here
      simp only [fresh, if_false, if_true, List.mem_cons, true_or, stored entry List.mem_cons_self, Option.map_some]
    · simp only [here, if_false, List.mem_cons, false_or]

variable [LawfulHandler H P E]

omit [LawfulHandler H P E] in
/-- The loop over the PUBRELs, if they can be made. -/
theorem pubrel_loop (current_time : Nat) (pids : List Pid) {e : MqttProtocolEngine H P E} (idle : e.write_queue = [])
    (made : ∀ pid, ∃ packet, create_pubrel_packet e.handler pid = .ok packet) (s : InMemorySession) :
    wp (pids.forM (MqttProtocolEngine.retry_pubrel current_time)) (e, s) fun r st => st.2 = s ∧
      ∃ sent, Paced current_time pids e sent r st.1 := by
  induction pids generalizing e with
  | nil => exact ⟨rfl, [], .done⟩
  | cons pid rest ih =>
    change wp (MqttProtocolEngine.retry_pubrel current_time pid >>= fun _ =>
      rest.forM (MqttProtocolEngine.retry_pubrel current_time)) (e, s) _
    obtain ⟨packet, created⟩ := made pid
    rw [wp_bind, MqttProtocolEngine.retry_pubrel, wp_bind, wp_get]
    simp only [created, ofExcept_ok, pure_bind]
    by_cases ready : Ready current_time e
    · rw [if_pos (by exact ready), wp_zoom]
      refine wp_mono (send_packet_departs packet idle) fun r e' departs => ?_
      cases r with
      | error halt => exact ⟨rfl, [], .stopped ready created departs⟩
      | ok _ =>
        have made' : ∀ pid, ∃ packet, create_pubrel_packet e'.handler pid = .ok packet := by
          rw [departs.kept.handler]
          exact made
        refine wp_mono (ih (departs.kept.idle idle) made') fun r st outcome => ?_
        obtain ⟨same, sent, paced⟩ := outcome
        exact ⟨same, pid :: sent, .next ready created departs paced⟩
    · rw [if_neg (by exact ready), wp_pure]
      refine wp_mono (ih idle made) fun r st outcome => ?_
      obtain ⟨same, sent, paced⟩ := outcome
      exact ⟨same, sent, .skipped ready paced⟩

/-- How `handle_retries` ends: a retransmission has failed, or all have been sent and the
    PUBRELs are paced. -/
inductive Handles (current_time : Nat) (e : MqttProtocolEngine H P E) (s : InMemorySession) :
    Except (Halt MqttError) Unit → MqttProtocolEngine H P E → InMemorySession → Prop where
  | stopped {n : Nat} {halt : Halt MqttError} {e' : MqttProtocolEngine H P E} {s' : InMemorySession} :
      Series ((due current_time e.world.order s).map (again e.handler)) e n (.error halt) e' →
      Counted current_time ((due current_time e.world.order s).take n) s s' →
      Handles current_time e s (.error halt) e' s'
  | paced {e₁ e' : MqttProtocolEngine H P E} {s' : InMemorySession} {sent : List Pid} {r : Except (Halt MqttError) Unit} :
      Series ((due current_time e.world.order s).map (again e.handler)) e (due current_time e.world.order s).length
        (.ok ()) e₁ →
      Counted current_time (due current_time e.world.order s) s s' →
      Paced current_time (releases e.world.order s) e₁ sent r e' →
      Handles current_time e s r e' s'

omit [LawfulHandler H P E] in
theorem Handles.kept {current_time : Nat} {e e' : MqttProtocolEngine H P E} {s s' : InMemorySession}
    {r : Except (Halt MqttError) Unit} (handles : Handles current_time e s r e' s') : Kept e e' := by
  cases handles with
  | stopped series _ => exact series.kept
  | paced series _ paced => exact series.kept.trans paced.kept

/-- Of the messages that are due the first `n` were counted, the first `k` were handed over, and then some PUBRELs. -/
structure Handed (current_time : Nat) (e : MqttProtocolEngine H P E) (s : InMemorySession)
    (r : Except (Halt MqttError) Unit) (e' : MqttProtocolEngine H P E) (s' : InMemorySession) (k n : Nat)
    (events : List (Event P)) : Prop where
  log : e'.log = e.log ++ events
  unstored : ∀ pid, .accepted pid ∉ events
  sent : ∃ packets pubrels, packets_sent events = packets ++ pubrels ∧
    packets.map .ok = ((due current_time e.world.order s).map (again e.handler)).take k ∧
    ∀ packet ∈ pubrels, ∃ pid, create_pubrel_packet e.handler pid = .ok packet
  less : k ≤ n
  most : n ≤ k + 1
  begun : n ≤ (due current_time e.world.order s).length
  ended : r = .ok () → (due current_time e.world.order s).length ≤ k
  falters : k = n ↔ ¬ Falters e.handler e.world.write e.world.flush
    ((due current_time e.world.order s).map (again e.handler))
  counts : Counted current_time ((due current_time e.world.order s).take n) s s'

omit [LawfulHandler H P E] in
theorem Handles.handed {current_time : Nat} {e e' : MqttProtocolEngine H P E} {s s' : InMemorySession}
    {r : Except (Halt MqttError) Unit} (handles : Handles current_time e s r e' s') :
    ∃ k n events, Handed current_time e s r e' s' k n events := by
  cases handles with
  | stopped series counts =>
    obtain ⟨k, events, log, none, sent, less, most, -, falters⟩ := series.part
    have begun := series.begun
    rw [List.length_map] at begun
    refine ⟨k, _, events, log, none, ⟨_, [], (List.append_nil _).symm, sent, by simp⟩, less, most, begun, ?_, falters, counts⟩
    intro returned
    cases returned
  | paced series counts paced =>
    obtain ⟨k, events, log, none, sent, less, most, ended, falters⟩ := series.part
    obtain ⟨more, log', none', pubrels⟩ := paced.part
    rw [series.kept.handler] at pubrels
    refine ⟨k, _, events ++ more, ?_, ?_, ⟨packets_sent events, packets_sent more, ?_, sent, pubrels⟩, less, most,
      Nat.le_refl _, fun _ => Nat.le_of_eq (ended rfl).symm, falters, ?_⟩
    · rw [log', log, List.append_assoc]
    · exact fun pid member => (List.mem_append.mp member).elim (none pid) (none' pid)
    · exact List.filterMap_append
    · rw [List.take_length]
      exact counts

omit [LawfulHandler H P E] in
/-- What the packets tell that a pass has sent, if the PUBRELs tell nothing. -/
theorem Handed.told {current_time k n : Nat} {e e' : MqttProtocolEngine H P E} {s s' : InMemorySession}
    {r : Except (Halt MqttError) Unit} {events : List (Event P)} (handed : Handed current_time e s r e' s' k n events)
    {β : Type} {tell : P → Option β} {told : Pid × InflightMessage → β}
    (each : ∀ entry packet, again e.handler entry = .ok packet → tell packet = some (told entry))
    (silent : ∀ pid packet, create_pubrel_packet e.handler pid = .ok packet → tell packet = none) :
    (packets_sent events).filterMap tell = ((due current_time e.world.order s).take k).map told := by
  obtain ⟨packets, pubrels, whole, sent, released⟩ := handed.sent
  have quiet : pubrels.filterMap tell = [] := by
    refine List.filterMap_eq_nil_iff.mpr fun packet member => ?_
    obtain ⟨pid, created⟩ := released packet member
    exact silent pid packet created
  rw [whole, List.filterMap_append, filterMap_made each sent, quiet, List.append_nil]

theorem due_nodup (current_time : Nat) (order : IterOrder Pid) (s : InMemorySession) :
    ((due current_time order s).map Prod.fst).Nodup :=
  (List.filter_sublist.map Prod.fst).nodup (iter_nodup order s.pending_publishes)

theorem mem_due {current_time : Nat} {order : IterOrder Pid} {s : InMemorySession} {pid : Pid} {message : InflightMessage} :
    (pid, message) ∈ due current_time order s ↔
      s.pending_publishes.lookup pid = some message ∧ retries current_time message = true := by
  rw [due, List.mem_filter, SessionState.pending_outgoing_publishes, mem_iter]

theorem mem_pubrels {order : IterOrder Pid} {s : InMemorySession} {pid : Pid} :
    pid ∈ SessionState.pending_outgoing_pubrels order s ↔ pid ∈ s.pending_pubrels := by
  rw [SessionState.pending_outgoing_pubrels, iter_keys, (order.perm _).mem_iff, AList.mem_keys]

theorem handle_retries_spec (current_time : Nat) {e : MqttProtocolEngine H P E} (idle : e.write_queue = [])
    (s : InMemorySession) : wp (MqttProtocolEngine.handle_retries current_time) (e, s) fun r st =>
      Handles current_time e s r st.1 st.2 := by
  rw [MqttProtocolEngine.handle_retries, wp_bind, wp_get]
  simp only []
  generalize listed : ((SessionState.pending_outgoing_publishes e.world.order s).filter fun entry =>
    drops current_time entry.2).map Prod.fst = to_drop
  have given_up : ∀ pid, pid ∈ to_drop ↔ ∃ message, s.pending_publishes.lookup pid = some message ∧
      drops current_time message = true := by
    intro pid
    rw [← listed, List.mem_map]
    constructor
    · rintro ⟨⟨_, message⟩, member, rfl⟩
      obtain ⟨pending, dropping⟩ := List.mem_filter.mp member
      exact ⟨message, mem_iter.mp pending, dropping⟩
    · rintro ⟨message, stored, dropping⟩
      exact ⟨(pid, message), List.mem_filter.mpr ⟨mem_iter.mpr stored, dropping⟩, rfl⟩
  rw [wp_bind]
  refine wp_mono (drop_loop to_drop e s) fun r st dropped => ?_
  obtain ⟨e₀, s₁⟩ := st
  obtain ⟨rfl, same, lookup, kept⟩ := dropped
  obtain rfl := same.symm
  -- An entry that is due is not given up.
  have stored : ∀ entry ∈ due current_time e.world.order s, s₁.pending_publishes.lookup entry.1 = some entry.2 := by
    intro entry member
    obtain ⟨found, due⟩ := mem_due.mp (show (entry.1, entry.2) ∈ _ from member)
    rw [lookup, if_neg, found]
    rw [given_up]
    rintro ⟨message, found', dropping⟩
    cases found.symm.trans found'
    rw [drops, due] at dropping
    cases dropping
  change wp (((due current_time e.world.order s).map Prod.fst).forM (MqttProtocolEngine.retry_publish current_time) >>= _) _ _
  rw [wp_bind]
  refine wp_mono (retry_loop current_time _ (due_nodup ..) idle stored) fun r st outcome => ?_
  obtain ⟨e₁, s₂⟩ := st
  obtain ⟨n, series, rfl⟩ := outcome
  have part : ∀ entry ∈ (due current_time e.world.order s).take n, s₁.pending_publishes.lookup entry.1 = some entry.2 :=
    fun entry member => stored entry (List.mem_of_mem_take member)
  have nodup : (((due current_time e.world.order s).take n).map Prod.fst).Nodup :=
    ((List.take_sublist _ _).map Prod.fst).nodup (due_nodup ..)
  obtain ⟨after, rest⟩ := count_lookup current_time _ nodup part
  have session : Counted current_time ((due current_time e.world.order s).take n) s
      (((due current_time e.world.order s).take n).foldl (count current_time) s₁) := by
    constructor
    · intro pid
      rw [after, lookup]
      cases found : s.pending_publishes.lookup pid with
      | none => simp
      | some message =>
        have dropping : pid ∈ to_drop ↔ drops current_time message = true := by
          rw [given_up, found]
          simp
        by_cases gone : drops current_time message = true
        · simp [dropping.mpr gone, gone]
        · simp [mt dropping.mp gone, gone]
    · exact rest.trans kept
  cases r with
  | error halt => exact .stopped series session
  | ok _ =>
    obtain rfl := series.all
    rw [List.length_map] at series session ⊢
    rw [List.take_length] at session ⊢
    dsimp only
    rw [wp_bind, wp_get]
    generalize (due current_time e.world.order s).foldl (count current_time) s₁ = s₂ at session ⊢
    have same : releases e₁.world.order s₂ = releases e.world.order s := by
      rw [releases, releases, series.kept.order, SessionState.pending_outgoing_pubrels, SessionState.pending_outgoing_pubrels,
        show s₂.pending_pubrels = s.pending_pubrels from congrArg (·.2.1) session.rest]
    change wp ((releases e₁.world.order s₂).forM (MqttProtocolEngine.retry_pubrel current_time)) (e₁, s₂) _
    rw [same]
    refine wp_mono (pubrel_loop current_time _ (series.kept.idle idle) (fun pid => ?_) s₂) fun r st outcome => ?_
    · obtain ⟨packet, created, -⟩ := LawfulHandler.pubrel e₁.handler pid
      exact ⟨packet, created⟩
    · obtain ⟨e', s'⟩ := st
      obtain ⟨rfl, sent, paced⟩ := outcome
      exact .paced series session paced

end

end Masaka.Retries
