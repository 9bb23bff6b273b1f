import Masaka.Attempts
import Masaka.ConnectResult
import Masaka.ReceiveQueue

/-!
What the operations do to the state of a client that is kept outside its session. It is
a list of updates, each of which increments some of the counters. Connecting, disconnecting,
polling, publishing and taking a message out each have their own lists; whatever else a
client does leaves its state.
-/
namespace Masaka.Updates
open Effect Runs MqttProtocolHandler MqttProtocolEngine Sending Flags ConnectResult
open MqttClient (engine engineSession)
open ReceiveQueue (QueueOp)
open Attempts (turned_on)

/-! ### Counters -/

inductive Counter where
  | messages_sent
  | messages_received
  | publishes_sent
  | publishes_received
  | connect_count
  | disconnect_count
  | reconnect_count
  | error_count
  deriving DecidableEq

/-- What a counter shows. -/
def Counter.value (stats : ClientStats) : Counter → UInt32
  | .messages_sent => stats.messages_sent
  | .messages_received => stats.messages_received
  | .publishes_sent => stats.publishes_sent
  | .publishes_received => stats.publishes_received
  | .connect_count => stats.connect_count
  | .disconnect_count => stats.disconnect_count
  | .reconnect_count => stats.reconnect_count
  | .error_count => stats.error_count

/-- What is done to the state of a client. -/
inductive Update where
  | enter (new : ConnectionState)
  | queue (op : QueueOp)
  | sent

def Update.apply (state : ClientState) : Update → ClientState
  | .enter new => state.set_connection_state new
  | .queue op => ReceiveQueue.step state op
  | .sent => state.record_message_sent

/-- The counters of a change of the connection state. -/
def changed : ConnectionState → ConnectionState → List Counter
  | .Connecting, .Connected => [.connect_count]
  | .Connected, .Disconnected => [.disconnect_count, .reconnect_count]
  | _, .Disconnected => [.disconnect_count]
  | _, .Error => [.error_count]
  | _, _ => []

/-- The counters that an update increments. -/
def Update.counted (state : ClientState) : Update → List Counter
  | .enter new => changed state.connection_state new
  | .queue (.add _) => [.messages_received, .publishes_received]
  | .queue .pop => []
  | .sent => [.messages_sent, .publishes_sent]

/-- An update increments the counters it counts, and no others. -/
theorem apply_value (state : ClientState) (update : Update) (counter : Counter) :
    counter.value (update.apply state).stats =
      counter.value state.stats + .ofNat ((update.counted state).count counter) := by
  obtain ⟨old, messages, stats, capacity⟩ := state
  cases update with
  | enter new =>
    cases old <;> cases new <;> cases counter <;>
      simp [Update.apply, Update.counted, changed, Counter.value, ClientState.set_connection_state, ClientState.count_change]
  | queue op =>
    cases op <;> cases counter <;>
      simp [Update.apply, Update.counted, Counter.value, ReceiveQueue.step, ClientState.add_received_message,
        ClientState.pop_received_message]
  | sent =>
    cases counter <;> simp [Update.apply, Update.counted, Counter.value, ClientState.record_message_sent]

/-- What a list of updates counts. -/
def counted (state : ClientState) (updates : List Update) : List Counter :=
  gather Update.apply Update.counted state updates

@[simp] theorem counted_nil (state : ClientState) : counted state [] = [] := rfl
@[simp] theorem counted_cons (state : ClientState) (update : Update) (updates : List Update) :
    counted state (update :: updates) = update.counted state ++ counted (update.apply state) updates := rfl

theorem run_value (state : ClientState) (updates : List Update) (counter : Counter) :
    counter.value (run Update.apply state updates).stats =
      counter.value state.stats + .ofNat ((counted state updates).count counter) := by
  induction updates generalizing state with
  | nil => simp
  | cons update updates ih =>
    rw [run_cons, ih, apply_value, counted_cons, List.count_append, UInt32.ofNat_add, UInt32.add_assoc]

/-- A counter that has room for another count does not overflow, whatever counts each counter once. -/
theorem run_rises {state : ClientState} {updates : List Update} {counter : Counter}
    (once : (counted state updates).Nodup)
    (room : counter ∈ counted state updates → (counter.value state.stats).toNat + 1 < 2 ^ 32) :
    (counter.value (run Update.apply state updates).stats).toNat =
      (counter.value state.stats).toNat + (counted state updates).count counter := by
  rw [run_value, UInt32.toNat_add]
  by_cases member : counter ∈ counted state updates
  · have fits := room member
    rw [List.count_eq_one_of_mem once member]
    exact Nat.mod_eq_of_lt fits
  · rw [List.count_eq_zero_of_not_mem member]
    exact Nat.mod_eq_of_lt (UInt32.toNat_lt _)

@[simp] theorem apply_enter (new : ConnectionState) (state : ClientState) :
    (Update.enter new).apply state = state.set_connection_state new := rfl
@[simp] theorem apply_queue (op : QueueOp) (state : ClientState) :
    (Update.queue op).apply state = ReceiveQueue.step state op := rfl
@[simp] theorem apply_sent (state : ClientState) : Update.sent.apply state = state.record_message_sent := rfl
@[simp] theorem counted_enter (state : ClientState) (new : ConnectionState) :
    (Update.enter new).counted state = changed state.connection_state new := rfl
@[simp] theorem counted_add (state : ClientState) (message : ReceivedMessage) :
    (Update.queue (.add message)).counted state = [.messages_received, .publishes_received] := rfl
@[simp] theorem counted_pop (state : ClientState) : (Update.queue .pop).counted state = [] := rfl
@[simp] theorem counted_sent (state : ClientState) : Update.sent.counted state = [.messages_sent, .publishes_sent] := rfl
@[simp] theorem changed_connecting (old : ConnectionState) : changed old .Connecting = [] := by cases old <;> rfl
@[simp] theorem changed_disconnecting (old : ConnectionState) : changed old .Disconnecting = [] := by cases old <;> rfl
@[simp] theorem changed_error (old : ConnectionState) : changed old .Error = [.error_count] := by cases old <;> rfl
@[simp] theorem changed_disconnected (old : ConnectionState) : changed old .Disconnected =
    .disconnect_count :: if old = .Connected then [.reconnect_count] else [] := by cases old <;> rfl

/-- The messages put in the queue. -/
def adds (ops : List QueueOp) : Nat := ops.countP fun
  | .add _ => true
  | .pop => false

/-- What the receive queue of a client holds and may hold. -/
def contents (state : ClientState) : List ReceivedMessage × Nat := (state.received_messages, state.msg_capacity)

@[simp] theorem contents_enter (new : ConnectionState) (state : ClientState) :
    contents (state.set_connection_state new) = contents state := rfl
@[simp] theorem contents_sent (state : ClientState) : contents state.record_message_sent = contents state := rfl

theorem adds_append (ops more : List QueueOp) : adds (ops ++ more) = adds ops + adds more := List.countP_append

/-- The operations of the queue do not look at the rest of the state. -/
theorem contents_run {state other : ClientState} (same : contents state = contents other) (ops : List QueueOp) :
    contents (run ReceiveQueue.step state ops) = contents (run ReceiveQueue.step other ops) := by
  induction ops generalizing state other with
  | nil => exact same
  | cons op ops ih =>
    obtain ⟨messages, capacity⟩ := Prod.mk.inj same
    refine ih ?_
    cases op with
    | add message => simp [contents, ReceiveQueue.step, ClientState.add_received_message, messages, capacity]
    | pop => simp [contents, ReceiveQueue.step, ClientState.pop_received_message, messages, capacity]

/-- What a list of updates comes to: the counters it may count, the CONNECTs, messages sent and
    operations of the queue it records, and whether the client is disconnected by it. -/
structure Summary (state : ClientState) (accepts : Bool) (allowed : List Counter) (sent : Nat) (ops : List QueueOp)
    (updates : List Update) : Prop where
  once : (counted state updates).Nodup
  allowed : ∀ counter ∈ counted state updates, counter ∈ allowed
  connects : (counted state updates).count .connect_count = accepts.toNat
  sent : (counted state updates).count .publishes_sent = sent
  received : (counted state updates).count .publishes_received = adds ops
  disconnects : (counted state updates).count .disconnect_count =
    if state.connection_state ≠ .Disconnected ∧ (run Update.apply state updates).connection_state = .Disconnected then 1
    else 0
  contents : contents (run Update.apply state updates) = contents (run ReceiveQueue.step state ops)
  entered : accepts = true → (run Update.apply state updates).connection_state = .Connected

/-! ### What is done to the state -/

section
variable {H P E α : Type}

/-- The state of the client is as before. -/
def Untouched (c c' : MqttClient H P E) : Prop := c'.state = c.state

instance : Std.Refl (Untouched (H := H) (P := P) (E := E)) := ⟨fun _ => rfl⟩
instance : IsTrans (MqttClient H P E) Untouched := ⟨fun _ _ _ first second => second.trans first⟩

/-- What the engine does leaves the state of the client. -/
theorem inEngine (m : EngineM H P E α) : Moves Untouched (zoom engine m) := fun _ => rfl
theorem inSession (m : SessionM H P E α) : Moves Untouched (zoom engineSession m) := fun _ => rfl

theorem whenConnected {request : ClientM H P E Unit} (untouched : Moves Untouched request) :
    Moves Untouched (MqttClient.whenConnected request) :=
  Moves.get.bind fun _ => Moves.ite (fun _ => Moves.fail _) fun _ => untouched

/-- The updates lead from the state of one client to that of another. -/
def Leads (c c' : MqttClient H P E) (updates : List Update) : Prop := c'.state = run Update.apply c.state updates

/-- One more update. -/
theorem Leads.then {c c₁ c' : MqttClient H P E} {updates : List Update} (leads : Leads c c₁ updates) {update : Update}
    (applied : c'.state = update.apply c₁.state) : Leads c c' (updates ++ [update]) := by
  rw [Leads, run_append, ← leads, applied]
  rfl

theorem Untouched.then {c c₁ c' : MqttClient H P E} (untouched : Untouched c c₁) {update : Update}
    (applied : c'.state = update.apply c₁.state) : Leads c c' [update] := by
  have leads : Leads c c₁ [] := untouched
  exact leads.then applied

/-! ### The pending messages -/

/-- Every message can be sent again, one after another. -/
inductive Resends [MqttProtocolHandler H P E] (h : H) : Tape → (Nat → Answer Unit) → List (Pid × InflightMessage) →
    Prop where
  | done {tape : Tape} {flush : Nat → Answer Unit} : Resends h tape flush []
  | next {tape tape' : Tape} {flush : Nat → Answer Unit} {entry : Pid × InflightMessage}
      {rest : List (Pid × InflightMessage)} {packet : P} {bytes : VarBytes} {events : List (Event P)} :
      again h entry = .ok packet → encode_packet h packet = .ok bytes → Writes tape bytes events tape' →
      flush 0 = some (.ok ()) → Resends h tape' (flushed flush) rest → Resends h tape flush (entry :: rest)

variable [MqttProtocolHandler H P E]

theorem resends_all {h : H} {tape : Tape} {flush : Nat → Answer Unit} {entries : List (Pid × InflightMessage)}
    (resends : Resends h tape flush entries) {c : MqttClient H P E} (idle : c.Idle)
    (handler : c.protocol_engine.handler = h) (write : c.protocol_engine.world.write = tape)
    (flush' : c.protocol_engine.world.flush = flush) :
    wp (entries.forM MqttClient.resend) c fun r _ => r.isOk = true := by
  induction resends generalizing c with
  | done => rfl
  | @next tape tape' flush entry rest packet bytes events created encodes writes answer _ ih =>
    subst handler write flush'
    change wp (MqttClient.resend entry >>= fun _ => rest.forM MqttClient.resend) c _
    rw [wp_bind, MqttClient.resend, wp_bind, wp_get]
    change wp (Effect.ofExcept (into H) (again c.protocol_engine.handler entry) >>= _) c _
    rw [created, ofExcept_ok, pure_bind, wp_zoom]
    refine wp_mono (wp_and (send_packet_spec packet idle) (send_packet_flush packet idle)) fun r e outcome => ?_
    obtain ⟨sent, flush⟩ := outcome
    obtain rfl : r = .ok () := sent.succeeds_iff.mpr ⟨bytes, encodes, writes.takes, answer⟩
    refine ih (c := engine.set e c) (sent.idle idle) sent.frame.2.1 ?_ (flush rfl)
    cases sent with
    | encoded encodes' transmission _ =>
      cases encodes.symm.trans encodes'
      cases transmission with
      | complete writes' _ => exact writes_unique writes writes'

/-- If the broker accepts the CONNECT of the client and has its session, then every pending
    message can be sent again. -/
def Resumes (c : MqttClient H P E) : Prop :=
  c.config.validate = .ok () → c.protocol_engine.connected = false → c.config.clean_session = false →
    ∀ tape, Exchanges c.protocol_engine (connect_of c) true tape →
      Resends c.protocol_engine.handler tape (flushed c.protocol_engine.world.flush)
        (SessionState.pending_outgoing_publishes c.protocol_engine.world.order c.session_state)

/-! ### Connecting -/

theorem resending : Moves Untouched (MqttClient.resend_pending_messages : ClientM H P E Unit) := by
  refine Moves.get.bind fun c => Moves.forM (fun entry => ?_) _
  exact Moves.get.bind fun c => Moves.bind_ofExcept fun packet _ => inEngine _

/-- How a connect ends: whether it returns well, whether its CONNECT was accepted, and what it
    does to the client's state. -/
inductive Connecting (resumes : Prop) : Bool → Bool → List Update → Prop where
  | nothing : Connecting resumes false false []
  | dropped : Connecting resumes false false [.enter .Connecting]
  | failed : Connecting resumes false false [.enter .Connecting, .enter .Error]
  | accepted {ok : Bool} : (resumes → ok = true) → Connecting resumes ok true [.enter .Connecting, .enter .Connected]

/-- If the pending messages can be sent again, the result says whether the CONNECT was accepted. -/
theorem Connecting.agrees {resumes : Prop} {ok accepts : Bool} {updates : List Update}
    (connecting : Connecting resumes ok accepts updates) (holds : resumes) : ok = accepts := by
  cases connecting with
  | nothing => rfl
  | dropped => rfl
  | failed => rfl
  | accepted returns => exact returns holds

/-- A connect disconnects no client. -/
theorem Connecting.stays {resumes : Prop} {ok accepts : Bool} {updates : List Update}
    (connecting : Connecting resumes ok accepts updates) {state : ClientState}
    (running : state.connection_state ≠ .Disconnected) :
    (run Update.apply state updates).connection_state ≠ .Disconnected := by
  cases connecting with
  | nothing => exact running
  | dropped => simp
  | failed => simp
  | accepted _ => simp

theorem Connecting.summary {resumes : Prop} {ok accepts : Bool} {updates : List Update}
    (connecting : Connecting resumes ok accepts updates) (state : ClientState) :
    Summary state accepts [.connect_count, .error_count] 0 [] updates := by
  cases connecting with
  | nothing => constructor <;> simp [adds]
  | dropped => constructor <;> simp [adds]
  | failed => constructor <;> simp [adds]
  | accepted _ => constructor <;> simp [adds, changed]

/-- Once the CONNECT is accepted, a connect returns well if the pending messages can be sent again. -/
theorem resume_returns {c : MqttClient H P E} (valid : c.config.validate = .ok ())
    (free : c.protocol_engine.connected = false) {e : MqttProtocolEngine H P E} {session_present : Bool}
    (accepted : Accepted (Reconnect.beginning c).protocol_engine (connect_of c) session_present e) :
    wp (onlyIf (session_present && !c.config.clean_session) MqttClient.resend_pending_messages)
      (Reconnect.connecting e c) fun r _ => Resumes c → r.isOk = true := by
  by_cases resumes : session_present = true ∧ c.config.clean_session = false
  swap
  · have skipped : ¬ ((session_present && !c.config.clean_session) = true) := by simpa using resumes
    simp only [onlyIf, skipped]
    exact fun _ => rfl
  obtain ⟨rfl, kept⟩ := resumes
  have session : (Reconnect.beginning c).session_state = c.session_state := by simp [Reconnect.beginning, kept]
  have begun := Reconnect.beginning_engine c
  simp only [onlyIf, kept, Bool.not_false, Bool.and_self, if_true]
  rw [MqttClient.resend_pending_messages, wp_bind, wp_get]
  change wp ((SessionState.pending_outgoing_publishes e.world.order (Reconnect.beginning c).session_state).forM
    MqttClient.resend) _ _
  obtain ⟨exchange, queue, handler, flush, order⟩ := accepted
  rw [begun] at exchange handler flush order
  rw [session, order]
  by_cases resends : Resumes c
  · have all := resends valid free kept e.world.write ⟨exchange.sent, exchange.flushed, exchange.accepted⟩
    exact wp_mono (resends_all all (by exact queue) handler rfl flush) fun _ _ returned _ => returned
  · exact fun holds => absurd holds resends

theorem connect_updates {c : MqttClient H P E} (idle : c.Idle) : wp MqttClient.connect c fun r c' =>
    ∃ updates, Connecting (Resumes c) r.isOk (turned_on c c') updates ∧ Leads c c' updates := by
  refine Reconnect.connect_cases (fun _ err => ?_) (fun _ flag => ?_) fun valid free => ?_
  · rw [turned_on, Bool.not_and_self]
    exact ⟨[], .nothing, rfl⟩
  · rw [turned_on, flag]
    exact ⟨[.enter .Connecting, .enter .Error], .failed, rfl⟩
  have idle' : (Reconnect.beginning c).protocol_engine.write_queue = [] := (Reconnect.beginning_queue c).trans idle
  have free' : (Reconnect.beginning c).protocol_engine.connected = false := (Reconnect.beginning_connected c).trans free
  refine Reconnect.connect_seq valid (wp_and (connect_with_will_flag _ _ _ _ _ _ _ _ _ free')
    (handshake_spec _ _ _ _ _ _ _ _ _ idle' free')) (fun e err shook => ?_) (fun e action err shook other => ?_)
    (fun e shook => ?_) fun e session_present shook => ?_
  · refine ⟨[.enter .Connecting, .enter .Error], ?_, rfl⟩
    rw [turned_on, show e.connected = false from shook.1.1, Bool.and_false]
    exact .failed
  · obtain ⟨session_present, same, -⟩ := shook.2.1 action rfl
    exact absurd same (other session_present)
  · refine ⟨[.enter .Connecting], ?_, rfl⟩
    rw [turned_on, show e.connected = false from shook.1.1, Bool.and_false]
    exact .dropped
  have steady : Moves Steady (onlyIf (session_present && !c.config.clean_session) MqttClient.resend_pending_messages :
      ClientM H P E Unit) := Moves.onlyIf fun _ => steady_sweep.resend_pending_messages
  have untouched : Moves Untouched (onlyIf (session_present && !c.config.clean_session)
      MqttClient.resend_pending_messages : ClientM H P E Unit) := Moves.onlyIf fun _ => resending
  have accepted : Accepted (Reconnect.beginning c).protocol_engine (connect_of c) session_present e := by
    obtain ⟨present, same, accepted⟩ := shook.2.1 _ rfl
    cases same
    rw [Reconnect.beginning_engine] at accepted ⊢
    exact accepted
  refine wp_mono (wp_and (wp_and (steady.wp _) (untouched.wp _)) (resume_returns valid free accepted)) fun r c' outcome => ?_
  obtain ⟨⟨steady, untouched⟩, returns⟩ := outcome
  have up : c'.protocol_engine.connected = true := steady.engine.connected.trans shook.1.1
  refine ⟨[.enter .Connecting, .enter .Connected], ?_, untouched⟩
  rw [turned_on, free, up]
  exact .accepted returns

theorem reconnect_updates {c : MqttClient H P E} (idle : c.Idle) : wp MqttClient.reconnect c fun r c' =>
    ∃ updates, Connecting (Attempts c → Resumes c) r.isOk (turned_on c c') updates ∧ Leads c c' updates := by
  refine Reconnect.reconnect_seq (fun _ err => ?_) (fun interval => ?_) fun enabled remain elapsed interval => ?_
  · rw [turned_on, Bool.not_and_self]
    exact ⟨[], .nothing, rfl⟩
  · refine ⟨[], ?_, rfl⟩
    rw [turned_on, show (Reconnect.waited interval c).protocol_engine.connected = c.protocol_engine.connected from rfl,
      Bool.not_and_self]
    exact .nothing
  · refine wp_mono (connect_updates (c := Reconnect.waited interval c) idle) fun r c' outcome => ?_
    obtain ⟨updates, connecting, leads⟩ := outcome
    refine ⟨updates, ?_, leads⟩
    change Connecting _ r.isOk (turned_on c c') updates at connecting
    generalize r.isOk = ok, turned_on c c' = accepted at connecting
    cases connecting with
    | nothing => exact .nothing
    | dropped => exact .dropped
    | failed => exact .failed
    | accepted returns =>
      refine .accepted fun resumes => returns fun valid free kept tape exchange => ?_
      have attempts : Attempts c := ⟨enabled, remain, elapsed⟩
      exact resumes attempts valid free kept tape ⟨exchange.sent, exchange.flushed, exchange.accepted⟩

/-! ### Disconnecting -/

/-- What a disconnect does to the state of a client in the given connection state. -/
inductive Disconnecting (state : ConnectionState) : List Update → Prop where
  | nothing : Disconnecting state []
  | dropped : Disconnecting state [.enter .Disconnecting]
  | ended : state ≠ .Disconnected → Disconnecting state [.enter .Disconnecting, .enter .Disconnected]

theorem Disconnecting.summary {state : ClientState} {updates : List Update}
    (disconnecting : Disconnecting state.connection_state updates) :
    Summary state false [.disconnect_count] 0 [] updates := by
  cases disconnecting with
  | nothing => constructor <;> simp [adds]
  | dropped => constructor <;> simp [adds]
  | ended running => constructor <;> simp [adds, running]

theorem disconnect_updates {c : MqttClient H P E} (idle : c.Idle) : wp MqttClient.disconnect c fun _ c' =>
    ∃ updates, Disconnecting c.state.connection_state updates ∧ turned_on c c' = false ∧ Leads c c' updates := by
  by_cases gone : c.state.connection_state = .Disconnected
  · rw [wp, disconnect_over gone]
    exact ⟨[], .nothing, Bool.not_and_self _, rfl⟩
  have linked : c.protocol_engine.connected = true → ∀ c', turned_on c c' = false := by
    intro flag c'
    rw [turned_on, flag]
    rfl
  refine disconnect_seq idle gone (fun free => ?_) (fun flag e err sent => ?_) (fun flag e sent => ?_) fun flag e sent => ?_
  · exact ⟨_, .ended gone, Bool.not_and_self _, rfl⟩
  · exact ⟨_, .ended gone, linked flag _, rfl⟩
  · exact ⟨_, .dropped, linked flag _, rfl⟩
  · exact ⟨⟨_, .dropped, linked flag _, rfl⟩, fun r finished => ⟨_, .ended gone, linked flag _, rfl⟩⟩

/-! ### Polling -/

/-- How a poll ends, and what it does to the client's state. -/
inductive Polling (c : MqttClient H P E) : Except (Halt MqttError) (Option ClientEvent) → List Update → Prop where
  | nothing {r : Except (Halt MqttError) (Option ClientEvent)} :
      (∀ message, r ≠ .ok (some (.MessageReceived message))) → Polling c r []
  | received (message : ReceivedMessage) :
      Polling c (.ok (some (.MessageReceived message))) [.queue (.add message)]
  | failed {err : MqttError} : Polling c (.error (.err err)) [.enter .Error]
  | lost : c.protocol_engine.is_connected = false → c.state.connection_state ≠ .Disconnected →
      Polling c (.ok (some .Disconnected)) [.enter .Disconnected]
  | refused : c.protocol_engine.is_connected = false → c.state.connection_state ≠ .Disconnected →
      Polling c (.ok (some .Disconnected)) [.enter .Connecting, .enter .Error, .enter .Disconnected]

/-- The message that a poll put in the receive queue. -/
def arrived : Except (Halt MqttError) (Option ClientEvent) → List QueueOp
  | .ok (some (.MessageReceived message)) => [.add message]
  | _ => []

theorem arrived_nothing {r : Except (Halt MqttError) (Option ClientEvent)}
    (none : ∀ message, r ≠ .ok (some (.MessageReceived message))) : arrived r = [] := by
  unfold arrived
  split
  · exact absurd rfl (none _)
  · rfl

omit [MqttProtocolHandler H P E] in
theorem Polling.summary {c : MqttClient H P E} {r : Except (Halt MqttError) (Option ClientEvent)}
    {updates : List Update} (polling : Polling c r updates) : Summary c.state false
      [.disconnect_count, .reconnect_count, .error_count, .messages_received, .publishes_received] 0 (arrived r)
        updates := by
  cases polling with
  | nothing none =>
    rw [arrived_nothing none]
    constructor <;> simp [adds]
  | received message => constructor <;> simp [adds, arrived, ReceiveQueue.step]
  | failed => constructor <;> simp [adds, arrived]
  | lost down running =>
    constructor <;> by_cases up : c.state.connection_state = .Connected <;> simp [adds, arrived, running, up]
  | refused down running => constructor <;> simp [adds, arrived, running]

/-- The outcome of a poll, or of a part of it. -/
def Polls (c : MqttClient H P E) (r : Except (Halt MqttError) (Option ClientEvent)) (c' : MqttClient H P E) : Prop :=
  ∃ updates, Polling c r updates ∧ Leads c c' updates

section
omit [MqttProtocolHandler H P E]
variable {c c₁ : MqttClient H P E}

/-- A poll that stops before it changes the state. -/
theorem Polls.stopped {h : Halt MqttError} (untouched : Untouched c c₁) : Polls c (.error h) c₁ :=
  ⟨[], .nothing fun _ same => (by cases same), untouched⟩
theorem Polls.silent {event : Option ClientEvent} (other : ∀ message, event ≠ some (.MessageReceived message))
    (untouched : Untouched c c₁) : Polls c (.ok event) c₁ :=
  ⟨[], .nothing fun message same => other message (Except.ok.inj same), untouched⟩

/-- The parts of a poll that leave the state. -/
theorem Polls.bind {m : ClientM H P E α} {f : α → ClientM H P E (Option ClientEvent)} (first : Moves Untouched m)
    (untouched : Untouched c c₁) (next : ∀ a c₂, Untouched c c₂ → wp (f a) c₂ (Polls c)) :
    wp (m >>= f) c₁ (Polls c) := by
  rw [wp_bind]
  refine wp_mono (first.wp c₁) fun r c₂ same => ?_
  have untouched : Untouched c c₂ := same.trans untouched
  cases r with
  | error _ => exact .stopped untouched
  | ok a => exact next a c₂ untouched

theorem handle_packet_action_polls (action : PacketAction) (untouched : Untouched c c₁) :
    wp (MqttClient.handle_packet_action action) c₁ (Polls c) := by
  cases action with
  | PublishReceived topic qos retain payload pid =>
    refine Polls.bind (inEngine _) untouched fun time c₂ untouched => ?_
    exact ⟨_, .received _, untouched.then rfl⟩
  | SubscribeAck pid return_codes =>
    refine Polls.bind (inSession _) untouched fun _ c₂ untouched => ?_
    exact .silent (by simp) untouched
  | UnsubscribeAck pid | PingResponse | PublishAck pid | PublishComplete pid | ConnectAck _ _ | PublishRec _
  | PublishRelease _ | None => exact .silent (by simp) untouched

end

theorem receive_polls {c c₁ : MqttClient H P E} (untouched : Untouched c c₁) :
    wp MqttClient.receive c₁ (Polls c) := by
  rw [MqttClient.receive]
  refine Polls.bind (inSession receive_packet).attempt untouched fun result c₂ untouched => ?_
  cases result with
  | error err => exact ⟨_, .failed, untouched.then rfl⟩
  | ok action => exact handle_packet_action_polls action untouched

theorem poll_connected_polls (c : MqttClient H P E) : wp MqttClient.poll_connected c (Polls c) := by
  refine Polls.bind (inEngine current_timestamp_ms) rfl fun time c₁ untouched => ?_
  rw [wp_bind, wp_get]
  dsimp only
  split
  · exact ⟨_, .failed, untouched.then rfl⟩
  · have pinging : Moves Untouched (onlyIf (c₁.protocol_engine.should_send_keep_alive time) MqttClient.ping :
        ClientM H P E Unit) := Moves.onlyIf fun _ => whenConnected (inEngine _)
    refine Polls.bind pinging untouched fun _ c₂ untouched => ?_
    refine Polls.bind (inSession (handle_retries time)) untouched fun _ c₃ untouched => ?_
    exact receive_polls untouched

/-- The engine of a connected client refuses to connect, so a poll that reconnects fails to. -/
theorem reconnect_linked {c : MqttClient H P E} (linked : c.protocol_engine.connected = true) :
    wp MqttClient.reconnect c fun r c' => r = .error .cut ∧ Untouched c c' ∨ (∃ err, r = .error (.err err)) ∧
      (Untouched c c' ∨ Leads c c' [.enter .Connecting, .enter .Error]) := by
  refine Reconnect.reconnect_seq (fun _ err => ?_) (fun interval => ?_) fun enabled remain elapsed interval => ?_
  · exact .inr ⟨⟨err, rfl⟩, .inl rfl⟩
  · exact .inl ⟨rfl, rfl⟩
  · refine Reconnect.connect_flagged (by exact linked) (fun err => ?_) ?_
    · exact .inr ⟨⟨_, rfl⟩, .inl rfl⟩
    · exact .inr ⟨⟨_, rfl⟩, .inr rfl⟩

theorem poll_polls {c : MqttClient H P E}
    (linked : c.state.connection_state = .Connected → c.protocol_engine.connected = true) :
    wp MqttClient.poll c (Polls c) := by
  refine Reconnect.poll_seq (fun _ => poll_connected_polls c) (fun _ connected _ => reconnect_linked (linked connected))
    (fun down connected c' err outcome => ?_) (fun c' outcome => ?_) (fun c' outcome => ?_) (fun down _ running => ?_)
    fun _ _ => ?_
  · have running : c.state.connection_state ≠ .Disconnected := by
      rw [connected]
      decide
    rcases outcome with ⟨stopped, -⟩ | ⟨-, untouched | leads⟩
    · cases stopped
    · exact ⟨_, .lost down running, untouched.then rfl⟩
    · exact ⟨_, .refused down running, leads.then rfl⟩
  · rcases outcome with ⟨-, untouched⟩ | ⟨⟨err, stopped⟩, -⟩
    · exact .stopped untouched
    · cases stopped
  · rcases outcome with ⟨stopped, -⟩ | ⟨⟨err, stopped⟩, -⟩
    · cases stopped
    · cases stopped
  · exact ⟨_, .lost down running, rfl⟩
  · exact .silent (by simp) rfl

/-! ### Publishing -/

/-- What is done to the state by a publish that returns well, or not. -/
def publishing (ok : Bool) : List Update := if ok then [.sent] else []

theorem publishing_summary (state : ClientState) (ok : Bool) :
    Summary state false [.messages_sent, .publishes_sent] ok.toNat [] (publishing ok) := by
  cases ok with
  | false => constructor <;> simp [publishing, adds]
  | true => constructor <;> simp [publishing, adds]

/-- A publish counts a message if it returns well. -/
def Sends (m : ClientM H P E Unit) : Prop := ∀ c, wp m c fun r c' => Leads c c' (publishing r.isOk)

section
omit [MqttProtocolHandler H P E]

theorem Sends.fail (err : MqttError) : Sends (fail err : ClientM H P E Unit) := fun _ => rfl
theorem Sends.sent : Sends (modify fun c => { c with state := c.state.record_message_sent } : ClientM H P E Unit) :=
  fun _ => rfl
theorem Sends.ite {p : Prop} [Decidable p] {m n : ClientM H P E Unit} (yes : Sends m) (no : Sends n) :
    Sends (if p then m else n) := by
  split
  · exact yes
  · exact no
theorem Sends.bind {m : ClientM H P E α} {f : α → ClientM H P E Unit} (first : Moves Untouched m)
    (next : ∀ a, Sends (f a)) : Sends (m >>= f) := by
  intro c
  rw [wp_bind]
  refine wp_mono (first.wp c) fun r c₁ untouched => ?_
  cases r with
  | error _ => exact untouched
  | ok a =>
    refine wp_mono (next a c₁) fun r c' leads => ?_
    rw [Leads, ← untouched]
    exact leads

end

theorem publish_sends (topic : TopicName) (payload : Bytes) (config : PublishConfig) :
    Sends (MqttClient.publish topic payload config : ClientM H P E Unit) := by
  refine Sends.bind Moves.get fun c => Sends.ite (Sends.fail _) (Sends.bind Moves.get fun c => ?_)
  exact Sends.ite (Sends.fail _) (Sends.bind (inSession _) fun _ => Sends.sent)

end

theorem publish_v5_sends [Codec V5.Packet ErrorV5] (topic : TopicName) (payload : Bytes) (config : PublishConfig)
    (v5_config : V5PublishConfig) : Sends (MqttClient.publish_v5 topic payload config v5_config) := by
  refine Sends.bind Moves.get fun c => Sends.ite (Sends.fail _) (Sends.bind Moves.get fun c => ?_)
  refine Sends.ite (Sends.fail _) (Sends.bind (inSession _) fun pid => Sends.bind (inEngine _) fun _ => ?_)
  refine Sends.bind (Moves.ofExcept _ _) fun packet => Sends.bind (inSession _) fun _ => ?_
  exact Sends.bind (inEngine _) fun _ => Sends.sent

/-! ### Calls -/

theorem isOk_map {ε α β : Type} (r : Except ε α) (f : α → β) : (r.map f).isOk = r.isOk := by
  cases r <;> rfl

/-- The counters that an operation may increment. -/
def counters : {v : Version} → Op v → List Counter
  | _, .connect | _, .reconnect => [.connect_count, .error_count]
  | _, .disconnect => [.disconnect_count]
  | _, .poll => [.disconnect_count, .reconnect_count, .error_count, .messages_received, .publishes_received]
  | _, .publish _ _ _ | _, .publish_v5 _ _ _ _ => [.messages_sent, .publishes_sent]
  | _, .subscribe _ _ | _, .subscribe_multiple _ | _, .unsubscribe _ | _, .unsubscribe_multiple _ | _, .ping
  | _, .next_message | _, .subscribe_v5 _ _ | _, .set_v5_config _ => []

/-- What an operation puts in the receive queue or takes out of it. -/
def queued : {v : Version} → Op v → Except (Halt MqttError) Reply → List QueueOp
  | _, .poll, .ok (.event event) => arrived (.ok event)
  | _, .next_message, _ => [.pop]
  | _, _, _ => []

/-- The publishes of an operation that return `Ok`. -/
def published : {v : Version} → Op v → Except (Halt MqttError) Reply → Nat
  | _, .publish _ _ _, r | _, .publish_v5 _ _ _ _, r => r.isOk.toNat
  | _, _, _ => 0

section
variable [Codec V3.Packet MqttProtoError] [Codec V5.Packet ErrorV5] {v : Version}

/-- What an operation does to the client's state, given how it ends and whether a CONNECT was accepted. -/
def Does (c : Client v) (accepts : Bool) : {v : Version} → Op v → Except (Halt MqttError) Reply → List Update → Prop
  | _, .connect, r, updates => Connecting (Resumes c) r.isOk accepts updates
  | _, .reconnect, r, updates => Connecting (Attempts c → Resumes c) r.isOk accepts updates
  | _, .disconnect, _, updates => accepts = false ∧ Disconnecting c.state.connection_state updates
  | _, .poll, r, updates => accepts = false ∧ ∃ ended, r = ended.map .event ∧ Polling c ended updates
  | _, .publish _ _ _, r, updates | _, .publish_v5 _ _ _ _, r, updates => accepts = false ∧ updates = publishing r.isOk
  | _, .next_message, _, updates => accepts = false ∧ updates = [.queue .pop]
  | _, .subscribe _ _, _, updates | _, .subscribe_multiple _, _, updates | _, .unsubscribe _, _, updates
  | _, .unsubscribe_multiple _, _, updates | _, .ping, _, updates | _, .subscribe_v5 _ _, _, updates
  | _, .set_v5_config _, _, updates => accepts = false ∧ updates = []

theorem Does.summary {c : Client v} {accepts : Bool} {op : Op v} {r : Except (Halt MqttError) Reply} {updates : List Update}
    (does : Does c accepts op r updates) :
    Summary c.state accepts (counters op) (published op r) (queued op r) updates := by
  cases op with
  | connect | reconnect =>
    have connecting := Connecting.summary does c.state
    simpa [published, queued, counters] using connecting
  | disconnect =>
    obtain ⟨rfl, disconnecting⟩ := does
    have disconnecting := disconnecting.summary
    simpa [published, queued, counters] using disconnecting
  | poll =>
    obtain ⟨rfl, ended, rfl, polling⟩ := does
    have received : queued (v := v) .poll (ended.map .event) = arrived ended := by cases ended <;> rfl
    rw [received]
    exact polling.summary
  | publish _ _ _ | publish_v5 _ _ _ _ =>
    obtain ⟨rfl, rfl⟩ := does
    simpa [published, queued, counters] using publishing_summary c.state r.isOk
  | next_message =>
    obtain ⟨rfl, rfl⟩ := does
    constructor <;> simp [published, queued, counters, adds, ReceiveQueue.step]
  | _ =>
    obtain ⟨rfl, rfl⟩ := does
    constructor <;> simp [published, queued, counters, adds]

/-- What leaves the connection as it is accepts no CONNECT. -/
theorem calm_unaccepted (op : Op v) (other : op ≠ .connect ∧ op ≠ .reconnect ∧ op ≠ .disconnect ∧ op ≠ .poll)
    (c : Client v) : wp op.perform c fun _ c' => turned_on c c' = false := by
  refine wp_mono ((Attempts.undelayed_sweep.calm op other).wp c) fun _ c' untallied => ?_
  have link : c'.protocol_engine.connected = c.protocol_engine.connected := congrArg Prod.fst untallied
  rw [turned_on, link, Bool.not_and_self]

/-- An operation that counts nothing leaves the state, but for taking a message out. -/
theorem perform_untouched (op : Op v) (none : counters op = []) (other : op ≠ .next_message) :
    Moves Untouched op.perform := by
  cases op with
  | connect | reconnect | disconnect | poll | publish _ _ _ | publish_v5 _ _ _ _ => simp [counters] at none
  | next_message => exact absurd rfl other
  | subscribe topic_filter qos =>
    refine Moves.bind (whenConnected ?_) fun _ => Moves.pure _
    exact (inSession _).bind fun _ => inSession _
  | subscribe_multiple subscriptions =>
    refine Moves.bind (whenConnected (Moves.ite (fun _ => Moves.pure _) fun _ => ?_)) fun _ => Moves.pure _
    exact (inSession _).bind fun _ => Moves.forM (fun _ => inSession _) _
  | unsubscribe topic_filter =>
    refine Moves.bind (whenConnected ?_) fun _ => Moves.pure _
    exact (inSession _).bind fun _ => Moves.modify fun _ => rfl
  | unsubscribe_multiple topic_filters =>
    have removing : ∀ topic_filter, Moves Untouched
      (MqttClient.remove_local_subscription topic_filter : ClientM v.Handler v.Packet v.Error Unit) := fun _ _ => rfl
    refine Moves.bind (whenConnected (Moves.ite (fun _ => Moves.pure _) fun _ => ?_)) fun _ => Moves.pure _
    exact (inSession _).bind fun _ => Moves.forM removing _
  | ping => exact Moves.bind (whenConnected (inEngine _)) fun _ => Moves.pure _
  | subscribe_v5 subscriptions v5_config =>
    refine Moves.bind (whenConnected (Moves.ite (fun _ => Moves.pure _) fun _ => ?_)) fun _ => Moves.pure _
    refine (inSession _).bind fun _ => (Moves.ofExcept _ _).bind fun packet => (inEngine _).bind fun _ => ?_
    exact Moves.forM (fun _ => inSession _) _
  | set_v5_config config => exact (inEngine _).bind fun _ => Moves.pure _

theorem perform_does (op : Op v) {c : Client v} (idle : c.Idle)
    (linked : c.state.connection_state = .Connected → c.protocol_engine.connected = true) :
    wp op.perform c fun r c' => ∃ updates, Does c (turned_on c c') op r updates ∧ Leads c c' updates := by
  have calm := calm_unaccepted (v := v)
  cases op with
  | connect =>
    refine wp_result (wp_mono (connect_updates idle) fun r c' outcome => ?_)
    obtain ⟨updates, connecting, leads⟩ := outcome
    rw [← isOk_map r fun _ => Reply.unit] at connecting
    exact ⟨updates, connecting, leads⟩
  | reconnect =>
    refine wp_result (wp_mono (reconnect_updates idle) fun r c' outcome => ?_)
    obtain ⟨updates, connecting, leads⟩ := outcome
    rw [← isOk_map r fun _ => Reply.unit] at connecting
    exact ⟨updates, connecting, leads⟩
  | disconnect =>
    refine wp_result (wp_mono (disconnect_updates idle) fun r c' outcome => ?_)
    obtain ⟨updates, disconnecting, unaccepted, leads⟩ := outcome
    exact ⟨updates, ⟨unaccepted, disconnecting⟩, leads⟩
  | poll =>
    refine wp_result (wp_mono (wp_and (poll_polls linked) (poll_flags idle linked)) fun r c' outcome => ?_)
    obtain ⟨⟨updates, polling, leads⟩, flags⟩ := outcome
    have link : c'.protocol_engine.connected = c.protocol_engine.connected := by
      rcases flags with same | ⟨-, -, same⟩ | ⟨-, -, same⟩
      · exact congrArg Prod.snd same
      · exact congrArg Prod.snd same
      · exact congrArg Prod.snd same
    refine ⟨updates, ⟨?_, r, rfl, polling⟩, leads⟩
    rw [turned_on, link, Bool.not_and_self]
  | publish topic payload config =>
    refine wp_mono (wp_and (calm _ (by simp) c) ?_) fun r c' outcome => ⟨_, ⟨outcome.1, rfl⟩, outcome.2⟩
    refine wp_result (wp_mono (publish_sends topic payload config c) fun r c' leads => ?_)
    rw [isOk_map]
    exact leads
  | publish_v5 topic payload config v5_config =>
    refine wp_mono (wp_and (calm _ (by simp) c) ?_) fun r c' outcome => ⟨_, ⟨outcome.1, rfl⟩, outcome.2⟩
    refine wp_result (wp_mono (publish_v5_sends topic payload config v5_config c) fun r c' leads => ?_)
    rw [isOk_map]
    exact leads
  | next_message => exact ⟨_, ⟨calm _ (by simp) c, rfl⟩, rfl⟩
  | _ =>
    refine wp_mono (wp_and (calm _ (by simp) c) ?_) fun r c' outcome => ⟨_, ⟨outcome.1, rfl⟩, outcome.2⟩
    exact perform_untouched _ rfl (by simp) c

/-- What a call does to the client's state. -/
theorem call_does {c : Client v} (reachable : c.Reachable) (call : Call v) : ∃ updates,
    Does (c.withWorld call.world) (Attempts.accepts c call) call.op (c.call call).1 updates ∧
      (c.after call).state = run Update.apply c.state updates := by
  have linked := Reconnect.connected_linked reachable
  exact perform_does call.op (c := c.withWorld call.world) reachable.idle linked

end

end Masaka.Updates
