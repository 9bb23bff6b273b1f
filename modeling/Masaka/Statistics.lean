import Masaka.Updates

/-!
The statistics of a client against what happened to it. A connection that ends was
established, and a connect that is counted has returned well, unless a client that did not
get a connection disconnects, or a client that did cannot send its pending messages again.
-/
namespace Masaka.Statistics
open Effect Runs MqttProtocolEngine Flags Updates
open ReceiveQueue (QueueOp)

section
variable [Codec V3.Packet MqttProtoError] [Codec V5.Packet ErrorV5] {v : Version}

/-- What happened to a client: the connects and publishes that returned `Ok`, what was put in
    the receive queue and taken out of it, and whether a connection has been established since
    the client was last disconnected. -/
structure Tally where
  connects : Nat := 0
  publishes : Nat := 0
  queue : List QueueOp := []
  established : Bool := false

/-- The poll comes to `reconnect`. -/
def polls_reconnect (c : Client v) : Bool :=
  !c.protocol_engine.is_connected && c.state.connection_state = .Connected && c.config.reconnect.enabled

/-- The connects of a call that return `Ok`: the call itself, or the one within a reconnect or a poll. -/
def returned (c : Client v) (call : Call v) : Nat :=
  match call.op with
  | .connect | .reconnect => (c.call call).1.isOk.toNat
  | .poll =>
    if polls_reconnect (c.withWorld call.world) then (exec MqttClient.reconnect (c.withWorld call.world)).1.isOk.toNat
    else 0
  | _ => 0

def step (s : Tally × Client v) (call : Call v) : Tally × Client v where
  fst := {
    connects := s.1.connects + returned s.2 call
    publishes := s.1.publishes + published call.op (s.2.call call).1
    queue := s.1.queue ++ queued call.op (s.2.call call).1
    established := Attempts.accepts s.2 call ||
      s.1.established && (s.2.after call).state.connection_state ≠ .Disconnected }
  snd := s.2.after call

/-- A new client, to which nothing has happened. -/
def start (world : World v.Packet v.Error) (setup : v.Setup) (config : ClientConfig) : Tally × Client v :=
  ({}, MqttClient.new world (v.handler setup) config)

/-- The statistics count what their names say. -/
structure Truthful (capacity : Nat) (s : Tally × Client v) : Prop where
  connects : s.2.state.stats.connect_count.toNat = s.1.connects
  disconnects : s.2.state.stats.disconnect_count ≤ s.2.state.stats.connect_count
  publishes : s.2.state.stats.publishes_sent.toNat = s.1.publishes
  received : s.2.state.stats.publishes_received.toNat = adds s.1.queue
  /-- The queue is what was put in and taken out. -/
  queue : s.2.state.received_messages = (run ReceiveQueue.step (.new capacity) s.1.queue).received_messages

/-- No counter overflows in the call: each is as it was, or one more. -/
def Exact (s : Tally × Client v) (call : Call v) : Prop := ∀ counter : Counter,
  (counter.value (s.2.after call).state.stats).toNat = (counter.value s.2.state.stats).toNat ∨
    (counter.value (s.2.after call).state.stats).toNat = (counter.value s.2.state.stats).toNat + 1

/-- A call of an orderly client. -/
structure Orderly (s : Tally × Client v) (call : Call v) : Prop where
  /-- If the broker resumes the session, the pending messages can be sent again. -/
  resumes : call.op = .connect ∨ call.op = .reconnect ∧ Attempts (s.2.withWorld call.world) →
    Resumes (s.2.withWorld call.world)
  /-- What ends was established. -/
  established : s.2.state.connection_state ≠ .Disconnected → call.op = .disconnect ∨
    call.op = .poll ∧ (s.2.withWorld call.world).protocol_engine.is_connected = false → s.1.established = true
  /-- A counter has room for what the operation may count. -/
  room : ∀ counter ∈ counters call.op, (counter.value s.2.state.stats).toNat + 1 < 2 ^ 32

/-- What holds of the statistics between the calls. -/
structure Books (capacity : Nat) (s : Tally × Client v) : Prop where
  reachable : s.2.Reachable
  truthful : Truthful capacity s
  contents : contents s.2.state = contents (run ReceiveQueue.step (.new capacity) s.1.queue)
  /-- A connection that is established has not been counted as ended. -/
  balance : s.2.state.stats.disconnect_count.toNat + s.1.established.toNat ≤ s.2.state.stats.connect_count.toNat

/-- The connect within a poll does not return `Ok`. -/
theorem poll_returns_none {c : Client v} (reachable : c.Reachable) (world : World v.Packet v.Error) :
    returned c ⟨.poll, world⟩ = 0 := by
  simp only [returned]
  by_cases comes : polls_reconnect (c.withWorld world) = true
  swap
  · simp only [comes, Bool.false_eq_true, if_false]
  simp only [comes, if_true]
  simp only [polls_reconnect, Bool.and_eq_true, decide_eq_true_eq] at comes
  have linked : c.protocol_engine.connected = true := Reconnect.connected_linked reachable comes.1.2
  have refused := reconnect_linked (c := c.withWorld world) linked
  rw [wp] at refused
  rcases refused with ⟨stopped, -⟩ | ⟨⟨err, stopped⟩, -⟩
  · rw [stopped]
    rfl
  · rw [stopped]
    rfl

/-- In an orderly client, the connects that return `Ok` are those that are accepted. -/
theorem returned_accepts {s : Tally × Client v} {call : Call v} (reachable : s.2.Reachable) (orderly : Orderly s call) :
    returned s.2 call = (Attempts.accepts s.2 call).toNat := by
  obtain ⟨t, c⟩ := s
  obtain ⟨op, world⟩ := call
  obtain ⟨updates, does, -⟩ := call_does reachable ⟨op, world⟩
  have resumes := orderly.resumes
  cases op with
  | connect => exact congrArg Bool.toNat (Connecting.agrees does (resumes (.inl rfl)))
  | reconnect => exact congrArg Bool.toNat (Connecting.agrees does fun attempts => resumes (.inr ⟨rfl, attempts⟩))
  | poll =>
    rw [poll_returns_none reachable, show Attempts.accepts c ⟨.poll, world⟩ = false from does.1]
    rfl
  | _ =>
    rw [show Attempts.accepts c _ = false from does.1]
    rfl

/-- What an orderly client counts as ended was established. -/
theorem ends_established {s : Tally × Client v} {call : Call v} (reachable : s.2.Reachable) (orderly : Orderly s call)
    (running : s.2.state.connection_state ≠ .Disconnected)
    (ended : (s.2.after call).state.connection_state = .Disconnected) : s.1.established = true := by
  obtain ⟨t, c⟩ := s
  obtain ⟨op, world⟩ := call
  obtain ⟨updates, does, leads⟩ := call_does reachable ⟨op, world⟩
  rw [leads] at ended
  have established := orderly.established running
  cases op with
  | connect | reconnect => exact absurd ended (Connecting.stays does running)
  | disconnect => exact established (.inl rfl)
  | poll =>
    obtain ⟨-, r, -, polling⟩ := does
    cases polling with
    | nothing _ => exact absurd ended running
    | received message => exact absurd ended running
    | failed => cases ended
    | lost down _ => exact established (.inr ⟨rfl, down⟩)
    | refused down _ => exact established (.inr ⟨rfl, down⟩)
  | publish _ _ _ | publish_v5 _ _ _ _ =>
    obtain ⟨-, rfl⟩ := does
    unfold publishing at ended
    split at ended
    · exact absurd ended running
    · exact absurd ended running
  | _ =>
    obtain ⟨-, rfl⟩ := does
    exact absurd ended running

/-- What an orderly call counts. -/
theorem call_counts {s : Tally × Client v} {call : Call v} (reachable : s.2.Reachable) (orderly : Orderly s call) :
    ∃ updates, Summary s.2.state (Attempts.accepts s.2 call) (counters call.op) (published call.op (s.2.call call).1)
        (queued call.op (s.2.call call).1) updates ∧
      (s.2.after call).state = run Update.apply s.2.state updates ∧
      ∀ counter : Counter, (counter.value (s.2.after call).state.stats).toNat =
        (counter.value s.2.state.stats).toNat + (counted s.2.state updates).count counter := by
  obtain ⟨updates, does, leads⟩ := call_does reachable call
  have summary := does.summary
  refine ⟨updates, summary, leads, fun counter => ?_⟩
  rw [leads]
  exact run_rises summary.once fun member => orderly.room counter (summary.allowed counter member)

theorem call_exact {s : Tally × Client v} {call : Call v} (reachable : s.2.Reachable) (orderly : Orderly s call) :
    Exact s call := by
  intro counter
  obtain ⟨updates, summary, -, rises⟩ := call_counts reachable orderly
  have once := List.nodup_iff_count_le_one.mp summary.once counter
  have rises := rises counter
  omega

/-- The balance of a call: a CONNECT that is accepted establishes a connection, and only an
    established one is counted as ended. -/
theorem balance_step {s : Tally × Client v} {call : Call v} (reachable : s.2.Reachable) (orderly : Orderly s call)
    (balance : s.2.state.stats.disconnect_count.toNat + s.1.established.toNat ≤ s.2.state.stats.connect_count.toNat) :
    (s.2.after call).state.stats.disconnect_count.toNat + (step s call).1.established.toNat ≤
      (s.2.after call).state.stats.connect_count.toNat := by
  obtain ⟨updates, summary, leads, rises⟩ := call_counts reachable orderly
  have connects := rises .connect_count
  have disconnects := rises .disconnect_count
  rw [summary.connects] at connects
  rw [summary.disconnects, ← leads] at disconnects
  simp only [Counter.value] at connects disconnects
  have after : (step s call).1.established = (Attempts.accepts s.2 call ||
    s.1.established && (s.2.after call).state.connection_state ≠ .Disconnected) := rfl
  cases accepted : Attempts.accepts s.2 call with
  | true =>
    have entered : (s.2.after call).state.connection_state = .Connected := by
      rw [leads]
      exact summary.entered accepted
    rw [if_neg (by simp [entered])] at disconnects
    have one : (step s call).1.established.toNat ≤ 1 := Bool.toNat_le _
    rw [accepted, Bool.toNat_true] at connects
    omega
  | false =>
    rw [accepted, Bool.toNat_false] at connects
    rw [accepted, Bool.false_or] at after
    by_cases ends : s.2.state.connection_state ≠ .Disconnected ∧
        (s.2.after call).state.connection_state = .Disconnected
    · have established := ends_established reachable orderly ends.1 ends.2
      rw [if_pos ends] at disconnects
      rw [established, Bool.toNat_true] at balance
      rw [after, decide_eq_false (not_not_intro ends.2), Bool.and_false, Bool.toNat_false]
      omega
    · have fewer : (step s call).1.established.toNat ≤ s.1.established.toNat := by
        rw [after]
        cases s.1.established with
        | false => exact Nat.le_refl _
        | true => exact Bool.toNat_le _
      rw [if_neg ends] at disconnects
      omega

theorem books_step {capacity : Nat} {s : Tally × Client v} {call : Call v} (books : Books capacity s)
    (orderly : Orderly s call) : Books capacity (step s call) := by
  obtain ⟨reachable, truthful, held, balance⟩ := books
  obtain ⟨updates, summary, leads, rises⟩ := call_counts reachable orderly
  have connects := rises .connect_count
  have publishes := rises .publishes_sent
  have received := rises .publishes_received
  rw [summary.connects] at connects
  rw [summary.sent] at publishes
  rw [summary.received] at received
  have held' : contents (s.2.after call).state =
      contents (run ReceiveQueue.step (.new capacity) (step s call).1.queue) := by
    rw [leads, summary.contents]
    exact (contents_run held _).trans (congrArg contents (run_append ..).symm)
  have balance' := balance_step reachable orderly balance
  refine ⟨reachable.after call, ⟨?_, ?_, ?_, ?_, congrArg Prod.fst held'⟩, held', balance'⟩
  · have returns := returned_accepts reachable orderly
    have before := truthful.connects
    change (s.2.after call).state.stats.connect_count.toNat = s.1.connects + returned s.2 call
    simp only [Counter.value] at connects
    omega
  · rw [UInt32.le_iff_toNat_le]
    exact Nat.le_trans (Nat.le_add_right _ _) balance'
  · have before := truthful.publishes
    change (s.2.after call).state.stats.publishes_sent.toNat = s.1.publishes + published call.op (s.2.call call).1
    simp only [Counter.value] at publishes
    omega
  · have before := truthful.received
    change (s.2.after call).state.stats.publishes_received.toNat = adds (s.1.queue ++ queued call.op (s.2.call call).1)
    rw [adds_append]
    simp only [Counter.value] at received
    omega

theorem start_books (world : World v.Packet v.Error) (setup : v.Setup) (config : ClientConfig) :
    Books config.max_inflight_messages (start world setup config) :=
  ⟨⟨world, setup, config, [], rfl⟩, ⟨rfl, UInt32.le_refl 0, rfl, rfl, rfl⟩, rfl, Nat.le_refl 0⟩

/-- In every run of orderly calls, the statistics count what their names say, and no counter overflows. -/
theorem counts_truly (world : World v.Packet v.Error) (setup : v.Setup) (config : ClientConfig) (calls : List (Call v))
    (orderly : Along step Orderly (start world setup config) calls) :
    Truthful config.max_inflight_messages (run step (start world setup config) calls) ∧
      Along step Exact (start world setup config) calls := by
  have books := start_books world setup config
  have keeps : ∀ (s : Tally × Client v) (call : Call v), Books config.max_inflight_messages s → Orderly s call →
      Books config.max_inflight_messages (step s call) := fun _ _ => books_step
  constructor
  · exact (Runs.invariant keeps books orderly).truthful
  · exact Runs.along_imp keeps (fun s call books orderly => call_exact books.reachable orderly) books orderly

end

/-! ### Clients of version 3.1.1 -/

section
local instance : Codec V3.Packet MqttProtoError := Wire.v3Codec
local instance : Codec V5.Packet ErrorV5 := Wire.v5Codec

/-- A client that connects, publishes, receives a message and disconnects. -/
def visit : List (Call .v3) := [
  ⟨.connect, .obliging true [.Connack ⟨false, 0⟩]⟩,
  ⟨.publish "a" [1] ⟨.Level1, false⟩, .obliging true []⟩,
  ⟨.poll, .obliging true [.Publish ⟨false, .Level0, false, "b", [2]⟩]⟩,
  ⟨.next_message, .obliging true []⟩,
  ⟨.disconnect, .obliging true []⟩]

/-- A connect of a client that starts its session anew resumes nothing. -/
theorem orderly_clean {s : Tally × Client .v3} {call : Call .v3} (clean : s.2.config.clean_session = true)
    (established : s.2.state.connection_state ≠ .Disconnected → call.op = .disconnect ∨
      call.op = .poll ∧ (s.2.withWorld call.world).protocol_engine.is_connected = false → s.1.established = true)
    (room : ∀ counter ∈ counters call.op, (counter.value s.2.state.stats).toNat + 1 < 2 ^ 32) : Orderly s call := by
  refine ⟨fun _ _ _ kept => ?_, established, room⟩
  cases clean.symm.trans kept

theorem visit_orderly : Along step Orderly (start (v := .v3) (.obliging true []) () {}) visit := by
  refine ⟨orderly_clean (by decide +kernel) (fun running => absurd rfl running) (by decide +kernel),
    orderly_clean (by decide +kernel) (fun _ _ => by decide +kernel) (by decide +kernel),
    orderly_clean (by decide +kernel) (fun _ _ => by decide +kernel) (by decide +kernel),
    orderly_clean (by decide +kernel) (fun _ _ => by decide +kernel) (by decide +kernel),
    orderly_clean (by decide +kernel) (fun _ _ => by decide +kernel) (by decide +kernel), trivial⟩

theorem counts_truly_visit : Along step Orderly (start (v := .v3) (.obliging true []) () {}) visit ∧
    Truthful 64 (run step (start (v := .v3) (.obliging true []) () {}) visit) ∧
      Along step Exact (start (v := .v3) (.obliging true []) () {}) visit :=
  ⟨visit_orderly, counts_truly (v := .v3) (.obliging true []) () {} visit visit_orderly⟩

example : (run step (start (v := .v3) (.obliging true []) () {}) visit).2.state.stats.publishes_received = 1 := by
  decide +kernel

/-- The broker refuses the CONNECT, and the client disconnects. -/
def turned_away : List (Call .v3) :=
  [⟨.connect, .obliging true [.Connack ⟨false, 5⟩]⟩, ⟨.disconnect, .obliging true []⟩]

/-- A disconnection is counted although there was no connection. -/
theorem miscounts : ¬ ∀ (world : World V3.Packet MqttProtoError) (config : ClientConfig) (calls : List (Call .v3)),
    Truthful config.max_inflight_messages (run step (start (v := .v3) world () config) calls) ∧
      Along step Exact (start (v := .v3) world () config) calls := by
  intro truthful
  have disconnects := (truthful (.obliging true []) {} turned_away).1.disconnects
  exact absurd disconnects (by decide +kernel)

/-- The broker resumes the session, and the transport takes nothing after the CONNECT. -/
def cut_short : List (Call .v3) := [
  ⟨.connect, .obliging true [.Connack ⟨false, 0⟩]⟩,
  ⟨.publish "a" [1] ⟨.Level1, false⟩, .obliging true []⟩,
  ⟨.disconnect, .obliging true []⟩,
  ⟨.connect, { (.obliging true [.Connack ⟨true, 0⟩] : World V3.Packet MqttProtoError) with
    write := fun n => if n = 0 then some (.ok 65536) else none }⟩]

-- A connect is counted that did not return.
example : (run step (start (v := .v3) (.obliging true []) () { clean_session := false }) cut_short).1.connects = 1 ∧
    (run step (start (v := .v3) (.obliging true []) () { clean_session := false }) cut_short).2.state.stats.connect_count
      = 2 := by
  decide +kernel

end

end Masaka.Statistics
