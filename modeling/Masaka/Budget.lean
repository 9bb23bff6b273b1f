import Masaka.History
import Masaka.Order
import Masaka.Wire

/-!
The budget of retransmissions. A pass counts a retransmission before it makes and sends it, so
that one that fails is counted as well, and a message that is counted three times is given up.
-/
namespace Masaka.Budget
open Effect Tables MqttProtocolHandler MqttProtocolEngine Sending Retries ConnectResult History
open Masaka.Order (republished republished_handed)
open MqttClient (engine engineSession)

section
variable {H P E : Type} [MqttProtocolHandler H P E]

/-- One of the packets cannot be made, encoded or written, after those before it were sent. -/
inductive Fails (h : H) : Tape → (Nat → Answer Unit) → List (Except E P) → Prop where
  | unmade {tape : Tape} {flush : Nat → Answer Unit} {err : E} {rest : List (Except E P)} :
      Fails h tape flush (.error err :: rest)
  | unencoded {tape : Tape} {flush : Nat → Answer Unit} {packet : P} {rest : List (Except E P)} {err : E} :
      encode_packet h packet = .error err → Fails h tape flush (.ok packet :: rest)
  | refused {tape : Tape} {flush : Nat → Answer Unit} {packet : P} {rest : List (Except E P)} {bytes : VarBytes} :
      encode_packet h packet = .ok bytes → Refuses tape bytes.length → Fails h tape flush (.ok packet :: rest)
  | later {tape tape' : Tape} {flush : Nat → Answer Unit} {packet : P} {rest : List (Except E P)} {bytes : VarBytes}
      {events : List (Event P)} : encode_packet h packet = .ok bytes → Writes tape bytes events tape' →
      flush 0 = some (.ok ()) → Fails h tape' (flushed flush) rest → Fails h tape flush (.ok packet :: rest)

/-- Over a transport that works no packet falters that can be made and encoded. -/
theorem not_falters {h : H} {tape : Tape} {flush : Nat → Answer Unit} {list : List (Except E P)} (taking : Taking tape)
    (flushes : ∀ n, flush n = some (.ok ()))
    (sendable : ∀ made ∈ list, ∃ packet bytes, made = .ok packet ∧ encode_packet h packet = .ok bytes) :
    ¬ Falters h tape flush list := by
  intro falters
  induction falters with
  | unmade =>
    obtain ⟨_, _, made, -⟩ := sendable _ List.mem_cons_self
    cases made
  | unsent short =>
    obtain ⟨packet, bytes, made, encodes⟩ := sendable _ List.mem_cons_self
    cases made
    exact short ⟨bytes, encodes, taking.takes _⟩
  | later _ wrote _ _ ih =>
    exact ih (wrote.taking taking) (fun n => flushes (n + 1)) fun made member => sendable made (List.mem_cons_of_mem _ member)

theorem fails_next {h : H} {tape tape' : Tape} {flush : Nat → Answer Unit} {packet : P} {rest : List (Except E P)}
    {bytes : VarBytes} {writes : List (Event P)} (encodes : encode_packet h packet = .ok bytes)
    (wrote : Writes tape bytes writes tape') (answer : flush 0 = some (.ok ())) :
    Fails h tape flush (.ok packet :: rest) ↔ Fails h tape' (flushed flush) rest := by
  refine ⟨fun fails => ?_, .later encodes wrote answer⟩
  cases fails with
  | unencoded failed => cases failed.symm.trans encodes
  | refused encodes' refuses =>
    cases encodes.symm.trans encodes'
    exact absurd refuses wrote.takes.not_refuses
  | later encodes' wrote' _ fails =>
    cases encodes.symm.trans encodes'
    rwa [writes_unique wrote wrote'] at fails

/-- A packet fails exactly if the series falters and returns an error. -/
theorem Series.fails_iff {list : List (Except E P)} {e e' : MqttProtocolEngine H P E} {n : Nat}
    {r : Except (Halt MqttError) Unit} (series : Series list e n r e') :
    Fails e.handler e.world.write e.world.flush list ↔
      Falters e.handler e.world.write e.world.flush list ∧ ∃ err, r = .error (.err err) := by
  induction series with
  | done =>
    constructor
    · intro fails
      cases fails
    · rintro ⟨falters, -⟩
      cases falters
  | unmade => exact ⟨fun _ => ⟨.unmade, _, rfl⟩, fun _ => .unmade⟩
  | @stopped e e' packet rest halt departs =>
    have stops : ∀ {bytes : VarBytes} {events : List (Event P)} {tape' : Tape}, encode_packet e.handler packet = .ok bytes →
        Writes e.world.write bytes events tape' → e.world.flush 0 ≠ some (.ok ()) := by
      intro bytes events tape' encodes writes answer
      cases departs.sent.succeeds_iff.mpr ⟨_, encodes, writes.takes, answer⟩
    constructor
    · intro fails
      cases fails with
      | unencoded failed =>
        refine ⟨.unsent ?_, departs.sent.fails_iff.mpr ?_⟩
        · rintro ⟨bytes, encodes, -⟩
          cases failed.symm.trans encodes
        · simp only [Unsendable, failed]
      | refused encodes refuses =>
        refine ⟨.unsent ?_, departs.sent.fails_iff.mpr ?_⟩
        · rintro ⟨bytes, encodes', takes⟩
          cases encodes.symm.trans encodes'
          exact takes.not_refuses refuses
        · simp only [Unsendable, encodes]
          exact .inl refuses
      | later encodes writes answer _ => exact absurd answer (stops encodes writes)
    · rintro ⟨falters, failed⟩
      have unsendable := departs.sent.fails_iff.mp failed
      cases falters with
      | later encodes writes answer _ => exact absurd answer (stops encodes writes)
      | unsent short =>
        cases encoding : encode_packet e.handler packet with
        | error err => exact .unencoded encoding
        | ok bytes =>
          simp only [Unsendable, encoding] at unsendable
          rcases unsendable with refuses | ⟨takes, -⟩
          · exact .refused encoding refuses
          · exact absurd ⟨bytes, encoding, takes⟩ short
  | @next e e₁ e₂ packet rest n r departs _ ih =>
    rw [departs.kept.handler, (departs.stamped rfl).1] at ih
    obtain ⟨bytes, writes, encodes, wrote, answer⟩ := departs.taken
    rw [fails_next encodes wrote answer, falters_next encodes wrote answer]
    exact ih

/-- A retransmission of a pass fails exactly if the pass falters and returns an error. -/
theorem handles_fails_iff {current_time : Nat} {e e' : MqttProtocolEngine H P E} {s s' : InMemorySession}
    {r : Except (Halt MqttError) Unit} (handles : Handles current_time e s r e' s') :
    Fails e.handler e.world.write e.world.flush ((due current_time e.world.order s).map (again e.handler)) ↔
      Falters e.handler e.world.write e.world.flush ((due current_time e.world.order s).map (again e.handler)) ∧
        ∃ err, r = .error (.err err) := by
  cases handles with
  | stopped series _ => exact Series.fails_iff series
  | paced series _ _ =>
    -- All of them were sent.
    obtain ⟨k, -, -, -, -, -, -, ended, falters⟩ := series.part
    have steady := falters.mp (ended rfl)
    constructor
    · intro fails
      exact absurd ((Series.fails_iff series).mp fails).1 steady
    · rintro ⟨faltered, -⟩
      exact absurd faltered steady

variable [LawfulHandler H P E]

omit [MqttProtocolHandler H P E] [LawfulHandler H P E] in
/-- Of the messages that are due and counted, in order, those that grew are among the first exactly if
    no others are counted. -/
theorem counted_within {current_time : Nat} {order : IterOrder Pid} {s s' : InMemorySession} {n k : Nat}
    (counts : Counted current_time ((due current_time order s).take n) s s') (less : k ≤ n) (most : n ≤ k + 1)
    (begun : n ≤ (due current_time order s).length) :
    (∀ pid message message', s.pending_publishes.lookup pid = some message →
      s'.pending_publishes.lookup pid = some message' → message.retry_count < message'.retry_count →
        pid ∈ ((due current_time order s).map Prod.fst).take k) ↔ k = n := by
  constructor
  · intro within
    by_contra short
    obtain rfl : n = k + 1 := by omega
    -- The last message that is counted is not among the first ones.
    have inside : k < (due current_time order s).length := begun
    rcases last : (due current_time order s)[k] with ⟨pid, message⟩
    have counted_last : (due current_time order s).take (k + 1) = (due current_time order s).take k ++ [(pid, message)] := by
      rw [List.take_succ_eq_append_getElem inside, last]
    obtain ⟨stored, is_due⟩ := mem_due.mp (show (pid, message) ∈ due current_time order s by
      rw [← last]
      exact List.getElem_mem inside)
    have kept : drops current_time message = false := by rw [drops, is_due]; rfl
    have grown : s'.pending_publishes.lookup pid = some (counted current_time message) := by
      rw [counts.lookup, stored, counted_last]
      simp [kept]
    have member := within pid message _ stored grown (Nat.lt_succ_self _)
    have nodup : (((due current_time order s).take (k + 1)).map Prod.fst).Nodup :=
      ((List.take_sublist _ _).map Prod.fst).nodup (due_nodup ..)
    rw [counted_last, List.map_append, List.nodup_append, List.map_take] at nodup
    exact nodup.2.2 pid member pid (List.mem_singleton_self pid) rfl
  · rintro rfl pid message message' stored stored' grown
    rw [counts.lookup, stored, Option.bind_some] at stored'
    split at stored'
    · cases stored'
    split at stored'
    · rename_i member
      rwa [List.map_take] at member
    · cases stored'
      exact absurd grown (Nat.lt_irrefl _)

/-- A call of `handle_retries` that returns an error has counted only what it has handed over. -/
def Honest (current_time : Nat) (c : MqttClient H P E) : Prop :=
  wp (zoom engineSession (handle_retries current_time)) c fun r c' => (∃ err, r = .error (.err err)) →
    ∀ pid message message', c.session_state.pending_publishes.lookup pid = some message →
      c'.session_state.pending_publishes.lookup pid = some message' → message.retry_count < message'.retry_count →
        pid ∈ republished H (c'.protocol_engine.log.drop c.protocol_engine.log.length)

/-- It has, exactly if no retransmission fails before its last byte is taken. -/
theorem honest_iff {c : MqttClient H P E} (idle : c.Idle) (current_time : Nat) : Honest current_time c ↔
    ¬ Fails c.protocol_engine.handler c.protocol_engine.world.write c.protocol_engine.world.flush
      (retransmissions current_time c) := by
  have handles := handle_retries_spec current_time idle c.session_state
  rw [Honest, wp_zoom, wp, MqttClient.engineSession_get]
  rw [wp] at handles
  generalize exec (handle_retries current_time) (c.protocol_engine, c.session_state) = outcome at handles ⊢
  obtain ⟨r, e', s'⟩ := outcome
  obtain ⟨k, n, events, handed⟩ := handles.handed
  change ((∃ err, r = .error (.err err)) → ∀ pid message message',
    c.session_state.pending_publishes.lookup pid = some message →
      s'.pending_publishes.lookup pid = some message' → message.retry_count < message'.retry_count →
        pid ∈ republished H (e'.log.drop c.protocol_engine.log.length)) ↔ _
  rw [show e'.log = c.protocol_engine.log ++ events from handed.log, List.drop_left, republished_handed handed,
    counted_within handed.counts handed.less handed.most handed.begun, handed.falters, retransmissions,
    handles_fails_iff handles]
  constructor
  · rintro honest ⟨faltered, failed⟩
    exact honest failed faltered
  · intro steady failed faltered
    exact steady ⟨faltered, failed⟩

/-- A message that `handle_retries` removes was counted three times. -/
theorem removed_spent {c : MqttClient H P E} (idle : c.Idle) (current_time : Nat) :
    wp (zoom engineSession (handle_retries current_time)) c fun _ c' => ∀ pid message,
      c.session_state.pending_publishes.lookup pid = some message →
      c'.session_state.pending_publishes.lookup pid = none → 3 ≤ message.retry_count := by
  rw [wp_zoom, MqttClient.engineSession_get]
  refine wp_mono (handle_retries_spec current_time idle c.session_state) fun r st handles => ?_
  obtain ⟨e', s'⟩ := st
  obtain ⟨k, n, events, handed⟩ := handles.handed
  intro pid message stored gone
  change s'.pending_publishes.lookup pid = none at gone
  rw [handed.counts.lookup, stored, Option.bind_some] at gone
  split at gone
  · rename_i drops
    exact of_decide_eq_true (Bool.and_eq_true_iff.mp drops).2
  · split at gone <;> cases gone

end

/-! ### Over a run -/

/-- How often a message was sent by `handle_retries`. -/
def retried (known : List (Sender × Nat)) : Nat := known.countP fun sent => sent.1 = .retry

@[simp] theorem retried_nil : retried [] = 0 := rfl
@[simp] theorem retried_concat (known : List (Sender × Nat)) (sender : Sender) (time : Nat) :
    retried (known ++ [(sender, time)]) = retried known + if sender = .retry then 1 else 0 := by
  simp [retried, List.countP_append, List.countP_cons]

/-- No more was counted than was sent. -/
def Paid (known : List (Sender × Nat)) (stored : Option InflightMessage) : Prop :=
  ∀ message, stored = some message → message.retry_count ≤ retried known

/-- If every retransmission that is counted is handed over, every count is paid for. -/
theorem paid_ledger : Ledger since_stored (fun _ _ => True) True Paid where
  begins := since_stored_begins
  nothing := by simp [Paid]
  lost := by simp [Paid]
  opened _ _ _ paid := paid
  stored := by simp [Paid]
  published := by simp +contextual [Paid]
  resumed pid known message time _ paid := by simpa [Paid, note, since_stored] using paid
  counted unsteady := absurd trivial unsteady
  retried known message time _ paid := by simpa [Paid, counted] using paid

section
variable [Codec V5.Packet ErrorV5] [Codec V3.Packet MqttProtoError] {v : Version}

/-- A call over a transport that works falters nowhere if what is due can be made and encoded. -/
theorem unfaltering_flows {c : Client v} (reachable : c.Reachable) {call : Call v}
    (flows : Flows (c.withWorld call.world).protocol_engine)
    (sendable : ∀ made ∈ retransmissions (time call) (c.withWorld call.world), ∃ packet bytes, made = .ok packet ∧
      encode_packet c.protocol_engine.handler packet = .ok bytes) : Unfaltering c call := by
  intro _ c₁ handles
  have idle : (c.withWorld call.world).Idle := reachable.idle
  have known := pinging_spec idle
  rw [wp, (handling_some handles).1] at known
  obtain ⟨session, kept, flowing⟩ := known
  have same : retransmissions (time call) c₁ = retransmissions (time call) (c.withWorld call.world) := by
    rw [retransmissions, session, kept.order, kept.handler, retransmissions]
  rw [same, kept.handler]
  exact not_falters (flowing flows).write (flowing flows).flush sendable

/-- The call is a poll whose `handle_retries` gives up the message. -/
def GivesUp (c : Client v) (call : Call v) (pid : Pid) : Prop := call.op = .poll ∧
  ∃ c₁, handling (c.withWorld call.world) = some c₁ ∧
    (∃ message, c₁.session_state.pending_publishes.lookup pid = some message) ∧
    (exec (zoom engineSession (handle_retries (time call))) c₁).2.session_state.pending_publishes.lookup pid = none

theorem gives_up_spent {c : Client v} (reachable : c.Reachable) {call : Call v} {pid : Pid} (gives_up : GivesUp c call pid) :
    ∃ message, c.session_state.pending_publishes.lookup pid = some message ∧ 3 ≤ message.retry_count := by
  obtain ⟨-, c₁, handles, ⟨message, stored⟩, gone⟩ := gives_up
  have idle : (c.withWorld call.world).Idle := reachable.idle
  have known := pinging_spec idle
  have still := pinging_still (c.withWorld call.world)
  rw [wp, (handling_some handles).1] at known
  rw [(handling_some handles).1] at still
  have spent := removed_spent (still idle).1 (time call) pid message stored gone
  rw [known.1] at stored
  exact ⟨message, stored, spent⟩

/-- In a run that falters nowhere a message is given up only after it was sent again three times. -/
theorem budget_run (world : World v.Packet v.Error) (setup : v.Setup) (config : ClientConfig) {calls : List (Call v)}
    (unfaltering : Runs.Along step (fun s call => Unfaltering s.2 call) (start world setup config) calls) :
    Runs.Along step (fun s call => ∀ pid, GivesUp s.2 call pid → 3 ≤ retried (transmissions since_stored pid s.1))
      (start world setup config) calls := by
  refine Runs.along_imp (I := Holds since_stored Paid) (fun s call holds steady => ?_) (fun s call holds _ => ?_)
    (paid_ledger.holds_start world setup config) unfaltering
  · exact paid_ledger.holds_step holds (fun _ _ _ _ => trivial) fun _ => steady
  · intro pid gives_up
    obtain ⟨message, stored, spent⟩ := gives_up_spent holds.1 gives_up
    exact spent.trans (holds.2 pid message stored)

/-- A pass counts only what it has handed over, exactly if no retransmission fails in it; and so in a
    run that falters nowhere a message is given up only after it was sent again three times. -/
theorem budget_iff :
    (∀ (c : Client v) (current_time : Nat), c.Idle → (Honest current_time c ↔
      ¬ Fails c.protocol_engine.handler c.protocol_engine.world.write c.protocol_engine.world.flush
        (retransmissions current_time c))) ∧
    ∀ (world : World v.Packet v.Error) (setup : v.Setup) (config : ClientConfig) (calls : List (Call v)),
      Runs.Along step (fun s call => Unfaltering s.2 call) (start world setup config) calls →
      Runs.Along step (fun s call => ∀ pid, GivesUp s.2 call pid → 3 ≤ retried (transmissions since_stored pid s.1))
        (start world setup config) calls :=
  ⟨fun _ current_time idle => honest_iff idle current_time, fun world setup config _ => budget_run world setup config⟩

end

/-! ### A write that fails -/

section
local instance : Codec V3.Packet MqttProtoError := Wire.v3Codec
local instance : Codec V5.Packet ErrorV5 := Wire.v5Codec

/-- A client that published a message at the beginning of its time. -/
def published : Client .v3 :=
  Client.run (MqttClient.new (.obliging true []) (Version.handler .v3 ()) { clean_session := false })
    [⟨.connect, .obliging true [.Connack ⟨false, 0⟩]⟩, ⟨.publish "a" [1] ⟨.Level1, false⟩, .obliging true []⟩]

theorem published_reachable : published.Reachable := ⟨_, (), _, _, rfl⟩

/-- Nothing can be written. -/
def broken : World V3.Packet MqttProtoError :=
  { World.obliging true [] with write := fun _ => some (.error (.Io "broken pipe")) }

/-- A poll that receives a packet. -/
def poll_at (time : Nat) : Call .v3 := ⟨.poll, { World.obliging true [.Pingresp] with now := fun _ => time }⟩

/-- A message is published, and sent again three times. -/
def retrying : List (Call .v3) :=
  [⟨.connect, .obliging true [.Connack ⟨false, 0⟩]⟩, ⟨.publish "a" [1] ⟨.Level1, false⟩, .obliging true []⟩,
    poll_at 5000, poll_at 10000, poll_at 15000]

def begun : List Mark × Client .v3 := start (.obliging true []) () { clean_session := false }

theorem begun_reachable (calls : List (Call .v3)) : (Runs.run step begun calls).2.Reachable :=
  Runs.invariant_all (I := fun s : List Mark × Client .v3 => s.2.Reachable)
    (fun _ call reachable => reachable.after call) (start_reachable _ _ _) calls

/-- A packet that is made is encoded. -/
theorem unfaltering_at {c : Client .v3} (reachable : c.Reachable) (time : Nat)
    (made : ∀ made ∈ retransmissions time (c.withWorld (poll_at time).world), made.isOk = true) :
    Unfaltering c (poll_at time) := by
  refine unfaltering_flows reachable ⟨fun _ => rfl, fun _ => rfl⟩ fun again member => ?_
  have sent := made again member
  cases again with
  | error _ => cases sent
  | ok packet => exact ⟨packet, _, rfl, rfl⟩

theorem gives_up_at {c : Client .v3} (time : Nat) (given : (handling (c.withWorld (poll_at time).world)).map (fun c₁ =>
    ((c₁.session_state.pending_publishes.lookup .default).isSome,
      (exec (zoom engineSession (handle_retries time)) c₁).2.session_state.pending_publishes.lookup .default)) =
    some (true, none)) : GivesUp c (poll_at time) .default := by
  obtain ⟨c₁, handles, both⟩ := Option.map_eq_some_iff.mp given
  exact ⟨rfl, c₁, handles, Option.isSome_iff_exists.mp (congrArg Prod.fst both), congrArg Prod.snd both⟩

/-- The last poll gives the message up. -/
theorem budget_published : (Honest 6000 published ↔ ¬ Fails published.protocol_engine.handler
      published.protocol_engine.world.write published.protocol_engine.world.flush (retransmissions 6000 published)) ∧
    GivesUp (Runs.run step begun retrying).2 (poll_at 20000) .default ∧
    Runs.Along step (fun s call => ∀ pid, GivesUp s.2 call pid → 3 ≤ retried (transmissions since_stored pid s.1))
      begun (retrying ++ [poll_at 20000]) := by
  refine ⟨(budget_iff (v := .v3)).1 published 6000 published_reachable.idle, gives_up_at 20000 (by decide +kernel),
    (budget_iff (v := .v3)).2 _ () _ _ ⟨fun polls => (by cases polls), fun polls => (by cases polls), ?_, ?_, ?_, ?_, trivial⟩⟩
  · exact unfaltering_at (begun_reachable (retrying.take 2)) 5000 (by decide +kernel)
  · exact unfaltering_at (begun_reachable (retrying.take 3)) 10000 (by decide +kernel)
  · exact unfaltering_at (begun_reachable (retrying.take 4)) 15000 (by decide +kernel)
  · exact unfaltering_at (begun_reachable retrying) 20000 (by decide +kernel)

/-- The retransmission that could not be written is counted. -/
theorem failure_counted : ¬ ∀ (c : Client .v3) (world : World V3.Packet MqttProtoError) (current_time : Nat), c.Reachable →
    Honest current_time (c.withWorld world) := by
  intro honest
  let counting : ClientM V3Handler V3.Packet MqttProtoError Unit := zoom engineSession (handle_retries 6000)
  have failed : (exec counting (published.withWorld broken)).1 = .error (.err (.Transport (.Io "broken pipe"))) := by
    decide +kernel
  have before : ((published.withWorld broken).session_state.pending_publishes.lookup .default).map
      (·.retry_count) = some 0 := by decide +kernel
  have after : ((exec counting (published.withWorld broken)).2.session_state.pending_publishes.lookup .default).map
      (·.retry_count) = some 1 := by decide +kernel
  have nothing : republished V3Handler ((exec counting (published.withWorld broken)).2.protocol_engine.log.drop
      (published.withWorld broken).protocol_engine.log.length) = [] := by decide +kernel
  obtain ⟨message, stored, zero⟩ := Option.map_eq_some_iff.mp before
  obtain ⟨message', stored', one⟩ := Option.map_eq_some_iff.mp after
  have sent := honest published broken 6000 published_reachable ⟨_, failed⟩ .default message message' stored stored'
    (by omega)
  rw [nothing] at sent
  cases sent

end

end Masaka.Budget
