import Masaka.OnePass

/-!
No message stays pending for ever. A poll that comes to wait for a packet has made a whole
pass over the pending messages: those that have timed out were counted, and those that were
counted three times were given up. So a message outlasts no more timeouts than it has
retries left, whatever else the client is asked to do in between.
-/
namespace Masaka.Lingering
open Effect Tables Runs MqttProtocolHandler MqttProtocolEngine History Retries OnePass
open MqttClient (engine engineSession)

/-- A pass counts a message that has timed out, if it has a retry left. -/
theorem passed_due {now : Nat} {message message' : InflightMessage} (due : RETRY_TIMEOUT_MS ≤ now - message.timestamp)
    (kept : passed now message = some message') :
    message.retry_count < MAX_RETRY_COUNT ∧ message' = Retries.counted now message := by
  unfold passed at kept
  split at kept
  · cases kept
  rename_i left
  have due : 5000 ≤ now - message.timestamp := due
  rw [if_pos due] at kept
  exact ⟨Nat.lt_of_not_le left, (Option.some.inj kept).symm⟩

section
variable {H P E : Type} [MqttProtocolHandler H P E] [LawfulHandler H P E]

/-- A poll that comes to wait has made a pass. -/
theorem waiting_passed {c c₁ : MqttClient H P E} (idle : c.Idle) (waits : Polling.waiting c = some c₁) :
    c₁.Idle ∧ ∀ pid, c₁.session_state.pending_publishes.lookup pid =
      (c.session_state.pending_publishes.lookup pid).bind (passed (c.protocol_engine.world.now 0)) := by
  obtain ⟨-, -, ran⟩ := Polling.waiting_some waits
  rw [until_receive_eq, exec_bind] at ran
  have known := pinging_spec idle
  rw [wp] at known
  rcases pinged : exec pinging c with ⟨halt | _, c₀⟩
  · rw [pinged] at ran
    cases ran
  rw [pinged] at ran known
  obtain ⟨session, kept, -⟩ := known
  have handled : wp (zoom engineSession (handle_retries (c.protocol_engine.world.now 0))) c₀ fun r c' =>
      Handles (c.protocol_engine.world.now 0) c₀.protocol_engine c₀.session_state r c'.protocol_engine c'.session_state := by
    rw [wp_zoom]
    exact handle_retries_spec _ (kept.idle idle) c₀.session_state
  have ran : exec (zoom engineSession (handle_retries (c.protocol_engine.world.now 0))) c₀ = (.ok (), c₁) := ran
  rw [wp, ran] at handled
  obtain ⟨k, n, events, handed⟩ := handled.handed
  have all := (handed.ended rfl).trans handed.less
  refine ⟨handled.kept.idle (kept.idle idle), fun pid => ?_⟩
  have counts := handed.counts
  rw [List.take_of_length_le all] at counts
  rw [counts.lookup, passed_eq, session]

end

section
variable [Codec V5.Packet ErrorV5] [Codec V3.Packet MqttProtoError] {v : Version}

/-- The time of a call that has made a whole pass. -/
def passes (c : Client v) (call : Call v) : List Nat := if (c.waiting call).isSome then [time call] else []

theorem passes_polls {c : Client v} {calls : List (Call v)} {at_time : Nat}
    (member : at_time ∈ gather Client.after passes c calls) : ∃ call ∈ calls, call.op = .poll ∧ time call = at_time := by
  induction calls generalizing c with
  | nil => cases member
  | cons call calls ih =>
    rw [gather_cons, List.mem_append] at member
    rcases member with here | later
    · unfold passes at here
      split at here
      · rename_i waits
        obtain ⟨op, world⟩ := call
        cases op with
        | poll => exact ⟨_, List.mem_cons_self, rfl, (List.mem_singleton.mp here).symm⟩
        | _ => cases waits
      · cases here
    · obtain ⟨other, member, found⟩ := ih later
      exact ⟨other, List.mem_cons_of_mem _ member, found⟩

/-- What is pending after a pass has passed. -/
theorem call_passed {c c₁ : Client v} (reachable : c.Reachable) {call : Call v} (waits : c.waiting call = some c₁) {pid : Pid}
    {message' : InflightMessage} (stored : (c.after call).session_state.pending_publishes.lookup pid = some message') :
    ∃ message, c.session_state.pending_publishes.lookup pid = some message ∧ passed (time call) message = some message' := by
  have after : c.after call = (exec MqttClient.receive c₁).2 := congrArg Prod.snd (Client.call_waiting waits)
  obtain ⟨op, world⟩ := call
  cases op with
  | poll =>
    have idle : (c.withWorld world).Idle := reachable.idle
    obtain ⟨idle₁, looked⟩ := waiting_passed idle waits
    obtain ⟨-, -, shrinks⟩ := receive (H := v.Handler) c₁ idle₁
    rw [after] at stored
    have here := shrinks pid message' stored
    rw [looked] at here
    exact Option.bind_eq_some_iff.mp here
  | _ => cases waits

/-- What is noted as stored was accepted. -/
theorem stored_accepted {c : Client v} {call : Call v} {pid : Pid} (noted : .stored pid ∈ marks c call) :
    .accepted pid ∈ c.events call := by
  obtain ⟨event, member, marked⟩ := List.mem_filterMap.mp noted
  cases event with
  | accepted taken =>
    cases marked
    exact member
  | sent frame =>
    simp only [mark, packet_mark] at marked
    split at marked
    · cases marked
    · obtain ⟨_, -, wrong⟩ := Option.map_eq_some_iff.mp marked
      cases wrong
    · cases marked
  | _ => cases marked

/-- A call that accepts nothing under the identifier leaves the message as it is, or counts it. -/
theorem call_ages {c : Client v} (reachable : c.Reachable) {call : Call v} {pid : Pid} (same : .accepted pid ∉ c.events call)
    {message' : InflightMessage} (stored : (c.after call).session_state.pending_publishes.lookup pid = some message') :
    ∃ message, c.session_state.pending_publishes.lookup pid = some message ∧ (message' = message ∨
      call.op = .poll ∧ message.retry_count < MAX_RETRY_COUNT ∧ message' = Retries.counted (time call) message) := by
  have turn := call_turns reachable call
  generalize noted : marks c call = marks at turn
  cases turn with
  | opening opening =>
    cases opening with
    | still opened shrinks => exact ⟨message', shrinks pid message' stored, .inl rfl⟩
    | resumed k resumes kept =>
      rw [kept] at stored
      exact ⟨message', stored, .inl rfl⟩
  | @published message marks s' fresh stamped inserted stores =>
    have other : pid ≠ c.session_state.next_pid := by
      rintro rfl
      refine same (stored_accepted ?_)
      rw [noted]
      rcases stores with rfl | rfl
      · exact List.mem_cons_self
      · exact List.mem_cons_self
    rw [inserted] at stored
    exact ⟨message', (AList.lookup_insert_ne other).symm.trans stored, .inl rfl⟩
  | @polled c₁ s₁ s' n k polled handles less most falters counts shrinks =>
    have here := shrinks pid message' stored
    rw [counts.lookup] at here
    obtain ⟨message, before, made⟩ := Option.bind_eq_some_iff.mp here
    refine ⟨message, before, ?_⟩
    split at made
    · cases made
    split at made <;> cases made
    · rename_i started
      obtain ⟨⟨other, message₀⟩, listed, rfl⟩ := List.mem_map.mp started
      obtain ⟨stored₀, due⟩ := mem_due.mp (List.mem_of_mem_take listed)
      cases before.symm.trans stored₀
      exact .inr ⟨polled, ((retries_iff _ _).mp due).1, rfl⟩
    · exact .inl rfl

/-- What is pending at the end was pending from the beginning. -/
theorem pending_before {c : Client v} (reachable : c.Reachable) {pid : Pid} {calls : List (Call v)}
    (same : Along Client.after (fun c call => .accepted pid ∉ c.events call) c calls)
    (pending : pid ∈ (c.run calls).session_state.pending_publishes) : pid ∈ c.session_state.pending_publishes := by
  induction calls generalizing c with
  | nil => exact pending
  | cons call calls ih =>
    obtain ⟨message', stored⟩ := mem_iff_lookup.mp (ih (reachable.after call) same.2 pending)
    obtain ⟨message, before, -⟩ := call_ages reachable same.1 stored
    exact mem_iff_lookup.mpr ⟨message, before⟩

/-- A message that stays pending outlasts no more timeouts than it has retries left: of the whole passes that a run
    makes, each at least the timeout after the one before and the first after the message was stamped, there
    are no more than that. -/
theorem timeouts_outlasted {c : Client v} (reachable : c.Reachable) {pid : Pid} {message : InflightMessage} {start : Nat}
    (stored : c.session_state.pending_publishes.lookup pid = some message) (stamped : message.timestamp ≤ start)
    {calls : List (Call v)} (clock : calls.Pairwise fun first later => first.op = .poll → later.op = .poll →
      time first ≤ time later)
    (same : Along Client.after (fun c call => .accepted pid ∉ c.events call) c calls) {times : List Nat}
    (made : times.Sublist (gather Client.after passes c calls))
    (apart : (start :: times).IsChain fun first second => first + RETRY_TIMEOUT_MS ≤ second)
    (pending : pid ∈ (c.run calls).session_state.pending_publishes) :
    times.length ≤ MAX_RETRY_COUNT - message.retry_count := by
  induction calls generalizing c message start times with
  | nil =>
    rw [List.eq_nil_of_sublist_nil made]
    exact Nat.zero_le _
  | cons call calls ih =>
    obtain ⟨ordered, clock⟩ := List.pairwise_cons.mp clock
    obtain ⟨message', stored'⟩ := mem_iff_lookup.mp (pending_before (reachable.after call) same.2 pending)
    have later : ∀ {start : Nat} {times : List Nat}, message'.timestamp ≤ start →
        times.Sublist (gather Client.after passes (c.after call) calls) →
        (start :: times).IsChain (fun first second => first + RETRY_TIMEOUT_MS ≤ second) →
        times.length ≤ MAX_RETRY_COUNT - message'.retry_count := fun stamped made apart =>
      ih (reachable.after call) stored' stamped clock same.2 made apart pending
    -- Without the pass of this call, a message that it counts takes the place of the first pass.
    have skipped : times.Sublist (gather Client.after passes (c.after call) calls) →
        times.length ≤ MAX_RETRY_COUNT - message.retry_count := by
      intro rest
      obtain ⟨message₀, before, ages⟩ := call_ages reachable same.1 stored'
      cases stored.symm.trans before
      rcases ages with rfl | ⟨polls, left, rfl⟩
      · exact later stamped rest apart
      · cases times with
        | nil => exact Nat.zero_le _
        | cons first times =>
          obtain ⟨other, member, other_polls, read⟩ := passes_polls (rest.subset List.mem_cons_self)
          have early : time call ≤ first := read ▸ ordered other member polls other_polls
          have few := later early ((List.sublist_cons_self _ _).trans rest) apart.tail
          simp only [Retries.counted] at few
          simp only [List.length_cons]
          omega
    rw [gather_cons, passes] at made
    split at made
    swap
    · exact skipped made
    rename_i waits
    rcases List.sublist_cons_iff.mp made with rest | ⟨rest, rfl, others⟩
    · exact skipped rest
    obtain ⟨c₁, waits⟩ := Option.isSome_iff_exists.mp waits
    obtain ⟨message₀, before, aged⟩ := call_passed reachable waits stored'
    cases stored.symm.trans before
    obtain ⟨timeout, apart⟩ := List.isChain_cons_cons.mp apart
    obtain ⟨left, rfl⟩ := passed_due (by omega) aged
    have few : rest.length ≤ MAX_RETRY_COUNT - (message.retry_count + 1) := later (Nat.le_refl (time call)) others apart
    simp only [List.length_cons]
    omega

end

/-! ### A message that is never acknowledged -/

section
local instance : Codec V3.Packet MqttProtoError := Wire.v3Codec
local instance : Codec V5.Packet ErrorV5 := Wire.v5Codec
open Budget (published published_reachable poll_at)

def waiting_message : InflightMessage := ⟨"a", .Level1, false, [1], 0, 0⟩
def polling : List (Call .v3) := [poll_at 5000, poll_at 10000, poll_at 15000]

/-- It outlasts three timeouts, and not the pass after the fourth. -/
theorem timeouts_outlasted_three : [5000, 10000, 15000].length ≤ MAX_RETRY_COUNT - waiting_message.retry_count ∧
    .default ∉ (published.run (polling ++ [poll_at 20000])).session_state.pending_publishes := by
  have stored : published.session_state.pending_publishes.lookup .default = some waiting_message := by decide +kernel
  have clock : polling.Pairwise fun first later => first.op = .poll → later.op = .poll → time first ≤ time later := by
    simp [polling, time, poll_at]
  have same : Along Client.after (fun c (call : Call .v3) => .accepted .default ∉ c.events call) published polling := by
    decide +kernel
  have made : [5000, 10000, 15000].Sublist (gather Client.after passes published polling) := by decide +kernel
  refine ⟨timeouts_outlasted published_reachable stored (Nat.le_refl 0) clock same made ?_ (by decide +kernel), ?_⟩
  · simp [RETRY_TIMEOUT_MS]
  · decide +kernel

end

end Masaka.Lingering
