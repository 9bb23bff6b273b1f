import Masaka.Budget
import Masaka.Rebuilding

/-!
One pass over what is pending. Over a transport that works `handle_retries` goes through the
messages once: it gives up those that were counted three times, sends again and counts those
that are due, and leaves the others alone. A PUBREL is sent only if nothing else is.
-/
namespace Masaka.OnePass
open Effect Tables Runs MqttProtocolHandler LawfulHandler MqttProtocolEngine Sending Retries History Budget
open Acknowledged (Leveled leveled_reachable)
open ConnectResult (again)
open MqttClient (engine engineSession)

/-- What a pass makes of a pending message. -/
def passed (current_time : Nat) (message : InflightMessage) : Option InflightMessage :=
  if 3 ≤ message.retry_count then none
  else if 5000 ≤ current_time - message.timestamp then
    some { message with retry_count := message.retry_count + 1, timestamp := current_time }
  else some message

theorem retries_iff (current_time : Nat) (message : InflightMessage) : retries current_time message = true ↔
    message.retry_count < 3 ∧ 5000 ≤ current_time - message.timestamp := by
  rw [retries, Bool.and_eq_true, decide_eq_true_eq, decide_eq_true_eq]
  exact and_comm

theorem drops_iff (current_time : Nat) (message : InflightMessage) : drops current_time message = true ↔
    3 ≤ message.retry_count := by
  rw [drops, Bool.and_eq_true, Bool.not_eq_true', ← Bool.not_eq_true, retries_iff, decide_eq_true_eq]
  constructor
  · exact And.right
  · intro spent
    exact ⟨fun due => absurd due.1 (Nat.not_lt.mpr spent), spent⟩

section
variable {H P E : Type} [MqttProtocolHandler H P E] [LawfulHandler H P E]

/-- The client before and after a pass: each message has passed once; what was due was sent again, each
    message once and with its stored fields; and a PUBREL was sent if nothing was due, and none was sent for a second. -/
structure Pass (H : Type) {P E : Type} [MqttProtocolHandler H P E] [LawfulHandler H P E] (current_time : Nat)
    (c c' : MqttClient H P E) : Prop where
  stored : ∀ pid, c'.session_state.pending_publishes.lookup pid =
    (c.session_state.pending_publishes.lookup pid).bind (passed current_time)
  others : others c'.session_state = others c.session_state
  written : ∃ (entries : List (Pid × InflightMessage)) (packets pubrels : List P) (events : List (Event P)),
    c'.protocol_engine.log = c.protocol_engine.log ++ events ∧ Wrote (packets ++ pubrels) events ∧
    (entries.map Prod.fst).Nodup ∧
    (∀ pid message, (pid, message) ∈ entries ↔ c.session_state.pending_publishes.lookup pid = some message ∧
      message.retry_count < 3 ∧ 5000 ≤ current_time - message.timestamp) ∧
    packets.map (shape (H := H)) = entries.map Resume.again ∧
    (pubrels = [] ∨ (∃ pid ∈ c.session_state.pending_pubrels, pubrels.map (shape (H := H)) = [.pubrel pid]) ∧
      entries = [] ∧ c.protocol_engine.last_packet_sent_time + 1000 < current_time)

theorem shapes_again {h : H} {entries : List (Pid × InflightMessage)} {packets : List P}
    (made : entries.map (again h) = packets.map .ok) : packets.map (shape (H := H)) = entries.map Resume.again := by
  have each : ∀ entry packet, again h entry = .ok packet → some (shape (H := H) packet) = some (Resume.again entry) := by
    intro entry packet built
    obtain ⟨qp, carried, shaped⟩ := LawfulHandler.publish _ _ _ _ _ _ _ _ built
    rw [shaped, Resume.carrying_eq carried, Resume.again]
  have whole : packets.map .ok = (entries.map (again h)).take entries.length := by
    rw [← made, List.take_of_length_le (Nat.le_of_eq (List.length_map _))]
  have all := filterMap_made each whole
  rw [List.take_length] at all
  simpa using all

theorem passed_eq (current_time : Nat) (order : IterOrder Pid) (s : InMemorySession) (pid : Pid) :
    ((s.pending_publishes.lookup pid).bind fun message => if drops current_time message then none
      else if pid ∈ (due current_time order s).map Prod.fst then some (counted current_time message) else some message) =
      (s.pending_publishes.lookup pid).bind (passed current_time) := by
  cases stored : s.pending_publishes.lookup pid with
  | none => rfl
  | some message =>
    have is_due : pid ∈ (due current_time order s).map Prod.fst ↔ retries current_time message = true := by
      rw [List.mem_map]
      constructor
      · rintro ⟨⟨other, message'⟩, listed, rfl⟩
        obtain ⟨stored', due⟩ := mem_due.mp listed
        cases stored.symm.trans stored'
        exact due
      · exact fun due => ⟨(pid, message), mem_due.mpr ⟨stored, due⟩, rfl⟩
    simp only [Option.bind_some, drops_iff, is_due, retries_iff, passed]
    by_cases spent : 3 ≤ message.retry_count
    · simp only [spent, if_true]
    · simp only [spent, Nat.lt_of_not_le spent, if_false, true_and]
      rfl

/-- Over a transport that works, with a clock that does not go back, a pass is one. -/
theorem pass_spec {c : MqttClient H P E} (idle : c.Idle) (leveled : Leveled c.session_state) {current_time : Nat}
    (flows : Flows c.protocol_engine) (bounded : current_time < 2 ^ 64)
    (clock : ∀ n, current_time ≤ c.protocol_engine.world.now n)
    (encodes : ∀ pid message packet, c.session_state.pending_publishes.lookup pid = some message →
      again c.protocol_engine.handler (pid, message) = .ok packet →
        ∃ bytes, encode_packet c.protocol_engine.handler packet = .ok bytes) :
    wp (zoom engineSession (handle_retries current_time)) c fun r c' => Pass H current_time c c' ∧
      ((∀ pid packet, create_pubrel_packet c.protocol_engine.handler pid = .ok packet →
        ∃ bytes, encode_packet c.protocol_engine.handler packet = .ok bytes) → r = .ok ()) := by
  rw [wp_zoom, MqttClient.engineSession_get]
  refine wp_mono (handle_retries_spec current_time idle c.session_state) fun r st handles => ?_
  obtain ⟨e', s'⟩ := st
  have sendable : ∀ made ∈ (due current_time c.protocol_engine.world.order c.session_state).map
      (again c.protocol_engine.handler), ∃ packet bytes, made = .ok packet ∧
        encode_packet c.protocol_engine.handler packet = .ok bytes := by
    intro made member
    obtain ⟨⟨pid, message⟩, listed, rfl⟩ := List.mem_map.mp member
    have stored := (mem_due.mp listed).1
    obtain ⟨packet, built⟩ := Rebuilding.again_built (leveled pid message stored) c.protocol_engine.handler pid
    obtain ⟨bytes, encoded⟩ := encodes pid message packet stored built
    exact ⟨packet, bytes, built, encoded⟩
  cases handles with
  | stopped series _ => cases (series.flows flows).2 sendable
  | @paced e₁ _ _ sent _ series counts paced =>
    obtain ⟨packets, events, made, log, wrote⟩ := series.wrote
    obtain ⟨clock₁, spacing⟩ := series.recent clock
    obtain ⟨-, ⟨pubrels, more, made', log', wrote'⟩, ends⟩ := paced.wrote (series.flows flows).1
    rw [series.kept.handler] at made' ends
    refine ⟨⟨fun pid => ?_, counts.rest, due current_time c.protocol_engine.world.order c.session_state, packets, pubrels,
      events ++ more, ?_, wrote.append wrote', due_nodup .., fun pid message => ?_, shapes_again made, ?_⟩, ends⟩
    · exact (counts.lookup pid).trans (passed_eq ..)
    · exact log'.trans (by rw [log, List.append_assoc])
    · rw [mem_due, retries_iff]
    rcases spacing with ⟨none, rfl⟩ | recent
    · rcases paced.once bounded clock with rfl | ⟨⟨pid, listed, rfl⟩, spaced⟩
      · exact .inl (List.map_eq_nil_iff.mp made'.symm)
      · refine .inr ⟨⟨pid, ?_, ?_⟩, List.map_eq_nil_iff.mp none, spaced⟩
        · exact mem_pubrels.mp (List.mem_of_mem_take listed)
        · obtain ⟨packet, created, shaped⟩ := LawfulHandler.pubrel c.protocol_engine.handler pid
          rw [List.map_singleton, created] at made'
          obtain ⟨packet', rfl, same⟩ := List.map_eq_singleton_iff.mp made'.symm
          cases same
          rw [List.map_singleton, shaped]
    · have nothing := paced.none bounded recent
      rw [nothing] at made'
      exact .inl (List.map_eq_nil_iff.mp made'.symm)

end

/-! ### Over a run -/

/-- A message is sent again no more than it is counted, and counted three times at most. -/
structure Bounded (known : List (Sender × Nat)) (stored : Option InflightMessage) : Prop where
  sent : retried known ≤ 3
  counted : ∀ message, stored = some message → retried known ≤ message.retry_count ∧ message.retry_count ≤ 3

theorem bounded_ledger : Ledger since_stored (fun _ _ => True) False Bounded where
  begins := since_stored_begins
  nothing := ⟨Nat.zero_le 3, by simp⟩
  lost _ _ bounded := ⟨bounded.sent, by simp⟩
  opened _ _ _ bounded := bounded
  stored _ fresh := ⟨Nat.zero_le 3, by simp [fresh]⟩
  published _ fresh := ⟨Nat.zero_le 3, by simp [fresh, retried]⟩
  resumed pid known message time _ bounded := by
    rw [show note (since_stored pid) pid known .opened = known from rfl]
    exact ⟨by simpa using bounded.sent, by simpa using bounded.counted⟩
  counted _ known message time due bounded := by
    have left := ((retries_iff time message).mp due).1
    have before := (bounded.counted message rfl).1
    refine ⟨bounded.sent, fun other same => ?_⟩
    obtain rfl : Retries.counted time message = other := Option.some.inj same
    simp only [Retries.counted]
    omega
  retried known message time due bounded := by
    have left := ((retries_iff time message).mp due).1
    have before := (bounded.counted message rfl).1
    refine ⟨by simp; omega, fun other same => ?_⟩
    obtain rfl : Retries.counted time message = other := Option.some.inj same
    simp only [Retries.counted, retried_concat, if_true]
    omega

section
variable [Codec V5.Packet ErrorV5] [Codec V3.Packet MqttProtoError] {v : Version}

/-- `handle_retries` makes exactly one pass; and over any run a message is counted three times at most,
    and sent again by it three times at most. -/
theorem one_pass :
    (∀ (c : Client v) (world : World v.Packet v.Error) (current_time : Nat), c.Reachable →
      Flows (c.withWorld world).protocol_engine → current_time < 2 ^ 64 → (∀ n, current_time ≤ world.now n) →
      (∀ pid message packet, c.session_state.pending_publishes.lookup pid = some message →
        again c.protocol_engine.handler (pid, message) = .ok packet →
          ∃ bytes, encode_packet c.protocol_engine.handler packet = .ok bytes) →
      wp (zoom engineSession (handle_retries current_time)) (c.withWorld world) fun r c' =>
        Pass v.Handler current_time (c.withWorld world) c' ∧
        ((∀ pid packet, create_pubrel_packet c.protocol_engine.handler pid = .ok packet →
          ∃ bytes, encode_packet c.protocol_engine.handler packet = .ok bytes) → r = .ok ())) ∧
    ∀ (world : World v.Packet v.Error) (setup : v.Setup) (config : ClientConfig) (calls : List (Call v)) (pid : Pid),
      retried (transmissions since_stored pid (Runs.run step (start world setup config) calls).1) ≤ 3 ∧
      ∀ message, (Runs.run step (start world setup config) calls).2.session_state.pending_publishes.lookup pid =
        some message → message.retry_count ≤ 3 := by
  refine ⟨fun c world current_time reachable flows bounded clock encodes => ?_, fun world setup config calls pid => ?_⟩
  · have idle : (c.withWorld world).Idle := reachable.idle
    have leveled : Leveled (c.withWorld world).session_state := leveled_reachable (c := c) reachable
    exact pass_spec idle leveled flows bounded clock encodes
  · have along : Runs.Along step (fun s call => ResumesOnly (fun _ _ => True) s.2 call ∧ (False → Unfaltering s.2 call))
        (start world setup config) calls :=
      Runs.along_mono (fun _ _ _ => ⟨fun _ _ _ _ => trivial, False.elim⟩) (Runs.along_true step _ calls)
    have bounded := (bounded_ledger.holds_run world setup config along).2 pid
    exact ⟨bounded.sent, fun message stored => (bounded.counted message stored).2⟩

end

/-! ### A message that is due -/

section
local instance : Codec V3.Packet MqttProtoError := Wire.v3Codec
local instance : Codec V5.Packet ErrorV5 := Wire.v5Codec

theorem one_pass_published :
    wp (zoom engineSession (handle_retries 6000)) (published.withWorld (poll_at 6000).world) fun r c' =>
      Pass V3Handler 6000 (published.withWorld (poll_at 6000).world) c' ∧
      ((∀ pid packet, create_pubrel_packet published.protocol_engine.handler pid = .ok packet →
        ∃ bytes, encode_packet published.protocol_engine.handler packet = .ok bytes) → r = .ok ()) :=
  (one_pass (v := .v3)).1 published (poll_at 6000).world 6000 published_reachable ⟨fun _ => rfl, fun _ => rfl⟩
    (by decide) (fun _ => Nat.le_refl _) fun _ _ _ _ _ => ⟨_, rfl⟩

end

end Masaka.OnePass
