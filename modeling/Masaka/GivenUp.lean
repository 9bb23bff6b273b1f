import Masaka.Budget

/-!
Giving up. A message that was counted three times is given up by the next pass, however
little time has passed since it was sent; and what is sent again after a connect is not
stamped anew.
-/
namespace Masaka.GivenUp
open Effect Tables MqttProtocolEngine History Budget

/-- A message that was counted three times is not sent later than it is stamped. -/
def Stamped (known : List (Sender × Nat)) (stored : Option InflightMessage) : Prop :=
  ∀ message, stored = some message → 3 ≤ message.retry_count → ∀ sent ∈ known.getLast?, sent.2 ≤ message.timestamp

/-- A message may be resumed if it has retries left, or is not stamped before it is sent. -/
def Resumable (time : Nat) (message : InflightMessage) : Prop := 3 ≤ message.retry_count → time ≤ message.timestamp

theorem stamped_ledger : Ledger since_stored Resumable True Stamped where
  begins := since_stored_begins
  nothing := by simp [Stamped]
  lost := by simp [Stamped]
  opened _ _ _ stamped := stamped
  stored := by simp [Stamped]
  published := by simp [Stamped]
  resumed pid known message time resumable _ := by
    intro other same spent sent last
    obtain rfl : message = other := Option.some.inj same
    rw [List.getLast?_append_of_ne_nil _ (List.cons_ne_nil _ _)] at last
    obtain rfl : (Sender.resume, time) = sent := Option.some.inj last
    exact resumable spent
  counted unsteady := absurd trivial unsteady
  retried known message time _ _ := by
    intro other same _ sent last
    obtain rfl : Retries.counted time message = other := Option.some.inj same
    rw [List.getLast?_append_of_ne_nil _ (List.cons_ne_nil _ _)] at last
    obtain rfl : (Sender.retry, time) = sent := Option.some.inj last
    exact Nat.le_refl time

section
variable [Codec V5.Packet ErrorV5] [Codec V3.Packet MqttProtoError] {v : Version}

/-- What the call gives up was sent again three times, and was not sent for five seconds. -/
def Patient (noted : List Mark) (c : Client v) (call : Call v) : Prop := ∀ pid, GivesUp c call pid →
  3 ≤ retried (transmissions since_stored pid noted) ∧
    ∀ sent ∈ (transmissions since_stored pid noted).getLast?, sent.2 + RETRY_TIMEOUT_MS ≤ time call

/-- A poll that comes to `handle_retries` finds every message that was counted three times to be stamped
    five seconds ago, and hands over what it counts; and a connect resumes no message that was
    counted three times, unless it is stamped at the same time. -/
structure InTime (c : Client v) (call : Call v) : Prop where
  resumes : ResumesOnly Resumable c call
  steady : Unfaltering c call
  old : call.op = .poll → handling (c.withWorld call.world) ≠ none → ∀ pid message,
    c.session_state.pending_publishes.lookup pid = some message → 3 ≤ message.retry_count →
      message.timestamp + RETRY_TIMEOUT_MS ≤ time call

/-- In a run of such calls every message that is given up has timed out. -/
theorem timed_out (world : World v.Packet v.Error) (setup : v.Setup) (config : ClientConfig) {calls : List (Call v)}
    (in_time : Runs.Along step (fun s call => InTime s.2 call) (start world setup config) calls) :
    Runs.Along step (fun s call => Patient s.1 s.2 call) (start world setup config) calls := by
  have paid := budget_run world setup config (Runs.along_mono (fun _ _ each => each.steady) in_time)
  have late : Runs.Along step (fun s call => ∀ pid, GivesUp s.2 call pid →
      ∀ sent ∈ (transmissions since_stored pid s.1).getLast?, sent.2 + RETRY_TIMEOUT_MS ≤ time call)
      (start world setup config) calls := by
    refine Runs.along_imp (I := Holds since_stored Stamped) (fun s call holds each => ?_) (fun s call holds each => ?_)
      (stamped_ledger.holds_start world setup config) in_time
    · exact stamped_ledger.holds_step holds each.resumes fun _ => each.steady
    · intro pid gives_up sent last
      obtain ⟨message, stored, spent⟩ := gives_up_spent holds.1 gives_up
      obtain ⟨polls, c₁, handles, -⟩ := gives_up
      have stamped := holds.2 pid message stored spent sent last
      have old := each.old polls (by rw [handles]; exact Option.some_ne_none c₁) pid message stored spent
      omega
  refine Runs.along_mono (fun s call both => ?_) (Runs.along_and.mpr ⟨paid, late⟩)
  exact fun pid gives_up => ⟨both.1 pid gives_up, both.2 pid gives_up⟩

end

/-! ### A millisecond after the third retransmission -/

section
local instance : Codec V3.Packet MqttProtoError := Wire.v3Codec
local instance : Codec V5.Packet ErrorV5 := Wire.v5Codec

theorem in_time_at {c : Client .v3} (reachable : c.Reachable) (time : Nat)
    (made : ∀ made ∈ retransmissions time (c.withWorld (poll_at time).world), made.isOk = true)
    (old : ∀ entry ∈ pending (c.withWorld (poll_at time).world), 3 ≤ entry.2.retry_count →
      entry.2.timestamp + RETRY_TIMEOUT_MS ≤ time) : InTime c (poll_at time) where
  resumes resuming := resuming.elim
  steady := unfaltering_at reachable time made
  old _ _ pid message stored := old (pid, message) (mem_iter.mpr stored)

theorem timed_out_late :
    Runs.Along step (fun s (call : Call .v3) => Patient s.1 s.2 call) begun (retrying ++ [poll_at 20000]) := by
  have quiet : ∀ {c : Client .v3} {call : Call .v3}, ResumesOnly Resumable c call → call.op ≠ .poll → InTime c call :=
    fun resumes other => ⟨resumes, fun polls => absurd polls other, fun polls => absurd polls other⟩
  refine timed_out _ _ _ ⟨quiet (fun _ pid message stored => ?_) fun polls => (by cases polls),
    quiet (fun resuming => resuming.elim) fun polls => (by cases polls), ?_, ?_, ?_, ?_, trivial⟩
  · cases (AList.lookup_empty pid).symm.trans stored
  · exact in_time_at (begun_reachable (retrying.take 2)) 5000 (by decide +kernel) (by decide +kernel)
  · exact in_time_at (begun_reachable (retrying.take 3)) 10000 (by decide +kernel) (by decide +kernel)
  · exact in_time_at (begun_reachable (retrying.take 4)) 15000 (by decide +kernel) (by decide +kernel)
  · exact in_time_at (begun_reachable retrying) 20000 (by decide +kernel) (by decide +kernel)

/-- It is given up a millisecond after it was sent for the last time. -/
theorem given_up_early : ¬ ∀ (world : World V3.Packet MqttProtoError) (config : ClientConfig) (calls : List (Call .v3)),
    Runs.Along step (fun s call => Patient s.1 s.2 call) (start (v := .v3) world () config) calls := by
  intro patient
  have run := patient (.obliging true []) { clean_session := false } (retrying ++ [poll_at 15001])
  have last := (Runs.along_append.mp run).2.1
  have given := gives_up_at (c := (Runs.run step begun retrying).2) 15001 (by decide +kernel)
  have waited := (last .default given).2 (.retry, 15000) (by decide +kernel)
  exact absurd waited (by decide)

end

end Masaka.GivenUp
