import Masaka.Attempts

/-!
Automatic reconnecting. A poll that finds the link of a connected client down makes
one attempt; when it fails, the client is disconnected, and later polls do nothing.
-/
namespace Masaka.Retrying
open Effect Runs MqttProtocolHandler MqttProtocolEngine Attempts

section
variable {H P E : Type}

theorem link_down {c : MqttClient H P E} (down : c.protocol_engine.world.is_connected = false) :
    c.protocol_engine.is_connected = false := by
  rw [MqttProtocolEngine.is_connected, down, Bool.and_false]

variable [MqttProtocolHandler H P E]

/-- A poll of a disconnected client without a link does nothing. -/
theorem poll_settled {c : MqttClient H P E} (gone : c.state.connection_state = .Disconnected)
    (down : c.protocol_engine.world.is_connected = false) : exec MqttClient.poll c = (.ok none, c) := by
  rw [MqttClient.poll, exec_bind, exec_get]
  simp only [link_down down, gone, Bool.not_false, if_true, reduceCtorEq, decide_false, Bool.false_and, Bool.false_eq_true,
    if_false, ne_eq, not_true_eq_false]
  rfl

/-- A poll that finds the link of a connected client down begins an attempt, if it may. -/
theorem poll_delays {c : MqttClient H P E} (connected : c.state.connection_state = .Connected)
    (down : c.protocol_engine.world.is_connected = false) (may : MayAttempt c) : wp MqttClient.poll c fun _ c' =>
      delays c'.protocol_engine.log = delays c.protocol_engine.log ++ [interval c] := by
  refine Reconnect.poll_seq (fun up => ?_) (fun _ _ _ => reconnect_delays may) (fun _ _ _ _ waits => waits)
    (fun _ waits => waits) (fun c' waits => ?_) (fun _ untried _ => ?_) fun _ settled => ?_
  · cases (link_down down).symm.trans up
  · exact (congrArg (·.2.2.2) (poll_connected_untallied c')).trans waits
  · exact absurd ⟨connected, may.1⟩ untried
  · cases connected.symm.trans settled

end

section
variable [Codec V3.Packet MqttProtoError] [Codec V5.Packet ErrorV5] {v : Version}

/-- The poll begins an attempt to reconnect. -/
def Attempted (c : Client v) (world : World v.Packet v.Error) : Prop := delays (c.events ⟨.poll, world⟩) ≠ []

instance (c : Client v) (world : World v.Packet v.Error) : Decidable (Attempted c world) :=
  inferInstanceAs (Decidable (_ ≠ _))

/-- The poll has found the link down and made an attempt, which failed. -/
structure Fails (c : Client v) (world : World v.Packet v.Error) : Prop where
  down : world.is_connected = false
  attempted : Attempted c world
  failed : (c.call ⟨.poll, world⟩).1 = .ok (.event (some .Disconnected))

def polled (c : Client v) (world : World v.Packet v.Error) : Client v := c.after ⟨.poll, world⟩

/-- The client is disconnected, and as long as the link is down no poll makes an attempt. -/
def Settled (c : Client v) : Prop :=
  c.state.connection_state = .Disconnected ∧ ∀ world, world.is_connected = false → ¬ Attempted c world

/-- After as many failed attempts as there may be before the last one, the next poll makes
    another attempt; and the client settles only after that many. -/
def KeepsTrying (c : Client v) : Prop := ∀ worlds, Along polled Fails c worlds →
  (c.config.reconnect.max_attempts = 0 ∨ worlds.length < c.config.reconnect.max_attempts.toNat →
    ∀ world, world.is_connected = false → Attempted (run polled c worlds) world) ∧
  (Settled (run polled c worlds) →
    c.config.reconnect.max_attempts ≠ 0 ∧ c.config.reconnect.max_attempts.toNat ≤ worlds.length)

theorem settled_attempts {c : Client v} (gone : c.state.connection_state = .Disconnected) {world : World v.Packet v.Error}
    (down : world.is_connected = false) : ¬ Attempted c world := by
  have ran : exec MqttClient.poll (c.withWorld world) = (.ok none, c.withWorld world) := poll_settled gone down
  have same : (c.after ⟨.poll, world⟩).protocol_engine.log = c.protocol_engine.log := by
    rw [c.after_poll, ran]
    rfl
  intro attempted
  rw [Attempted, Client.events, same, List.drop_length] at attempted
  exact attempted rfl

/-- The next poll of a connected client whose link is down makes an attempt exactly if there may be one. -/
theorem attempted_iff {c : Client v} (idle : c.Idle) (connected : c.state.connection_state = .Connected)
    (enabled : c.config.reconnect.enabled = true) {world : World v.Packet v.Error} (down : world.is_connected = false) :
    Attempted c world ↔ Reconnect.AttemptsRemain c := by
  constructor
  · intro attempted
    rcases (call_tallied idle ⟨.poll, world⟩).begins with none | ⟨⟨-, remain⟩, -⟩
    · exact absurd none attempted
    · exact remain
  · intro remain
    have waits := poll_delays (c := c.withWorld world) connected down ⟨enabled, remain⟩
    rw [wp, ← Client.after_poll] at waits
    change delays (c.after ⟨.poll, world⟩).protocol_engine.log = delays c.protocol_engine.log ++ [interval c] at waits
    rw [Client.call_log idle, delays_append] at waits
    rw [Attempted, List.append_cancel_left waits]
    exact List.cons_ne_nil _ _

/-- An attempt of a connected client fails when it has waited, and then the client is disconnected. -/
theorem attempt_fails {c : Client v} (reachable : c.Reachable) (connected : c.state.connection_state = .Connected)
    (enabled : c.config.reconnect.enabled = true) (remain : Reconnect.AttemptsRemain c) {world : World v.Packet v.Error}
    (down : world.is_connected = false) (waited : world.delay 0 = true) :
    Fails c world ∧ (polled c world).state.connection_state = .Disconnected := by
  obtain ⟨flag, valid⟩ := Reconnect.connected_flag reachable connected
  have refused := Reconnect.poll_refused (c := c.withWorld world) flag valid connected down enabled remain waited
  obtain ⟨outcome, gone, -⟩ := refused
  have attempted := (attempted_iff reachable.idle connected enabled down).mpr remain
  refine ⟨⟨down, attempted, ?_⟩, ?_⟩
  · exact (c.poll_returns world).trans (congrArg (Except.map Reply.event) outcome)
  · rw [polled, c.after_poll]
    exact gone

/-- A client that was connected keeps trying exactly if the one attempt that it makes is all it may make. -/
theorem keeps_trying_iff {c : Client v} (reachable : c.Reachable) (connected : c.state.connection_state = .Connected)
    (enabled : c.config.reconnect.enabled = true) :
    KeepsTrying c ↔ c.config.reconnect.max_attempts = 1 ∧ c.reconnect_attempt = 0 := by
  have idle : c.Idle := reachable.idle
  constructor
  · intro keeps
    let down : World v.Packet v.Error := .obliging false []
    have off : down.is_connected = false := rfl
    by_cases one : c.config.reconnect.max_attempts = 1
    · have first := (keeps [] trivial).1 (.inr (by rw [one]; exact Nat.one_pos)) down rfl
      have remain := (attempted_iff idle connected enabled off).mp first
      rw [Reconnect.AttemptsRemain, one] at remain
      refine ⟨one, ?_⟩
      rcases remain with zero | less
      · cases zero
      · exact UInt32.toNat_inj.mp (Nat.lt_one_iff.mp (UInt32.lt_iff_toNat_lt.mp less))
    · exfalso
      have more : c.config.reconnect.max_attempts = 0 ∨ 1 < c.config.reconnect.max_attempts.toNat := by
        by_cases zero : c.config.reconnect.max_attempts = 0
        · exact .inl zero
        · have not_one : c.config.reconnect.max_attempts.toNat ≠ 1 := fun same => one (UInt32.toNat_inj.mp same)
          have not_zero : c.config.reconnect.max_attempts.toNat ≠ 0 := fun same => zero (UInt32.toNat_inj.mp same)
          omega
      have first := (keeps [] trivial).1 (more.imp_right Nat.lt_of_succ_lt) down rfl
      have remain := (attempted_iff idle connected enabled off).mp first
      -- After the first failure no poll makes an attempt.
      obtain ⟨fails, gone⟩ := attempt_fails reachable connected enabled remain off rfl
      exact settled_attempts gone rfl ((keeps [down] ⟨fails, trivial⟩).1 more down rfl)
  · rintro ⟨one, none⟩ worlds along
    rw [one]
    have remain : Reconnect.AttemptsRemain c := .inr (by rw [one, none]; decide)
    cases worlds with
    | nil =>
      refine ⟨fun _ world down => (attempted_iff idle connected enabled down).mpr remain, fun settled => ?_⟩
      cases connected.symm.trans settled.1
    | cons world rest =>
      refine ⟨fun more => ?_, fun _ => ⟨by decide, Nat.succ_le_succ (Nat.zero_le _)⟩⟩
      rcases more with zero | less
      · cases zero
      · exact absurd less (by simp)

end

/-! ### Two polls -/

section
local instance : Codec V3.Packet MqttProtoError := Wire.v3Codec
local instance : Codec V5.Packet ErrorV5 := Wire.v5Codec

/-- A new client whose CONNECT was accepted, and which may make so many attempts. -/
def accepted (max_attempts : UInt32) : Client .v3 :=
  Client.run (MqttClient.new (.obliging true []) (Version.handler .v3 ()) { reconnect := { max_attempts := max_attempts } })
    [⟨.connect, .obliging true [.Connack ⟨false, 0⟩]⟩]

theorem accepted_reachable (max_attempts : UInt32) : (accepted max_attempts).Reachable := ⟨_, (), _, _, rfl⟩

theorem keeps_trying_once : KeepsTrying (accepted 1) ↔
    (accepted 1).config.reconnect.max_attempts = 1 ∧ (accepted 1).reconnect_attempt = 0 :=
  keeps_trying_iff (accepted_reachable 1) (by decide +kernel) (by decide +kernel)

/-- With no limit, the second poll makes no attempt. -/
theorem gives_up : ¬ ∀ c : Client .v3, c.Reachable → c.state.connection_state = .Connected →
    c.config.reconnect.enabled = true → KeepsTrying c := by
  intro keeps
  have keeps := keeps (accepted 0) (accepted_reachable 0) (by decide +kernel) (by decide +kernel)
  have fails : Fails (accepted 0) (.obliging false []) := ⟨rfl, by decide +kernel, by decide +kernel⟩
  have attempted := (keeps [.obliging false []] ⟨fails, trivial⟩).1 (.inl (by decide +kernel)) (.obliging false []) rfl
  exact absurd attempted (by decide +kernel)

end

end Masaka.Retrying
