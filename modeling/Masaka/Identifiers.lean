import Masaka.Operations
import Masaka.Wire

/-!
Packet identifiers in use. The counter does not look at the tables, so that an
identifier is in use when it is handed out exactly if its record has outlived a
whole round of the counter.
-/
namespace Masaka.Identifiers
open Effect Tables Runs MqttProtocolHandler LawfulHandler

/-- The identifier has a record in one of the three tables. -/
def InUse (s : InMemorySession) (pid : Pid) : Prop :=
  pid ∈ s.pending_publishes ∨ pid ∈ s.pending_pubrels ∨ pid ∈ s.subscriptions

/-- The identifiers in use. -/
def used (s : InMemorySession) : List Pid := s.pending_publishes.keys ++ s.pending_pubrels.keys ++ s.subscriptions.keys

theorem mem_used {s : InMemorySession} {pid : Pid} : pid ∈ used s ↔ InUse s pid := by
  simp [used, InUse, AList.mem_keys]

/-- How many identifiers were handed out since this one. -/
def age (handed : List Pid) (pid : Pid) : Nat := handed.reverse.idxOf pid

theorem age_last (handed : List Pid) (pid : Pid) : age (handed ++ [pid]) pid = 0 := by
  simp [age]
theorem age_older (handed : List Pid) {pid last : Pid} (other : pid ≠ last) :
    age (handed ++ [last]) pid = age handed pid + 1 := by
  simp [age, List.idxOf_cons_ne _ other.symm]

/-- The counter goes around in 65535 steps. -/
theorem next_iterate (n : Nat) (pid : Pid) : (Pid.next^[n] pid).value = (pid.value - 1 + n) % 65535 + 1 := by
  have := pid.pos
  have := pid.bound
  induction n with
  | zero => simp only [Function.iterate_zero, id]; omega
  | succ n ih => rw [Function.iterate_succ_apply', Pid.next_value, ih]; omega
theorem next_iterate_ne {n : Nat} (pid : Pid) (some : 0 < n) (few : n < 65535) : Pid.next^[n] pid ≠ pid := by
  intro back
  have value := next_iterate n pid
  rw [back] at value
  have := pid.pos
  have := pid.bound
  omega

/-- The counter has gone on from every identifier in use by as many steps as identifiers were handed out. -/
def Counted {P : Type} (v : View P) : Prop :=
  ∀ pid, InUse v.session pid → Pid.next^[age (handed v.log) pid + 1] pid = v.session.next_pid

theorem Counted.shrink {P : Type} {v v' : View P} (counted : Counted v) (same : handed v'.log = handed v.log)
    (next : v'.session.next_pid = v.session.next_pid) (used : ∀ pid, InUse v'.session pid → InUse v.session pid) :
    Counted v' := by
  intro pid in_use
  rw [same, next]
  exact counted pid (used pid in_use)

theorem Counted.hand_out {P : Type} {v v' : View P} {last : Pid} (counted : Counted v)
    (more : handed v'.log = handed v.log ++ [last]) (counter : last = v.session.next_pid) (next : v'.session.next_pid = last.next)
    (used : ∀ pid, InUse v'.session pid → InUse v.session pid ∨ pid = last) : Counted v' := by
  intro pid in_use
  rw [more, next]
  by_cases same : pid = last
  · subst same
    rw [age_last]
    rfl
  · have before := counted pid ((used pid in_use).resolve_right same)
    rw [age_older _ same, Function.iterate_succ_apply', before, counter]

/-- A record under the identifier that was handed out last. -/
theorem Counted.add {P : Type} {v v' : View P} {last : Pid} (counted : Counted v) (same : handed v'.log = handed v.log)
    (newest : (handed v.log).getLast? = some last) (counter : v.session.next_pid = last.next)
    (next : v'.session.next_pid = v.session.next_pid)
    (used : ∀ pid, InUse v'.session pid → InUse v.session pid ∨ pid = last) : Counted v' := by
  intro pid in_use
  rw [same, next]
  by_cases here : pid = last
  · subst here
    obtain ⟨older, split⟩ := List.getLast?_eq_some_iff.mp newest
    rw [split, age_last, counter]
    rfl
  · exact counted pid ((used pid in_use).resolve_right here)

/-! ### Acts -/

/-- The identifier that an act puts to use. -/
def uses {P : Type} : Act P → Option Pid
  | .accept pid _ | .add pid _ _ => some pid
  | _ => none

section
variable {H P E : Type} [MqttProtocolHandler H P E] [LawfulHandler H P E] {config : ClientConfig} {grant : Grant}
  {v : View P}

/-- The records after an act are those before it, except for one that it makes. -/
theorem in_use_after {act : Act P} (allowed : act.Allowed H config grant v) {pid : Pid}
    (used : InUse (act.session v.session) pid) : InUse v.session pid ∨ uses act = some pid := by
  have subscriptions_only : ∀ s : InMemorySession, SessionState.untouched s = SessionState.untouched v.session →
      InUse s pid → InUse v.session pid ∨ pid ∈ s.subscriptions := by
    intro s same used
    have publishes : s.pending_publishes = v.session.pending_publishes := congrArg (·.2.1) same
    have pubrels : s.pending_pubrels = v.session.pending_pubrels := congrArg (·.2.2) same
    rcases used with publish | pubrel | subscription
    · exact .inl (.inl (publishes ▸ publish))
    · exact .inl (.inr (.inl (pubrels ▸ pubrel)))
    · exact .inr subscription
  cases act with
  | transmit | note | state | link => exact .inl used
  | hand_out => exact .inl used
  | accept taken message =>
    rcases used with publish | others
    · exact ((AList.mem_insert _).mp publish).symm.imp .inl fun same => by rw [same]; rfl
    · exact .inl (.inr others)
  | complete taken =>
    rcases used with publish | others
    · exact .inl (.inl (AList.mem_erase.mp publish).2)
    · exact .inl (.inr others)
  | retry taken message =>
    obtain ⟨old, stored, -⟩ := allowed
    rcases used with publish | others
    · rcases (AList.mem_insert _).mp publish with rfl | old
      · exact .inl (.inl (mem_iff_lookup.mpr ⟨_, stored⟩))
      · exact .inl (.inl old)
    · exact .inl (.inr others)
  | release taken frame events rest =>
    rcases used with publish | pubrel | subscription
    · exact .inl (.inl (AList.mem_erase.mp publish).2)
    · rcases (AList.mem_insert _).mp pubrel with rfl | old
      · exact .inl (.inl allowed.2.1)
      · exact .inl (.inr (.inl old))
    · exact .inl (.inr (.inr subscription))
  | finish taken =>
    rcases used with publish | pubrel | subscription
    · exact .inl (.inl publish)
    · exact .inl (.inr (.inl (AList.mem_erase.mp pubrel).2))
    · exact .inl (.inr (.inr subscription))
  | add taken topic_filter qos =>
    refine (subscriptions_only _ (SessionState.add_subscription_untouched ..) used).elim .inl fun subscription => ?_
    by_cases same : pid = taken
    · exact .inr (by rw [same]; rfl)
    · obtain ⟨record, stored⟩ := mem_iff_lookup.mp subscription
      have old := (SessionState.add_subscription_lookup taken topic_filter qos v.session same).symm.trans stored
      exact .inl (.inr (.inr (mem_iff_lookup.mpr ⟨record, old⟩)))
  | confirm taken codes =>
    refine .inl ((subscriptions_only _ (SessionState.confirm_subscription_untouched ..) used).elim id fun subscription => ?_)
    obtain ⟨record, stored⟩ := mem_iff_lookup.mp subscription
    have same := SessionState.confirm_subscription_filters taken codes v.session pid
    rw [show (SessionState.confirm_subscription taken codes v.session).2.subscriptions.lookup pid = _ from stored] at same
    obtain ⟨old, found, -⟩ := Option.map_eq_some_iff.mp same.symm
    exact .inr (.inr (mem_iff_lookup.mpr ⟨old, found⟩))
  | remove order topic_filter =>
    refine .inl ((subscriptions_only _ (SessionState.remove_subscription_untouched ..) used).elim id fun subscription => ?_)
    obtain ⟨record, stored⟩ := mem_iff_lookup.mp subscription
    rcases SessionState.remove_subscription_lookup topic_filter order v.session pid with same | ⟨gone, -⟩
    · exact .inr (.inr (mem_iff_lookup.mpr ⟨record, same.symm.trans stored⟩))
    · cases gone.symm.trans stored
  | clear => rcases used with publish | pubrel | subscription <;> contradiction

theorem counted_after {act : Act P} (allowed : act.Allowed H config grant v) (counted : Counted v) :
    Counted (act.after v) := by
  have old : ∀ {pid}, uses act = none → InUse (act.session v.session) pid → InUse v.session pid := fun none used =>
    (in_use_after allowed used).resolve_right (by rw [none]; simp)
  -- Acts that hand out nothing and make no record.
  have other : act.takes = none → (act.session v.session).next_pid = v.session.next_pid → uses act = none →
      Counted (act.after v) := fun nothing next none => by
    refine counted.shrink ?_ next fun _ => old none
    simp [Act.after, allowed.handed, nothing]
  cases act with
  | hand_out pid => exact counted.hand_out (handed_append _ _) allowed.2 (by rw [allowed.2]; rfl) fun _ used => .inl (old rfl used)
  | accept pid message =>
    refine counted.hand_out (handed_append _ _) allowed.2.1 (by rw [allowed.2.1]; rfl) fun p used => ?_
    exact (in_use_after allowed used).imp_right fun same => (Option.some.inj same).symm
  | add pid topic_filter qos =>
    refine counted.add (by simp [Act.after, Act.events]) allowed.2.2.1 allowed.2.2.2
      (congrArg (·.1) (SessionState.add_subscription_untouched ..)) fun p used => ?_
    exact (in_use_after allowed used).imp_right fun same => (Option.some.inj same).symm
  | clear => exact fun pid used => by rcases used with publish | pubrel | subscription <;> contradiction
  | confirm pid codes => exact other rfl (congrArg (·.1) (SessionState.confirm_subscription_untouched ..)) rfl
  | remove order topic_filter => exact other rfl (congrArg (·.1) (SessionState.remove_subscription_untouched ..)) rfl
  | transmit | release | note | complete | retry | finish | state | link => exact other rfl rfl rfl

/-- The records of the first session that the second one still has under the same
    identifier are the same messages and filters. -/
def Spared (s s' : InMemorySession) (pid : Pid) : Prop :=
  (∀ message, s'.pending_publishes.lookup pid = some message →
    ∃ old, s.pending_publishes.lookup pid = some old ∧ message.SameAs old) ∧
  (∀ record, s'.subscriptions.lookup pid = some record →
    ∃ old, s.subscriptions.lookup pid = some old ∧ record.topic_filter = old.topic_filter)

theorem Spared.refl (s : InMemorySession) (pid : Pid) : Spared s s pid :=
  ⟨fun message stored => ⟨message, stored, rfl⟩, fun record stored => ⟨record, stored, rfl⟩⟩
theorem Spared.trans {s s' s'' : InMemorySession} {pid : Pid} (first : Spared s s' pid) (second : Spared s' s'' pid) :
    Spared s s'' pid := by
  constructor
  · intro message stored
    obtain ⟨middle, stored', same⟩ := second.1 message stored
    obtain ⟨old, stored'', same'⟩ := first.1 middle stored'
    exact ⟨old, stored'', same.trans same'⟩
  · intro record stored
    obtain ⟨middle, stored', same⟩ := second.2 record stored
    obtain ⟨old, stored'', same'⟩ := first.2 middle stored'
    exact ⟨old, stored'', same.trans same'⟩

/-- An act replaces no record but that of the identifier that the call may take. -/
theorem spared_by {act : Act P} (allowed : act.Allowed H config grant v) {pid : Pid}
    (other : grant.identifier ≠ some pid) : Spared v.session (act.session v.session) pid := by
  constructor
  · intro message stored
    refine (allowed.pending stored).resolve_left fun same => other ?_
    subst same
    exact allowed.1
  · intro record stored
    cases act with
    | add taken topic_filter qos =>
      have different : pid ≠ taken := fun same => other (same ▸ allowed.1)
      exact ⟨record, (SessionState.add_subscription_lookup taken topic_filter qos v.session different).symm.trans stored, rfl⟩
    | confirm taken codes =>
      have same := SessionState.confirm_subscription_filters taken codes v.session pid
      rw [show (SessionState.confirm_subscription taken codes v.session).2.subscriptions.lookup pid = _ from stored]
        at same
      obtain ⟨old, found, filter⟩ := Option.map_eq_some_iff.mp same.symm
      exact ⟨old, found, filter.symm⟩
    | remove order topic_filter =>
      rcases SessionState.remove_subscription_lookup topic_filter order v.session pid with same | ⟨gone, -⟩
      · exact ⟨record, same.symm.trans stored, rfl⟩
      · cases gone.symm.trans stored
    | clear => cases (AList.lookup_empty pid).symm.trans stored
    | _ => exact ⟨record, stored, rfl⟩

end

/-! ### Runs -/

section
variable [Codec V3.Packet MqttProtoError] [Codec V5.Packet ErrorV5] {v : Version}

theorem reachable_counted {c : Client v} (reachable : c.Reachable) : Counted c.view :=
  reachable.invariant (I := fun _ view => Counted view)
    (fun _ _ pid used => by rcases used with publish | pubrel | subscription <;> contradiction)
    (fun _ _ _ counted => counted) fun _ _ _ _ allowed counted => counted_after allowed counted

/-- Fewer than 65534 identifiers were handed out since that of any record. -/
def Recent (c : Client v) : Prop := ∀ pid, InUse c.session_state pid → age (handed c.protocol_engine.log) pid + 1 < 65535

instance (c : Client v) : Decidable (Recent c) :=
  decidable_of_iff (∀ pid ∈ used c.session_state, age (handed c.protocol_engine.log) pid + 1 < 65535)
    (by simp [Recent, mem_used])

/-- What `next_pid` returns is not in use. -/
def Fresh (c : Client v) : Prop := ¬ InUse c.session_state (SessionState.next_pid c.session_state).1

theorem fresh_of_recent {c : Client v} (reachable : c.Reachable) (recent : Recent c) : Fresh c := fun used =>
  next_iterate_ne _ (Nat.succ_pos _) (recent _ used) (reachable_counted reachable _ used)

/-- A call takes no other identifier than the next one. -/
theorem handed_out_next {c : Client v} (idle : c.Idle) {call : Call v} {pid : Pid}
    (given : .handed_out pid ∈ c.events call) : pid = c.session_state.next_pid := by
  obtain ⟨-, -, acts, ⟨allowed, -⟩, events⟩ := c.call_path idle call
  rw [events] at given
  obtain ⟨act, member, given⟩ := List.mem_flatMap.mp given
  obtain ⟨view, allowed⟩ := along_mem allowed member
  have listed : pid ∈ handed act.events := List.mem_filterMap.mpr ⟨_, given, rfl⟩
  rw [allowed.handed, Option.mem_toList] at listed
  exact (Option.some.inj (allowed.granted listed).1).symm

theorem spared_after {c : Client v} (idle : c.Idle) (call : Call v) {pid : Pid}
    (other : pid ≠ c.session_state.next_pid) : Spared c.session_state (c.after call).session_state pid := by
  refine Client.after_invariant (I := fun view => Spared c.session_state view.session pid) idle
    (fun _ _ spared => spared) (fun view act allowed spared => ?_) (Spared.refl _ _)
  exact spared.trans (spared_by allowed fun same => other (Option.some.inj same).symm)

/-- As long as every record is recent, no identifier in use is handed out, and no
    call replaces the record of an earlier request. -/
theorem identifiers_fresh (world : World v.Packet v.Error) (setup : v.Setup) (config : ClientConfig)
    (calls : List (Call v))
    (recent : Along Client.after (fun c _ => Recent c) (MqttClient.new world (v.handler setup) config) calls) :
    Along Client.after (fun c call => Fresh c ∧ (∀ pid, .handed_out pid ∈ c.events call → ¬ InUse c.session_state pid) ∧
      ∀ pid, InUse c.session_state pid → Spared c.session_state (c.after call).session_state pid)
      (MqttClient.new world (v.handler setup) config) calls := by
  refine along_imp (I := Client.Reachable) (fun c call reachable _ => reachable.after call) ?_
    ⟨world, setup, config, [], rfl⟩ recent
  intro c call reachable recent
  have fresh := fresh_of_recent reachable recent
  refine ⟨fresh, fun pid given => ?_, fun pid used => ?_⟩
  · rw [handed_out_next reachable.idle given]
    exact fresh
  · exact spared_after reachable.idle call fun same => fresh (show InUse _ c.session_state.next_pid from same ▸ used)

end

/-! ### A run around the counter -/

section
local instance : Codec V3.Packet MqttProtoError := Wire.v3Codec
local instance : Codec V5.Packet ErrorV5 := Wire.v5Codec

/-- A client whose first message is pending. -/
def pending_first : List (Call .v3) :=
  [⟨.connect, .obliging true [.Connack ⟨false, 0⟩]⟩, ⟨.publish "a" [1] ⟨.Level1, false⟩, .obliging true []⟩]
def start : Client .v3 := MqttClient.new (.obliging true []) {} {}

theorem identifiers_fresh_pending : Along Client.after (fun c call => Fresh c ∧
    (∀ pid, .handed_out pid ∈ c.events call → ¬ InUse c.session_state pid) ∧
      ∀ pid, InUse c.session_state pid → Spared c.session_state (c.after call).session_state pid)
    start (pending_first ++ pending_first.tail) :=
  identifiers_fresh (v := .v3) _ () _ _ ⟨by decide, by decide, by decide, trivial⟩

/-- The state that unsubscribing leaves: the identifier is taken, whatever the transport does. -/
structure Waiting (c : Client .v3) (counter : Nat) : Prop where
  idle : c.Idle
  state : c.state.connection_state = .Connected
  link : c.protocol_engine.connected = true
  pending : Pid.default ∈ c.session_state.pending_publishes
  counter : c.session_state.next_pid.value = counter

theorem unsubscribe_waits {c : Client .v3} {counter : Nat} (waiting : Waiting c counter)
    (world : World V3.Packet MqttProtoError) :
    Waiting (c.after ⟨.unsubscribe "a", world⟩) (counter % 65535 + 1) := by
  suffices unsubscribed : wp (MqttClient.unsubscribe "a") (c.withWorld world) fun _ c' =>
      Waiting c' (counter % 65535 + 1) by
    rw [show c.after ⟨.unsubscribe "a", world⟩ = _ from exec_result_state (MqttClient.unsubscribe "a") _ _]
    exact unsubscribed
  have value : c.session_state.next_pid.next.value = counter % 65535 + 1 := by rw [Pid.next_value, waiting.counter]
  rw [MqttClient.unsubscribe, MqttClient.whenConnected, wp_bind, wp_get]
  simp only [show (c.withWorld world).state.connection_state = .Connected from waiting.state, ne_eq, not_true_eq_false,
    if_false]
  simp only [MqttProtocolEngine.unsubscribe, zoom_bind, zoom_get, zoom_ite, zoom_fail, zoom_ofExcept,
    Operations.zoom_first, zoom_pure, bind_assoc, pure_bind]
  rw [wp_bind, wp_get]
  simp only [MqttClient.engineSession_get, show (c.withWorld world).protocol_engine.connected = true from waiting.link,
    Bool.not_true, Bool.false_eq_true, if_false]
  simp only [bind_assoc, pure_bind]
  rw [wp_bind, wp, Operations.exec_next_pid]
  simp only [MqttProtocolHandler.create_unsubscribe_packet, V3Handler.create_unsubscribe_packet, List.isEmpty_cons,
    Bool.false_eq_true, if_false, ofExcept_ok, pure_bind]
  rw [wp_bind, wp_zoom]
  refine wp_mono (Sending.send_packet_spec _ (by exact waiting.idle)) fun r e sent => ?_
  have engine : Waiting (MqttClient.engine.set e (Operations.handed_out (c.withWorld world))) (counter % 65535 + 1) :=
    ⟨sent.idle (by exact waiting.idle), waiting.state, sent.frame.1.trans waiting.link, waiting.pending, value⟩
  cases r with
  | error halt => exact engine
  | ok _ =>
    have same := SessionState.remove_subscription_untouched "a" world.order
      (Operations.handed_out (c.withWorld world)).session_state
    have order : e.world.order = world.order := sent.frame.2.2.2.1
    rw [← order] at same
    refine ⟨engine.idle, engine.state, engine.link, ?_, ?_⟩
    · exact (congrArg (Pid.default ∈ ·.2.1) same).mpr engine.pending
    · exact (congrArg (·.1.value) same).trans engine.counter

/-- After that many more requests. -/
def requested (n : Nat) : Client .v3 :=
  Client.run (Client.run start pending_first) (List.replicate n ⟨.unsubscribe "a", .obliging true []⟩)

theorem start_reachable : (Client.run start pending_first).Reachable := ⟨_, (), _, _, rfl⟩

theorem requested_waits (n : Nat) : ∃ counter, Waiting (requested n) counter ∧ counter % 65535 = (2 + n) % 65535 := by
  induction n with
  | zero => exact ⟨2, ⟨start_reachable.idle, by decide, by decide, by decide, by decide⟩, rfl⟩
  | succ n ih =>
    obtain ⟨counter, waits, value⟩ := ih
    refine ⟨_, ?_, show (counter % 65535 + 1) % 65535 = _ by omega⟩
    rw [requested, List.replicate_succ', Client.run, run_append]
    exact unsubscribe_waits waits _

/-- When the counter comes around, it meets the record of the first message. -/
theorem counter_wraps : ¬ ∀ c : Client .v3, c.Reachable → Fresh c := by
  intro fresh
  have meets : ∀ n, (2 + n) % 65535 ≠ 1 := by
    intro n around
    obtain ⟨counter, waits, value⟩ := requested_waits n
    have first : (requested n).session_state.next_pid = .default := by
      refine Pid.ext_value ?_
      have bound := (requested n).session_state.next_pid.bound
      rw [waits.counter] at bound ⊢
      simp only [Pid.default]
      omega
    refine fresh (requested n) (start_reachable.run _) (.inl ?_)
    rw [SessionState.next_pid, first]
    exact waits.pending
  exact meets 65534 (by decide)

end

end Masaka.Identifiers
