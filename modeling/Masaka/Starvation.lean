import Masaka.KeepAlive
import Masaka.Retries

/-!
PUBRELs that wait for their PUBCOMP. A pass looks at the first ten of the table, always in
the same order, and stops when less than a second has passed since a packet was sent,
which the PUBREL that it sends itself sees to.
-/
namespace Masaka.Starvation
open Effect Tables Runs MqttProtocolHandler LawfulHandler MqttProtocolEngine Sending Retries
open KeepAlive (Works FixedForms)

section
variable {H P E : Type}

/-- A call of `handle_retries`, with how the surroundings behave during it. -/
structure Pass (P E : Type) where
  current_time : Nat
  world : World P E

/-- The engine and the session as a pass begins. -/
def entering (s : MqttProtocolEngine H P E × InMemorySession) (pass : Pass P E) :
    MqttProtocolEngine H P E × InMemorySession :=
  ({ s.1 with world := pass.world }, s.2)

/-- The identifier is among the first ten, and the clock readings taken after the PUBRELs before
    it are all more than a second before the time of the pass. -/
def Reaches (pids : List Pid) (pass : Pass P E) (pid : Pid) : Prop :=
  ∃ k < 10, pids[k]? = some pid ∧ ∀ j < k, pass.world.now j + 1000 < pass.current_time

/-- A transport that works carries each pass, which goes through the tables in the given order and comes
    more than a second after the last packet sent. -/
structure Suits (order : IterOrder Pid) (s : MqttProtocolEngine H P E × InMemorySession) (pass : Pass P E) : Prop where
  order : pass.world.order = order
  works : Works pass.world
  bounded : pass.current_time < 2 ^ 64
  spaced : s.1.last_packet_sent_time + 1000 < pass.current_time

/-- What the engine takes for the time of the last packet sent, after each packet that it sends. -/
def stamps (e : MqttProtocolEngine H P E) : Nat → Nat
  | 0 => e.last_packet_sent_time
  | n + 1 => e.world.now n

variable [MqttProtocolHandler H P E]

/-- A PUBREL is sent exactly if there is time for it and for all those before it. -/
theorem paced_iff {current_time : Nat} (bounded : current_time < 2 ^ 64) {pids sent : List Pid}
    {e e' : MqttProtocolEngine H P E} {r : Except (Halt MqttError) Unit} (paced : Paced current_time pids e sent r e')
    (done : r = .ok ()) (pid : Pid) :
    pid ∈ sent ↔ ∃ k : Nat, pids[k]? = some pid ∧ ∀ j ≤ k, stamps e j + 1000 < current_time := by
  induction paced with
  | done => simp
  | @skipped e _ first rest sent _ unready paced ih =>
    have late : ¬ stamps e 0 + 1000 < current_time := fun early => unready ((ready_iff bounded e).mpr early)
    rw [ih done]
    constructor
    · rintro ⟨k, -, times⟩
      exact absurd (times 0 (Nat.zero_le k)) late
    · rintro ⟨k, -, times⟩
      exact absurd (times 0 (Nat.zero_le k)) late
  | stopped _ _ _ => cases done
  | @next e e₁ _ first rest sent _ _ ready _ departs _ ih =>
    obtain ⟨-, last, now⟩ := departs.stamped rfl
    have shifted : ∀ j, stamps e₁ j = stamps e (j + 1) := by
      intro j
      cases j with
      | zero => exact last
      | succ j => exact congrFun now j
    rw [List.mem_cons, ih done]
    constructor
    · rintro (rfl | ⟨k, place, times⟩)
      · refine ⟨0, rfl, fun j zero => ?_⟩
        rw [Nat.le_zero.mp zero]
        exact (ready_iff bounded e).mp ready
      · refine ⟨k + 1, place, fun j upto => ?_⟩
        cases j with
        | zero => exact (ready_iff bounded e).mp ready
        | succ j =>
          rw [← shifted]
          exact times j (Nat.le_of_succ_le_succ upto)
    · rintro ⟨k, place, times⟩
      cases k with
      | zero => exact .inl (Option.some.inj place).symm
      | succ k =>
        refine .inr ⟨k, place, fun j upto => ?_⟩
        rw [shifted]
        exact times (j + 1) (Nat.succ_le_succ upto)

/-- The engine and the session that a pass leaves. -/
def after (s : MqttProtocolEngine H P E × InMemorySession) (pass : Pass P E) : MqttProtocolEngine H P E × InMemorySession :=
  (exec (handle_retries pass.current_time) (entering s pass)).2

variable [LawfulHandler H P E]

/-- The events are those of a PUBREL with the identifier, among others. -/
def Retransmits (H : Type) {P E : Type} [MqttProtocolHandler H P E] [LawfulHandler H P E] (events : List (Event P))
    (pid : Pid) : Prop := ∃ packet ∈ packets_sent events, shape (H := H) packet = .pubrel pid

theorem retransmits_append (events more : List (Event P)) (pid : Pid) :
    Retransmits H (events ++ more) pid ↔ Retransmits H events pid ∨ Retransmits H more pid := by
  simp only [Retransmits, packets_sent, List.filterMap_append, List.mem_append, or_and_right, exists_or]

/-- Nothing waits to be written, and only the PUBRELs are pending. -/
structure Waiting (pids : List Pid) (order : IterOrder Pid) (s : MqttProtocolEngine H P E × InMemorySession) : Prop where
  idle : s.1.write_queue = []
  publishes : s.2.pending_publishes = ∅
  pubrels : SessionState.pending_outgoing_pubrels order s.2 = pids

/-- A pass sends the PUBRELs that it reaches, and leaves everything pending. -/
theorem after_waiting (fixed : FixedForms H) {pids : List Pid} {order : IterOrder Pid}
    {s : MqttProtocolEngine H P E × InMemorySession} {pass : Pass P E} (waiting : Waiting pids order s)
    (suits : Suits order s pass) : Waiting pids order (after s pass) ∧ ∃ events,
      (after s pass).1.log = s.1.log ++ events ∧ ∀ pid, Retransmits H events pid ↔ Reaches pids pass pid := by
  have handles := handle_retries_spec pass.current_time (e := (entering s pass).1) waiting.idle s.2
  rw [wp] at handles
  change Handles pass.current_time (entering s pass).1 s.2 _ (after s pass).1 (after s pass).2 at handles
  have nothing : due pass.current_time (entering s pass).1.world.order s.2 = [] := by
    refine List.eq_nil_iff_forall_not_mem.mpr fun entry member => ?_
    have stored := (mem_due.mp (show (entry.1, entry.2) ∈ _ from member)).1
    rw [waiting.publishes, AList.lookup_empty] at stored
    cases stored
  generalize (exec (handle_retries pass.current_time) ((entering s pass).1, s.2)).1 = r at handles
  cases handles with
  | stopped series _ =>
    rw [nothing] at series
    cases series
  | @paced e₁ _ _ sent _ series counts paced =>
    rw [nothing] at series
    cases series
    have flows : Flows (entering s pass).1 := ⟨suits.works.write, suits.works.flush⟩
    obtain ⟨-, ⟨packets, events, made, log, wrote⟩, ends⟩ := paced.wrote flows
    obtain rfl := ends fun pid packet created => fixed.pubrel _ pid packet created
    have visited : releases (entering s pass).1.world.order s.2 = pids.take 10 := by
      rw [releases, show (entering s pass).1.world.order = order from suits.order, waiting.pubrels]
    rw [visited] at paced
    refine ⟨⟨paced.kept.idle waiting.idle, ?_, ?_⟩, events, log, fun pid => ?_⟩
    · refine iter_eq_nil (o := order) (List.eq_nil_iff_forall_not_mem.mpr fun entry member => ?_)
      have stored := mem_iter.mp (show (entry.1, entry.2) ∈ _ from member)
      rw [counts.lookup, waiting.publishes, AList.lookup_empty] at stored
      cases stored
    · rw [← waiting.pubrels]
      exact congrArg (fun table => (iter order table).map Prod.fst) (congrArg (·.2.1) counts.rest)
    have sends : Retransmits H events pid ↔ pid ∈ sent := by
      rw [Retransmits, wrote.sent]
      constructor
      · rintro ⟨packet, member, shaped⟩
        have listed : (.ok packet : Except E P) ∈ sent.map (create_pubrel_packet (entering s pass).1.handler) := by
          rw [made]
          exact List.mem_map_of_mem member
        obtain ⟨pid', member', created⟩ := List.mem_map.mp listed
        obtain ⟨packet', created', shaped'⟩ := LawfulHandler.pubrel (entering s pass).1.handler pid'
        cases created.symm.trans created'
        cases shaped.symm.trans shaped'
        exact member'
      · intro member
        obtain ⟨packet, created, shaped⟩ := LawfulHandler.pubrel (entering s pass).1.handler pid
        have listed : (.ok packet : Except E P) ∈ packets.map .ok := by
          rw [← made, ← created]
          exact List.mem_map_of_mem member
        obtain ⟨packet', member', same⟩ := List.mem_map.mp listed
        cases same
        exact ⟨packet, member', shaped⟩
    rw [sends, paced_iff suits.bounded paced rfl]
    constructor
    · rintro ⟨k, place, times⟩
      rw [List.getElem?_take] at place
      split at place
      · rename_i inside
        exact ⟨k, inside, place, fun j before => times (j + 1) before⟩
      · cases place
    · rintro ⟨k, inside, place, times⟩
      refine ⟨k, ?_, fun j upto => ?_⟩
      · rw [List.getElem?_take, if_pos inside]
        exact place
      · cases j with
        | zero => exact suits.spaced
        | succ j => exact times j upto

/-- The passes send the PUBRELs that one of them reaches. -/
theorem run_retransmits (fixed : FixedForms H) {pids : List Pid} {order : IterOrder Pid} {passes : List (Pass P E)}
    {s : MqttProtocolEngine H P E × InMemorySession} (waiting : Waiting pids order s)
    (along : Along after (Suits order) s passes) : ∃ events, (run after s passes).1.log = s.1.log ++ events ∧
      ∀ pid, Retransmits H events pid ↔ ∃ pass ∈ passes, Reaches pids pass pid := by
  induction passes generalizing s with
  | nil => exact ⟨[], (List.append_nil _).symm, fun pid => by simp [Retransmits, packets_sent]⟩
  | cons pass passes ih =>
    obtain ⟨waiting', events, log, sends⟩ := after_waiting fixed waiting along.1
    obtain ⟨more, log', sends'⟩ := ih waiting' along.2
    refine ⟨events ++ more, by rw [run_cons, log', log, List.append_assoc], fun pid => ?_⟩
    rw [retransmits_append, sends, sends', List.exists_mem_cons_iff]

/-- All that is pending is retransmitted in the passes. -/
def AllRetransmitted (s : MqttProtocolEngine H P E × InMemorySession) (passes : List (Pass P E)) : Prop :=
  ∀ pid ∈ s.2.pending_pubrels, Retransmits H ((run after s passes).1.log.drop s.1.log.length) pid

omit [MqttProtocolHandler H P E] [LawfulHandler H P E] in
/-- A pass reaches all of them exactly if it reaches the last one. -/
theorem all_reached_iff {pids : List Pid} (nodup : pids.Nodup) (some : pids ≠ []) (passes : List (Pass P E)) :
    (∀ pid ∈ pids, ∃ pass ∈ passes, Reaches pids pass pid) ↔ pids.length ≤ 10 ∧ ∃ pass ∈ passes,
      ∀ j, j + 1 < pids.length → pass.world.now j + 1000 < pass.current_time := by
  have positive : 0 < pids.length := List.length_pos_iff.mpr some
  constructor
  · intro reached
    obtain ⟨pass, member, k, inside, place, times⟩ := reached (pids.getLast some) (List.getLast_mem some)
    obtain ⟨within, same⟩ := List.getElem?_eq_some_iff.mp place
    have last : k = pids.length - 1 := by
      rw [List.getLast_eq_getElem] at same
      exact (nodup.getElem_inj_iff).mp same
    exact ⟨by omega, pass, member, fun j before => times j (by omega)⟩
  · rintro ⟨few, pass, member, times⟩ pid listed
    obtain ⟨k, within, rfl⟩ := List.getElem_of_mem listed
    refine ⟨pass, member, k, by omega, List.getElem?_eq_getElem within, fun j before => times j ?_⟩
    omega

/-- Passes retransmit all PUBRELs exactly if there are at most ten and in one of the passes the clock
    reads, after each that comes before the last, more than a second before the time of the pass. -/
theorem all_retransmitted_iff (fixed : FixedForms H) {order : IterOrder Pid} {s : MqttProtocolEngine H P E × InMemorySession}
    {passes : List (Pass P E)} (idle : s.1.write_queue = []) (nothing : s.2.pending_publishes = ∅)
    (some : 1 ≤ len s.2.pending_pubrels) (along : Along after (Suits order) s passes) : AllRetransmitted s passes ↔
      len s.2.pending_pubrels ≤ 10 ∧ ∃ pass ∈ passes, ∀ j, j + 1 < len s.2.pending_pubrels →
        pass.world.now j + 1000 < pass.current_time := by
  obtain ⟨events, log, sends⟩ := run_retransmits fixed ⟨idle, nothing, rfl⟩ along
  have listed : ∀ pid, pid ∈ s.2.pending_pubrels ↔ pid ∈ SessionState.pending_outgoing_pubrels order s.2 :=
    fun pid => mem_pubrels.symm
  have size : (SessionState.pending_outgoing_pubrels order s.2).length = len s.2.pending_pubrels := by
    rw [SessionState.pending_outgoing_pubrels, List.length_map, iter_length]
  have nonempty : SessionState.pending_outgoing_pubrels order s.2 ≠ [] := by
    intro empty
    rw [empty] at size
    rw [← size] at some
    exact absurd some (by simp)
  have nodup : (SessionState.pending_outgoing_pubrels order s.2).Nodup := iter_nodup order _
  rw [← size, ← all_reached_iff nodup nonempty, AllRetransmitted, log, List.drop_left]
  simp only [listed, sends]

end

/-! ### Two PUBRELs -/

section
local instance : Codec V3.Packet MqttProtoError := Wire.v3Codec

/-- An engine and a session with PUBRELs of the identifiers. -/
def pending (pids : List Pid) : MqttProtocolEngine V3Handler V3.Packet MqttProtoError × InMemorySession :=
  (.new (.obliging true []) {}, pids.foldl (fun s pid => (SessionState.store_outgoing_pubrel pid s).2) (.new 8))

def two : MqttProtocolEngine V3Handler V3.Packet MqttProtoError × InMemorySession :=
  pending [.default, Pid.default.next]

/-- A pass at a time, with what the clock shows throughout. -/
def pass_while (current_time shown : Nat) : Pass V3.Packet MqttProtoError :=
  ⟨current_time, { World.obliging true [] with now := fun _ => shown }⟩

/-- A pass at a time that the clock shows throughout. -/
def pass_at (current_time : Nat) : Pass V3.Packet MqttProtoError := pass_while current_time current_time

theorem v3_fixed : FixedForms (P := V3.Packet) (E := MqttProtoError) V3Handler :=
  ⟨fun _ => ⟨_, rfl⟩, fun _ _ _ _ => ⟨_, rfl⟩⟩

theorem suits_while {s : MqttProtocolEngine V3Handler V3.Packet MqttProtoError × InMemorySession} {current_time shown : Nat}
    (bounded : current_time < 2 ^ 64) (spaced : s.1.last_packet_sent_time + 1000 < current_time) :
    Suits (.same Pid) s (pass_while current_time shown) :=
  ⟨rfl, ⟨rfl, fun _ => rfl, fun _ => rfl⟩, bounded, spaced⟩

theorem suits_twice (shown : Nat) : Along after (Suits (.same Pid)) two [pass_at 2000, pass_while 4000 shown] :=
  ⟨suits_while (by decide) (by decide), suits_while (by decide) (by decide +kernel), trivial⟩

/-- Two passes do not send both, unless one of them comes late after what the clock shows. -/
theorem all_retransmitted_two : ¬ AllRetransmitted two [pass_at 2000, pass_at 4000] ∧
    AllRetransmitted two [pass_at 2000, pass_while 4000 2000] := by
  constructor
  · intro all
    obtain ⟨-, pass, member, times⟩ := (all_retransmitted_iff v3_fixed rfl rfl (by decide) (suits_twice 4000)).mp all
    have early := times 0 (by decide)
    rcases List.mem_pair.mp member with rfl | rfl
    · exact absurd early (by decide)
    · exact absurd early (by decide)
  · refine (all_retransmitted_iff v3_fixed rfl rfl (by decide) (suits_twice 2000)).mpr ⟨by decide, ?_⟩
    refine ⟨pass_while 4000 2000, List.mem_cons_of_mem _ List.mem_cons_self, fun j _ => ?_⟩
    change 2000 + 1000 < 4000
    decide

/-- The one that comes second is never sent. -/
theorem second_starves : ¬ ∀ (order : IterOrder Pid) (s : MqttProtocolEngine V3Handler V3.Packet MqttProtoError × InMemorySession)
    (passes : List (Pass V3.Packet MqttProtoError)), s.1.write_queue = [] → s.2.pending_publishes = ∅ →
    1 ≤ len s.2.pending_pubrels → passes.length = len s.2.pending_pubrels → Along after (Suits order) s passes →
      AllRetransmitted s passes := by
  intro fair
  have sent := fair (.same Pid) two [pass_at 2000, pass_at 4000] rfl rfl (by decide) rfl (suits_twice 4000)
    .default (by decide)
  obtain ⟨packet, member, shaped⟩ := sent
  have never : ∀ packet ∈ packets_sent
      ((run after two [pass_at 2000, pass_at 4000]).1.log.drop two.1.log.length),
      shape (H := V3Handler) packet ≠ .pubrel .default := by
    decide +kernel
  exact never packet member shaped

end

end Masaka.Starvation
