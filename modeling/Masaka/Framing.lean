import Masaka.Operations
import Masaka.Wire

/-!
The framing of the byte stream. A packet that the transport takes only a part of
is given up, and the next packet is written after that part; so the stream stays
framed as long as a transport that has refused bytes takes no more of them.
-/
namespace Masaka.Framing
open Effect Tables Runs MqttProtocolHandler LawfulHandler Sending

section
variable {P : Type}

/-- The bytes that a write has handed over. -/
def taken : Event P → Bytes
  | .write bytes (some (.ok n)) => bytes.take n
  | _ => []

/-- The bytes that the transport has accepted. -/
def accepted (events : List (Event P)) : Bytes := events.flatMap taken

/-- The packets that were to be written. -/
def frames (events : List (Event P)) : List (Frame P) := events.filterMap fun
  | .queued frame => some frame
  | _ => none

/-- A write that failed, took no byte, or was dropped. -/
def Refused : Event P → Prop
  | .write _ answer => (refusal answer).isSome
  | _ => False

instance (event : Event P) : Decidable (Refused event) := by
  cases event <;> unfold Refused <;> infer_instance

@[simp] theorem accepted_nil : accepted ([] : List (Event P)) = [] := rfl
@[simp] theorem accepted_cons (event : Event P) (events : List (Event P)) :
    accepted (event :: events) = taken event ++ accepted events := rfl
@[simp] theorem accepted_append (events more : List (Event P)) :
    accepted (events ++ more) = accepted events ++ accepted more := List.flatMap_append
@[simp] theorem frames_append (events more : List (Event P)) : frames (events ++ more) = frames events ++ frames more :=
  List.filterMap_append

/-- At every moment the accepted bytes are those of the first packets, complete and in
    order, and perhaps a proper part of a later one. -/
def Stream (events : List (Event P)) : Prop := ∀ before, before <+: events → ∃ complete rest part,
  frames before = complete ++ rest ∧ accepted before = complete.flatMap Frame.bytes ++ part ∧
    (part = [] ∨ ∃ frame ∈ rest, part <+: frame.bytes ∧ part ≠ frame.bytes)

/-- The stream is framed, and nothing of a later packet is written after one was cut short. -/
structure Framed (events : List (Event P)) : Prop where
  stream : Stream events
  cut : ∀ before event between frame after, events = before ++ event :: between ++ .queued frame :: after →
    Refused event → accepted after = []

/-- No byte is accepted after a refusal. -/
def Halts (events : List (Event P)) : Prop := events.Pairwise fun event later => Refused event → taken later = []

/-- Every packet has been written completely. -/
structure Whole (events : List (Event P)) : Prop where
  bytes : accepted events = (frames events).flatMap Frame.bytes
  taken : ∀ event ∈ events, ¬ Refused event

theorem Halts.cut {events before after between : List (Event P)} {event : Event P} {frame : Frame P}
    (halts : Halts events) (split : events = before ++ event :: between ++ .queued frame :: after)
    (refused : Refused event) : accepted after = [] := by
  rw [split, Halts, List.append_assoc, List.pairwise_append] at halts
  refine List.flatMap_eq_nil_iff.mpr fun later member => ?_
  exact (List.pairwise_cons.mp halts.2.1).1 later (by simp [member]) refused

theorem prefix_of_append {α : Type} {l a b : List α} (start : l <+: a ++ b) :
    l <+: a ∨ ∃ more, l = a ++ more ∧ more <+: b := by
  rcases List.prefix_or_prefix_of_prefix start (List.prefix_append a b) with inside | ⟨more, rfl⟩
  · exact .inl inside
  · exact .inr ⟨more, rfl, (List.prefix_append_right_inj a).mp start⟩

theorem accepted_part {events more : List (Event P)} (start : events <+: more) (nothing : accepted more = []) :
    accepted events = [] := by
  obtain ⟨rest, rfl⟩ := start
  rw [accepted_append] at nothing
  exact (List.append_eq_nil_iff.mp nothing).1

/-- Events that hand over nothing. -/
theorem Stream.quiet {events more : List (Event P)} (stream : Stream events) (nothing : accepted more = []) :
    Stream (events ++ more) := by
  intro before start
  rcases prefix_of_append start with inside | ⟨first, rfl, inside⟩
  · exact stream before inside
  · obtain ⟨complete, rest, part, listed, bytes, proper⟩ := stream events (List.prefix_refl _)
    refine ⟨complete, rest ++ frames first, part, ?_, ?_, ?_⟩
    · rw [frames_append, listed, List.append_assoc]
    · rw [accepted_append, bytes, accepted_part inside nothing, List.append_nil]
    · exact proper.imp_right (Exists.imp fun _ => And.imp_left (List.mem_append_left _))
theorem Halts.quiet {events more : List (Event P)} (halts : Halts events) (nothing : accepted more = []) :
    Halts (events ++ more) := by
  have none : ∀ event ∈ more, taken event = [] := List.flatMap_eq_nil_iff.mp nothing
  refine List.pairwise_append.mpr ⟨halts, ?_, fun _ _ later member _ => none later member⟩
  exact List.pairwise_of_forall_mem_list fun _ _ later member _ => none later member

/-- A packet that is written after complete ones, at least in part. -/
theorem Stream.frame {events more : List (Event P)} {frame : Frame P} (stream : Stream events) (whole : Whole events)
    (only : ∀ before, before <+: more → before = [] ∨ frames before = [frame])
    (inside : ∀ before, before <+: more → accepted before <+: frame.bytes) : Stream (events ++ more) := by
  intro before start
  rcases prefix_of_append start with early | ⟨first, rfl, begun⟩
  · exact stream before early
  rw [frames_append, accepted_append, whole.bytes]
  rcases only first begun with rfl | written
  · exact ⟨frames events, [], [], by simp [frames], by simp, .inl rfl⟩
  rw [written]
  by_cases all : accepted first = frame.bytes
  · exact ⟨frames events ++ [frame], [], [], by simp, by simp [all], .inl rfl⟩
  · exact ⟨frames events, [frame], accepted first, rfl, rfl, .inr ⟨frame, by simp, inside first begun, all⟩⟩

/-! ### Writing -/

/-- Once it has refused bytes the transport takes no more. -/
def FailStop (tape : Tape) : Prop := ∀ n m, n ≤ m → (refusal (tape n)).isSome → (refusal (tape m)).isSome
/-- The transport takes no bytes. -/
def Refusing (tape : Tape) : Prop := ∀ n, (refusal (tape n)).isSome

theorem FailStop.later {tape : Tape} (stops : FailStop tape) : FailStop (Sending.later tape) :=
  fun n m order refused => stops (n + 1) (m + 1) (by omega) refused
theorem Refusing.fail_stop {tape : Tape} (refusing : Refusing tape) : FailStop tape := fun _ m _ _ => refusing m

theorem taken_wrote (bytes : Bytes) (n : Nat) : taken (wrote bytes (some (.ok n)) : Event P) = bytes.take n := by
  simp [taken, wrote, Except.map, List.take_eq_take_iff, Nat.min_comm]
theorem refused_wrote {bytes : Bytes} (left : bytes ≠ []) {answer : Answer Nat} :
    Refused (wrote bytes answer : Event P) ↔ (refusal answer).isSome := by
  have some_left : 0 < bytes.length := List.length_pos_iff.mpr left
  rcases answer with _ | _ | _ | n
  · rfl
  · rfl
  · simp [Refused, wrote, Except.map, refusal]
  · obtain ⟨m, least⟩ : ∃ m, min bytes.length (n + 1) = m + 1 := ⟨min bytes.length (n + 1) - 1, by omega⟩
    simp [Refused, wrote, Except.map, refusal, least]
theorem taken_refused {bytes : Bytes} {answer : Answer Nat} (refused : (refusal answer).isSome) :
    taken (wrote bytes answer : Event P) = [] := by
  rcases answer with _ | _ | _ | n
  · rfl
  · rfl
  · rw [taken_wrote, List.take_zero]
  · cases refused

/-- The accepted bytes at every moment of some writes are a part of the bytes to write. -/
def Parts (bytes : Bytes) (events : List (Event P)) : Prop := ∀ before, before <+: events → accepted before <+: bytes

theorem Parts.nil (bytes : Bytes) : Parts bytes ([] : List (Event P)) := fun before start => by
  rw [List.prefix_nil.mp start]
  exact List.nil_prefix
theorem Parts.more {bytes : Bytes} {n : Nat} {events : List (Event P)} (parts : Parts (bytes.drop n) events) :
    Parts bytes (wrote bytes (some (.ok n)) :: events) := by
  intro before start
  rcases before with _ | ⟨event, before⟩
  · exact List.nil_prefix
  · obtain ⟨rfl, inside⟩ := List.cons_prefix_cons.mp start
    have rest := (List.prefix_append_right_inj (bytes.take n)).mpr (parts before inside)
    rwa [List.take_append_drop, ← taken_wrote (P := P), ← accepted_cons] at rest

theorem writes_accepted {tape rest : Tape} {bytes : Bytes} {events : List (Event P)}
    (writes : Writes tape bytes events rest) :
    Parts bytes events ∧ accepted events = bytes ∧ (∀ event ∈ events, ¬ Refused event) ∧
      (FailStop tape → FailStop rest) := by
  induction writes with
  | done => exact ⟨.nil _, rfl, by simp, id⟩
  | @more tape rest bytes n events left answer _ ih =>
    obtain ⟨parts, all, none, stops⟩ := ih
    refine ⟨parts.more, ?_, ?_, fun stop => stops stop.later⟩
    · rw [accepted_cons, taken_wrote, all, List.take_append_drop]
    · refine List.forall_mem_cons.mpr ⟨?_, none⟩
      rw [refused_wrote left]
      simp [refusal]

theorem breaks_accepted {tape rest : Tape} {bytes : Bytes} {events : List (Event P)} {halt : Halt MqttError}
    (breaks : Breaks tape bytes events rest halt) :
    Parts bytes events ∧ Halts events ∧ (∃ event ∈ events, Refused event) ∧ (FailStop tape → Refusing rest) := by
  induction breaks with
  | @refused tape bytes halt left refused =>
    have stopped : (refusal (tape 0)).isSome := by rw [refused]; rfl
    refine ⟨fun before start => ?_, List.pairwise_singleton _ _, ?_, fun stops n => stops 0 (n + 1) (by omega) stopped⟩
    · rw [accepted_part start (by simp [taken_refused stopped])]
      exact List.nil_prefix
    · exact ⟨_, List.mem_singleton_self _, (refused_wrote left).mpr stopped⟩
  | @more tape rest bytes n events halt inside answer _ ih =>
    obtain ⟨parts, halts, ⟨event, member, refused⟩, stops⟩ := ih
    have left : bytes ≠ [] := by rintro rfl; simp at inside
    refine ⟨parts.more, List.pairwise_cons.mpr ⟨fun _ _ taken => ?_, halts⟩,
      ⟨event, List.mem_cons_of_mem _ member, refused⟩, fun stop => stops stop.later⟩
    rw [refused_wrote left] at taken
    simp [refusal] at taken

/-- Nothing is handed over to a transport that refuses everything. -/
theorem writes_refused {tape rest : Tape} {bytes : Bytes} {events : List (Event P)} (refusing : Refusing tape)
    (writes : Writes tape bytes events rest) : events = [] ∧ rest = tape := by
  cases writes with
  | done => exact ⟨rfl, rfl⟩
  | more _ answer _ => have := refusing 0; rw [answer] at this; cases this
theorem breaks_refused {tape rest : Tape} {bytes : Bytes} {events : List (Event P)} {halt : Halt MqttError}
    (refusing : Refusing tape) (breaks : Breaks tape bytes events rest halt) : accepted events = [] ∧ Refusing rest := by
  cases breaks with
  | refused _ refused =>
    exact ⟨by simp [taken_refused (refusing 0)], fun n => refusing (n + 1)⟩
  | more _ answer _ => have := refusing 0; rw [answer] at this; cases this

/-- The stream so far, and what the transport does from here on: either every packet
    is complete, or the transport has refused bytes and takes no more. -/
def Sound (events : List (Event P)) (tape : Tape) : Prop :=
  Stream events ∧ Halts events ∧ FailStop tape ∧
    (Whole events ∨ (∃ event ∈ events, Refused event) ∧ Refusing tape)

/-- Events that neither start nor continue a packet. -/
theorem Sound.quiet {events more : List (Event P)} {tape : Tape} (sound : Sound events tape)
    (quiet : ∀ event ∈ more, taken event = [] ∧ ¬ Refused event ∧ ∀ frame, event ≠ .queued frame) :
    Sound (events ++ more) tape := by
  obtain ⟨stream, halts, stops, state⟩ := sound
  have nothing : accepted more = [] := List.flatMap_eq_nil_iff.mpr fun event member => (quiet event member).1
  have none : frames more = [] := List.filterMap_eq_nil_iff.mpr fun event member => by
    have := (quiet event member).2.2
    cases event <;> first | rfl | exact absurd rfl (this _)
  refine ⟨stream.quiet nothing, halts.quiet nothing, stops, state.imp (fun whole => ?_) ?_⟩
  · refine ⟨by simp [nothing, none, whole.bytes], fun event member => ?_⟩
    exact (List.mem_append.mp member).elim (whole.taken event) fun later => (quiet event later).2.1
  · exact And.imp_left (Exists.imp fun _ => And.imp_left (List.mem_append_left _))

/-- The writes of a transmission, and how they end. -/
theorem transmission_writes {tape rest : Tape} {flush : Answer Unit} {frame : Frame P} {events : List (Event P)}
    {r : Except (Halt MqttError) Unit} (transmission : Transmission tape flush frame events rest r) :
    ∃ writes more, events = .queued frame :: writes ++ more ∧
      (∀ event ∈ more, taken event = [] ∧ ¬ Refused event ∧ ∀ frame, event ≠ .queued frame) ∧
      (Writes tape frame.bytes writes rest ∨ more = [] ∧ ∃ halt, Breaks tape frame.bytes writes rest halt) := by
  cases transmission with
  | complete writes _ => exact ⟨_, _, rfl, by simp [taken, Refused], .inl writes⟩
  | unflushed writes _ => exact ⟨_, _, rfl, by simp [taken, Refused], .inl writes⟩
  | broken breaks => exact ⟨_, [], (List.append_nil _).symm, by simp, .inr ⟨rfl, _, breaks⟩⟩

theorem frames_writes {writes : List (Event P)} (only : ∀ event ∈ writes, ∃ bytes answer, event = wrote bytes answer) :
    frames writes = [] := List.filterMap_eq_nil_iff.mpr fun event member => by
  obtain ⟨_, _, rfl⟩ := only event member
  rfl

/-- A packet is written, or a part of it. -/
theorem Sound.transmission {events more : List (Event P)} {tape rest : Tape} {flush : Answer Unit} {frame : Frame P}
    {r : Except (Halt MqttError) Unit} (sound : Sound events tape)
    (transmission : Transmission tape flush frame more rest r) : Sound (events ++ more) rest := by
  obtain ⟨stream, halts, stops, state⟩ := sound
  obtain ⟨writes, after, rfl, quiet, ends⟩ := transmission_writes transmission
  have only : ∀ event ∈ writes, ∃ bytes answer, event = wrote bytes answer :=
    ends.elim Writes.only fun broken => broken.2.elim fun _ => Breaks.only
  rw [← List.append_assoc]
  suffices sound : Sound (events ++ .queued frame :: writes) rest from sound.quiet quiet
  rcases state with whole | ⟨⟨event, member, refused⟩, refusing⟩
  · -- So far every packet is complete.
    have parts : Parts frame.bytes writes := ends.elim (fun all => (writes_accepted all).1)
      fun broken => broken.2.elim fun _ breaks => (breaks_accepted breaks).1
    have starts : ∀ before, before <+: .queued frame :: writes → before = [] ∨ frames before = [frame] := by
      intro before start
      rcases before with _ | ⟨event, before⟩
      · exact .inl rfl
      · obtain ⟨rfl, inside⟩ := List.cons_prefix_cons.mp start
        have none : frames before = [] := frames_writes fun event member => only event (inside.subset member)
        exact .inr (congrArg (frame :: ·) none)
    have streams : Stream (events ++ .queued frame :: writes) := by
      refine stream.frame whole starts fun before start => ?_
      rcases before with _ | ⟨event, before⟩
      · exact List.nil_prefix
      · obtain ⟨rfl, inside⟩ := List.cons_prefix_cons.mp start
        exact parts before inside
    have halting : Halts writes → Halts (events ++ .queued frame :: writes) := fun halts' =>
      List.pairwise_append.mpr ⟨halts, List.pairwise_cons.mpr ⟨fun _ _ refused => refused.elim, halts'⟩,
        fun event member _ _ refused => (whole.taken event member refused).elim⟩
    rcases ends with all | ⟨-, _, breaks⟩
    · obtain ⟨-, bytes, none, stops'⟩ := writes_accepted all
      refine ⟨streams, halting ?_, stops' stops, .inl ⟨?_, ?_⟩⟩
      · exact List.pairwise_of_forall_mem_list fun event member _ _ refused => (none event member refused).elim
      · have one : frames (.queued frame :: writes) = [frame] := congrArg (frame :: ·) (frames_writes only)
        rw [accepted_append, frames_append, one, whole.bytes, accepted_cons, bytes]
        simp [taken]
      · refine List.forall_mem_append.mpr ⟨whole.taken, List.forall_mem_cons.mpr ⟨id, none⟩⟩
    · obtain ⟨-, halts', ⟨event, member, refused⟩, stops'⟩ := breaks_accepted breaks
      exact ⟨streams, halting halts', (stops' stops).fail_stop,
        .inr ⟨⟨event, by simp [member], refused⟩, stops' stops⟩⟩
  · -- The transport takes nothing of the packet.
    have nothing : accepted writes = [] ∧ Refusing rest := by
      rcases ends with all | ⟨-, _, breaks⟩
      · obtain ⟨rfl, rfl⟩ := writes_refused refusing all
        exact ⟨rfl, refusing⟩
      · exact breaks_refused refusing breaks
    exact ⟨stream.quiet nothing.1, halts.quiet nothing.1, nothing.2.fail_stop,
      .inr ⟨⟨event, List.mem_append_left _ member, refused⟩, nothing.2⟩⟩

end

/-! ### Runs -/

section
variable {H P E : Type} [MqttProtocolHandler H P E] [LawfulHandler H P E]

/-- Every act keeps the stream sound that was started at the end of the log. -/
theorem sound_after {config : ClientConfig} {grant : Grant} {v : View P} {act : Act P} {log : List (Event P)}
    (allowed : act.Allowed H config grant v)
    (sound : ∃ events, v.log = log ++ events ∧ Sound events v.write) :
    ∃ events, (act.after v).log = log ++ events ∧ Sound events (act.after v).write := by
  obtain ⟨events, started, sound⟩ := sound
  refine ⟨events ++ act.events, by rw [← List.append_assoc, ← started]; rfl, ?_⟩
  cases act with
  | transmit frame more rest =>
    obtain ⟨⟨flush, r, transmission⟩, -⟩ := allowed
    exact sound.transmission transmission
  | release pid frame more rest =>
    obtain ⟨⟨flush, transmission⟩, -⟩ := allowed
    exact sound.transmission transmission
  | note event =>
    refine sound.quiet fun event' member => ?_
    rw [Act.events, List.mem_singleton] at member
    subst member
    cases event' <;> first | exact allowed.elim | exact ⟨rfl, id, fun _ same => by cases same⟩
  | _ => exact sound.quiet (by simp [Act.events, taken, Refused])

end

section
variable [Codec V3.Packet MqttProtoError] [Codec V5.Packet ErrorV5] {v : Version}

/-- The events since the client was in the given state. -/
def since (start c : Client v) : List (Event v.Packet) :=
  c.protocol_engine.log.drop start.protocol_engine.log.length

/-- The transport is fail-stop over the connection: during the call, and after an earlier call. -/
def StaysDown (start c : Client v) (call : Call v) : Prop :=
  FailStop call.world.write ∧ ((∃ event ∈ since start c, Refused event) → Refusing call.world.write)

/-- Over a connection whose transport is fail-stop, the stream stays framed. -/
theorem stream_framed {start : Client v} (reachable : start.Reachable) {calls : List (Call v)}
    (stays_down : Along Client.after (StaysDown start) start calls) : Framed (since start (start.run calls)) := by
  have kept := Runs.invariant (I := fun c : Client v => c.Idle ∧ ∃ events,
    c.protocol_engine.log = start.protocol_engine.log ++ events ∧ Stream events ∧ Halts events ∧
      (Whole events ∨ ∃ event ∈ events, Refused event)) (fun c call holds down => ?_) ?_ stays_down
  · obtain ⟨-, events, log, stream, halts, -⟩ := kept
    have same : since start (start.run calls) = events := by
      rw [since, show (start.run calls).protocol_engine.log = _ from log, List.drop_left]
    rw [same]
    exact ⟨stream, fun _ _ _ _ _ split refused => halts.cut split refused⟩
  · obtain ⟨idle, events, log, stream, halts, state⟩ := holds
    obtain ⟨idle', -, acts, path, -⟩ := c.call_path idle call
    have so_far : since start c = events := by rw [since, log, List.drop_left]
    rw [StaysDown, so_far] at down
    obtain ⟨events', log', stream', halts', -, state'⟩ := Path.invariant
      (I := fun view => ∃ events, view.log = start.protocol_engine.log ++ events ∧ Sound events view.write)
      (fun _ _ allowed sound => sound_after allowed sound) path
      ⟨events, log, stream, halts, down.1, state.imp_right fun refused => ⟨refused, down.2 refused⟩⟩
    exact ⟨idle', events', log', stream', halts', state'.imp_right And.left⟩
  · refine ⟨reachable.idle, [], (List.append_nil _).symm, fun before nothing => ?_, List.Pairwise.nil, .inl ⟨rfl, by simp⟩⟩
    rw [List.prefix_nil.mp nothing]
    exact ⟨[], [], [], rfl, rfl, .inl rfl⟩

end

/-! ### A packet that is cut short -/

section
local instance : Codec V3.Packet MqttProtoError := Wire.v3Codec
local instance : Codec V5.Packet ErrorV5 := Wire.v5Codec

def new_client : Client .v3 := MqttClient.new (.obliging true []) (Version.handler .v3 ()) {}

/-- A message whose packet is cut after three bytes, and another message. -/
def cut_short (next : World V3.Packet MqttProtoError) : List (Call .v3) :=
  [⟨.connect, .obliging true [.Connack ⟨false, 0⟩]⟩,
    ⟨.publish "a" [1] ⟨.Level0, false⟩,
      { World.obliging true [] with write := fun n => some (if n = 0 then .ok 3 else .error .ConnectionLost) }⟩,
    ⟨.publish "b" [2] ⟨.Level0, false⟩, next⟩]

theorem new_reachable : new_client.Reachable := ⟨_, (), _, [], rfl⟩

/-- The transport is down after the cut. -/
def dead_link : World V3.Packet MqttProtoError := { World.obliging true [] with write := fun _ => some (.error .ConnectionLost) }

theorem cut_stays_down : Along Client.after (StaysDown new_client) new_client (cut_short dead_link) := by
  refine ⟨⟨?_, ?_⟩, ⟨?_, ?_⟩, ⟨?_, ?_⟩, trivial⟩
  · intro _ _ _ refused; cases refused
  · rintro ⟨_, member, _⟩; cases member
  · rintro (_ | n) (_ | m) order refused
    · cases refused
    · rfl
    · omega
    · rfl
  · intro refused
    exact absurd refused (by decide +kernel)
  · intro _ _ _ _; rfl
  · intro _ _; rfl

theorem stream_framed_down : Framed (since new_client (new_client.run (cut_short dead_link))) :=
  stream_framed new_reachable cut_stays_down

/-- The next message is written in the middle of the packet that was cut short. -/
theorem stream_broken : ¬ ∀ (start : Client .v3) (calls : List (Call .v3)), start.Reachable →
    Framed (since start (start.run calls)) := by
  intro framed
  let events := since new_client (new_client.run (cut_short (.obliging true [])))
  let frame : Frame V3.Packet := ⟨.Publish ⟨false, .Level0, false, "b", [2]⟩, [0x30, 4, 0, 1, 98, 2]⟩
  have split : events = events.take 10 ++ .write [1, 97, 1] (some (.error .ConnectionLost)) :: [] ++
      .queued frame :: events.drop 12 := by decide +kernel
  have nothing := (framed new_client _ new_reachable).cut _ _ _ _ _ split rfl
  exact absurd nothing (by decide +kernel)

end

end Masaka.Framing
