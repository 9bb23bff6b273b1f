import Masaka.Framing

/-!
The write loop. However the transport splits the writes, and whatever it refuses, a packet
is handed over byte by byte, once and in order, up to the first refusal; and nothing of it is
left on the write queue.
-/
namespace Masaka.WriteLoop
open Effect MqttProtocolHandler MqttProtocolEngine Sending Framing

section
variable {P : Type}

/-- The writes among the events. -/
def writes (events : List (Event P)) : List (Event P) := events.filter fun
  | .write _ _ => true
  | _ => false

/-- A call of the transport that was never answered. -/
def Unanswered : Event P → Prop
  | .write _ none => True
  | .flush none => True
  | _ => False

theorem writes_append (events more : List (Event P)) : writes (events ++ more) = writes events ++ writes more :=
  List.filter_append _ _

/-- Every write that hands over bytes takes at least one of them. -/
theorem writes_few {tape rest : Tape} {bytes : Bytes} {events : List (Event P)}
    (all : Writes tape bytes events rest) : events.length ≤ bytes.length := by
  induction all with
  | done => exact Nat.le_refl 0
  | @more tape rest bytes n events left _ _ ih =>
    have some : 0 < bytes.length := List.length_pos_iff.mpr left
    rw [List.length_drop] at ih
    rw [List.length_cons]
    omega

theorem breaks_few {tape rest : Tape} {bytes : Bytes} {events : List (Event P)} {halt : Halt MqttError}
    (breaks : Breaks tape bytes events rest halt) : events.length ≤ bytes.length := by
  induction breaks with
  | refused left _ => exact List.length_pos_iff.mpr left
  | more inside _ _ ih =>
    rw [List.length_drop] at ih
    rw [List.length_cons]
    omega

/-- A loop that is dropped waits for an answer. -/
theorem breaks_unanswered {tape rest : Tape} {bytes : Bytes} {events : List (Event P)}
    (breaks : Breaks tape bytes events rest .cut) : ∃ event ∈ events, Unanswered event := by
  generalize ended : (Halt.cut : Halt MqttError) = halt at breaks
  induction breaks with
  | @refused tape bytes halt left refused =>
    subst ended
    refine ⟨_, List.mem_singleton_self _, ?_⟩
    rcases answer : tape 0 with _ | err | _ | n
    · trivial
    · rw [answer] at refused; cases refused
    · rw [answer] at refused; cases refused
    · rw [answer] at refused; cases refused
  | more _ _ _ ih =>
    obtain ⟨event, member, unanswered⟩ := ih ended
    exact ⟨event, List.mem_cons_of_mem _ member, unanswered⟩

/-- A transmission makes no more writes than its packet has bytes. -/
theorem transmission_few {tape rest : Tape} {flush : Answer Unit} {frame : Frame P} {events : List (Event P)}
    {r : Except (Halt MqttError) Unit} (transmission : Transmission tape flush frame events rest r) :
    (writes events).length ≤ frame.bytes.length := by
  have few : ∀ {events : List (Event P)}, events.length ≤ frame.bytes.length →
      (writes events).length ≤ frame.bytes.length := fun bounded => (List.length_filter_le _ _).trans bounded
  cases transmission with
  | @complete events _ now all answer =>
    have none : writes [.sent frame, .flush flush, .clock now] = [] := rfl
    rw [List.cons_append, writes, List.filter_cons, ← writes, writes_append, none, List.append_nil]
    exact few (writes_few all)
  | @unflushed events _ halt all _ =>
    have none : writes [.sent frame, .flush flush] = [] := rfl
    rw [List.cons_append, writes, List.filter_cons, ← writes, writes_append, none, List.append_nil]
    exact few (writes_few all)
  | broken breaks =>
    rw [writes, List.filter_cons, ← writes]
    exact few (breaks_few breaks)

theorem transmission_unanswered {tape rest : Tape} {flush : Answer Unit} {frame : Frame P} {events : List (Event P)}
    (transmission : Transmission tape flush frame events rest (.error .cut)) : ∃ event ∈ events, Unanswered event := by
  cases transmission with
  | unflushed _ dropped =>
    refine ⟨.flush flush, by simp, ?_⟩
    rcases flush with _ | err | _
    · trivial
    · cases dropped
    · cases dropped
  | broken breaks =>
    obtain ⟨event, member, unanswered⟩ := breaks_unanswered breaks
    exact ⟨event, List.mem_cons_of_mem _ member, unanswered⟩

/-- A transmission hands over the bytes of its packet, or a part of them. -/
theorem transmission_accepted {tape rest : Tape} {flush : Answer Unit} {frame : Frame P} {events : List (Event P)}
    {r : Except (Halt MqttError) Unit} (transmission : Transmission tape flush frame events rest r) :
    accepted events <+: frame.bytes ∧ (r = .ok () → accepted events = frame.bytes) := by
  have whole : ∀ {events more : List (Event P)} {rest : Tape}, Writes tape frame.bytes events rest →
      accepted more = [] → accepted (.queued frame :: events ++ more) = frame.bytes := by
    intro events more rest all none
    rw [accepted_append, accepted_cons, (writes_accepted all).2.1, none, List.append_nil]
    rfl
  cases transmission with
  | complete all _ => exact ⟨by rw [whole all rfl], fun _ => whole all rfl⟩
  | unflushed all _ => exact ⟨by rw [whole all rfl], fun sent => by cases sent⟩
  | broken breaks =>
    refine ⟨?_, fun sent => by cases sent⟩
    rw [accepted_cons]
    exact (breaks_accepted breaks).1 _ (List.prefix_refl _)

end

section
variable {H P E : Type} [MqttProtocolHandler H P E]

/-- The packet with the encoding was sent, well or not: the transport has taken its bytes, all of them if it
    was sent and a part otherwise, in no more writes than there are bytes; a call that does not return
    waits for the transport; the queue is empty; and the time is new only if the packet was sent. -/
structure SentOnce (bytes : VarBytes) (e : MqttProtocolEngine H P E) (r : Except (Halt MqttError) Unit)
    (e' : MqttProtocolEngine H P E) : Prop where
  stream : ∃ events, e'.log = e.log ++ events ∧ accepted events <+: bytes ∧ (r = .ok () → accepted events = bytes) ∧
    (writes events).length ≤ bytes.length ∧ (r = .error .cut → ∃ event ∈ events, Unanswered event)
  emptied : e'.write_queue = []
  stamped : e'.last_packet_sent_time ≠ e.last_packet_sent_time → r = .ok ()

theorem send_packet_once {packet : P} {bytes : VarBytes} {e : MqttProtocolEngine H P E} (idle : e.write_queue = [])
    (encodes : encode_packet e.handler packet = .ok bytes) : wp (send_packet packet) e (SentOnce bytes e) := by
  refine wp_mono (wp_and (send_packet_spec packet idle) (send_packet_stamps packet idle)) fun r e' outcome => ?_
  obtain ⟨sent, -, unstamped⟩ := outcome
  have stamped : e'.last_packet_sent_time ≠ e.last_packet_sent_time → r = .ok () := fun changed => by
    by_contra unsent
    exact changed (unstamped unsent)
  refine ⟨?_, sent.idle idle, stamped⟩
  cases sent with
  | unencoded failed => cases encodes.symm.trans failed
  | encoded encodes' transmission _ =>
    cases encodes.symm.trans encodes'
    obtain ⟨part, all⟩ := transmission_accepted transmission
    refine ⟨_, rfl, part, all, transmission_few transmission, ?_⟩
    rintro rfl
    exact transmission_unanswered transmission

end

section
variable [Codec V3.Packet MqttProtoError] [Codec V5.Packet ErrorV5] {v : Version}

/-- Every packet that is sent is sent once: between the operations, and whenever the write queue is empty. -/
theorem sent_once :
    (∀ (c : Client v) (world : World v.Packet v.Error) (packet : v.Packet) (bytes : VarBytes), c.Reachable →
      encode_packet c.protocol_engine.handler packet = .ok bytes →
        wp (send_packet packet) (c.withWorld world).protocol_engine
          (SentOnce bytes (c.withWorld world).protocol_engine)) ∧
    ∀ (e : MqttProtocolEngine v.Handler v.Packet v.Error) (packet : v.Packet) (bytes : VarBytes), e.write_queue = [] →
      encode_packet e.handler packet = .ok bytes → wp (send_packet packet) e (SentOnce bytes e) := by
  constructor
  · intro c world packet bytes reachable encodes
    have idle : (c.withWorld world).protocol_engine.write_queue = [] := reachable.idle
    exact send_packet_once idle encodes
  · intro e packet bytes idle encodes
    exact send_packet_once idle encodes

end

/-! ### A transport that takes one byte at a time -/

section
local instance : Codec V3.Packet MqttProtoError := Wire.v3Codec
local instance : Codec V5.Packet ErrorV5 := Wire.v5Codec

/-- A client that has been made, over a transport that takes one byte at a time. -/
def byte_by_byte : Client .v3 :=
  MqttClient.new { World.obliging true [] with write := fun _ => some (.ok 1) } (Version.handler .v3 ()) {}

theorem sent_once_ping :
    wp (send_packet .Pingreq) byte_by_byte.protocol_engine (SentOnce [192, 0] byte_by_byte.protocol_engine) ∧
      byte_by_byte.protocol_engine.write_queue = [] ∧
      wp (send_packet .Pingreq) byte_by_byte.protocol_engine (SentOnce [192, 0] byte_by_byte.protocol_engine) := by
  have reachable : byte_by_byte.Reachable := ⟨_, (), {}, [], rfl⟩
  refine ⟨(sent_once (v := .v3)).1 byte_by_byte byte_by_byte.protocol_engine.world .Pingreq _ reachable rfl, rfl, ?_⟩
  exact (sent_once (v := .v3)).2 byte_by_byte.protocol_engine .Pingreq _ rfl rfl

end

end Masaka.WriteLoop
