import Masaka.Operations
import Masaka.Wire

/-!
Retransmissions. A session stores the topic, the level, the retain flag and the
payload of a message, and every retransmission is made from these; what a
version 5.0 PUBLISH was given besides is lost.
-/
namespace Masaka.Retransmission
open Effect Tables Runs MqttProtocolHandler LawfulHandler Sending

section
variable {H P E : Type} [MqttProtocolHandler H P E] [LawfulHandler H P E]

/-- The identifier that a PUBLISH carries, and its DUP flag. -/
def publishes (H : Type) {P E : Type} [MqttProtocolHandler H P E] [LawfulHandler H P E] (packet : P) :
    Option (Pid × Bool) :=
  match shape (H := H) packet with
  | .publish publish => publish.qos_pid.pid.map fun pid => (pid, publish.dup)
  | _ => none

/-- The PUBLISH that the message of the identifier was first sent with, after one more event. -/
def note_origin (H : Type) {P E : Type} [MqttProtocolHandler H P E] [LawfulHandler H P E] (pid : Pid)
    (known : Option P) : Event P → Option P
  | .accepted stored => if stored = pid then none else known
  | .queued frame => if publishes H frame.packet = some (pid, false) then some frame.packet else known
  | _ => known

/-- The PUBLISH that the message last stored under the identifier was first sent with. -/
def origin (H : Type) {P E : Type} [MqttProtocolHandler H P E] [LawfulHandler H P E] (pid : Pid)
    (log : List (Event P)) : Option P := log.foldl (note_origin H pid) none

@[simp] theorem origin_concat (pid : Pid) (log : List (Event P)) (event : Event P) :
    origin H pid (log ++ [event]) = note_origin H pid (origin H pid log) event := by
  simp [origin]

/-- Every later PUBLISH with the identifier of a message repeats the first one. -/
def Faithful (H : Type) {P E : Type} [MqttProtocolHandler H P E] [LawfulHandler H P E] (log : List (Event P)) : Prop :=
  ∀ before frame after pid dup first, log = before ++ .queued frame :: after →
    publishes H frame.packet = some (pid, dup) → origin H pid before = some first → Repeats (H := H) first frame.packet

/-- An event that starts neither a message nor a packet. -/
def Silent : Event P → Prop
  | .accepted _ | .queued _ => False
  | _ => True

theorem hands_over_silent {event : Event P} (hands_over : HandsOver event) : Silent event := by
  cases event <;> trivial

theorem faithful_concat {log : List (Event P)} {event : Event P} (faithful : Faithful H log)
    (fits : ∀ frame pid dup first, event = .queued frame → publishes H frame.packet = some (pid, dup) →
      origin H pid log = some first → Repeats (H := H) first frame.packet) : Faithful H (log ++ [event]) := by
  intro before frame after pid dup first split carries known
  rcases List.eq_nil_or_concat after with rfl | ⟨older, last, rfl⟩
  · obtain ⟨rfl, same⟩ := List.append_inj' split rfl
    exact fits frame pid dup first (List.singleton_inj.mp same) carries known
  · rw [List.concat_eq_append, ← List.cons_append, ← List.append_assoc] at split
    exact faithful before frame older pid dup first (List.append_inj' split rfl).1 carries known

/-- What the log says of the messages, and that what is stored suffices to repeat them. -/
def Kept (H : Type) {P E : Type} [MqttProtocolHandler H P E] [LawfulHandler H P E] (v : View P) : Prop :=
  Faithful H v.log ∧ ∀ pid message first, v.session.pending_publishes.lookup pid = some message →
    origin H pid v.log = some first → ∀ again, Retransmits H message pid again → Repeats (H := H) first again

/-- The messages of the second session were pending in the first one. -/
def Older (s s' : InMemorySession) : Prop := ∀ pid message, s'.pending_publishes.lookup pid = some message →
  ∃ old, s.pending_publishes.lookup pid = some old ∧ message.SameAs old

omit [LawfulHandler H P E] in
theorem retransmits_same {message old : InflightMessage} {pid : Pid} {packet : P} (same : message.SameAs old)
    (again : Retransmits H message pid packet) : Retransmits H old pid packet := by
  rw [same] at again
  exact again

/-- Silent events and the end of messages change nothing. -/
theorem Kept.silent {v v' : View P} (kept : Kept H v) {more : List (Event P)} (log : v'.log = v.log ++ more)
    (silent : ∀ event ∈ more, Silent event) (older : Older v.session v'.session) : Kept H v' := by
  obtain ⟨faithful, repeats⟩ := kept
  have same : ∀ pid, origin H pid (v.log ++ more) = origin H pid v.log := fun pid => by
    rw [origin, List.foldl_append]
    refine List.foldlRecOn (motive := (· = origin H pid v.log)) more _ rfl fun known unchanged event member => ?_
    have := silent event member
    cases event <;> first | exact unchanged | exact this.elim
  refine ⟨?_, fun pid message first stored known again made => ?_⟩
  · rw [log]
    clear log same
    generalize v.log = log at faithful
    induction more generalizing log with
    | nil => simpa using faithful
    | cons event rest ih =>
      have first := silent event List.mem_cons_self
      have concat : Faithful H (log ++ [event]) :=
        faithful_concat faithful fun frame _ _ _ queued => by rw [queued] at first; exact first.elim
      have next := ih (fun e member => silent e (List.mem_cons_of_mem _ member)) _ concat
      simpa using next
  · rw [log, same] at known
    obtain ⟨old, stored', unchanged⟩ := older pid message stored
    exact repeats pid old first stored' known again (retransmits_same unchanged made)

/-- A packet is put on the write queue. -/
theorem Kept.queued {v v' : View P} (kept : Kept H v) {frame : Frame P} {more : List (Event P)}
    (log : v'.log = v.log ++ .queued frame :: more) (silent : ∀ event ∈ more, Silent event)
    (older : Older v.session v'.session)
    (repeated : ∀ pid dup first, publishes H frame.packet = some (pid, dup) → origin H pid v.log = some first →
      Repeats (H := H) first frame.packet)
    (repeatable : ∀ pid message again, publishes H frame.packet = some (pid, false) →
      v.session.pending_publishes.lookup pid = some message → Retransmits H message pid again →
        Repeats (H := H) frame.packet again) : Kept H v' := by
  have start : Kept H { v with log := v.log ++ [.queued frame] } := by
    refine ⟨faithful_concat kept.1 fun frame' pid dup first same => ?_, fun pid message first stored known again made => ?_⟩
    · cases same
      exact repeated pid dup first
    · simp only [origin_concat, note_origin] at known
      split at known
      · rename_i carries
        cases known
        exact repeatable pid message again carries stored made
      · exact kept.2 pid message first stored known again made
  exact start.silent (by simpa using log) silent older

/-- A message is stored under a new identifier. -/
theorem Kept.accepted {v v' : View P} (kept : Kept H v) (pid : Pid) (more : List (Event P))
    (log : v'.log = v.log ++ more ++ [.accepted pid]) (silent : ∀ event ∈ more, Silent event)
    (older : ∀ p message, p ≠ pid → v'.session.pending_publishes.lookup p = some message →
      v.session.pending_publishes.lookup p = some message) : Kept H v' := by
  have start : Kept H { v with log := v.log ++ more } :=
    kept.silent rfl silent fun p message stored => ⟨message, stored, rfl⟩
  refine ⟨?_, fun p message first stored known => ?_⟩
  · rw [log]
    exact faithful_concat start.1 fun _ _ _ _ same => by cases same
  · rw [log, origin_concat, note_origin] at known
    split at known
    · cases known
    · rename_i other
      exact start.2 p message first (older p message (Ne.symm other) stored) known

/-- The act of a call that stores no other properties keeps the messages repeatable. -/
theorem kept_after {config : ClientConfig} {grant : Grant} {v : View P} {act : Act P}
    (allowed : act.Allowed H config grant v) (plain : grant.plain = true) (kept : Kept H v) : Kept H (act.after v) := by
  have older : (∀ pid message, act ≠ .accept pid message) → Older v.session (act.session v.session) :=
    fun other pid message stored => (allowed.pending stored).resolve_left (other pid message)
  cases act with
  | transmit frame events rest =>
    obtain ⟨⟨flush, r, transmission⟩, permitted⟩ := allowed
    obtain ⟨more, rfl, hands_over⟩ := transmission.queued
    have made : ∀ pid dup, publishes H frame.packet = some (pid, dup) → ∃ message,
        v.session.pending_publishes.lookup pid = some message ∧ (dup = true → Retransmits H message pid frame.packet) ∧
          (dup = false → v.log.getLast? = some (.accepted pid) ∧ (grant.plain = true →
            ∀ again, Retransmits H message pid again → Repeats (H := H) frame.packet again)) := by
      intro pid dup carries
      unfold publishes at carries
      split at carries
      · rename_i publish shaped
        obtain ⟨p, carried, same⟩ := Option.map_eq_some_iff.mp carries
        cases same
        simp only [Permitted, shaped] at permitted
        exact permitted pid carried
      · cases carries
    refine kept.queued rfl (fun event member => hands_over_silent (hands_over event member))
      (older fun _ _ same => by cases same) ?_ ?_
    · intro pid dup first carries known
      obtain ⟨message, stored, again, fresh⟩ := made pid dup carries
      cases dup with
      | true => exact kept.2 pid message first stored known frame.packet (again rfl)
      | false =>
        -- Nothing was sent yet for a message that has just been stored.
        obtain ⟨before, last⟩ := List.getLast?_eq_some_iff.mp (fresh rfl).1
        rw [last, origin_concat, note_origin, if_pos rfl] at known
        cases known
    · intro pid message again carries stored retransmits
      obtain ⟨message', stored', -, fresh⟩ := made pid false carries
      cases stored.symm.trans stored'
      exact (fresh rfl).2 plain again retransmits
  | release pid frame events rest =>
    obtain ⟨⟨flush, transmission⟩, -, shaped⟩ := allowed
    obtain ⟨more, rfl, hands_over⟩ := transmission.queued
    have other : publishes H frame.packet = none := by rw [publishes, shaped]
    refine kept.queued rfl (fun event member => hands_over_silent (hands_over event member))
      (older fun _ _ same => by cases same) ?_ ?_
    · intro _ _ _ carries
      cases other.symm.trans carries
    · intro _ _ _ carries
      cases other.symm.trans carries
  | accept pid message =>
    refine kept.accepted pid [.handed_out pid, .clock message.timestamp] (by simp [Act.after, Act.events])
      (by simp [Silent]) fun p message' other stored => ?_
    exact (AList.lookup_insert_ne other).symm.trans stored
  | note event =>
    refine kept.silent rfl ?_ (older fun _ _ same => by cases same)
    cases event <;> first | exact allowed.elim | simp [Act.events, Silent]
  | _ => exact kept.silent rfl (by simp [Act.events, Silent]) (older fun _ _ same => by cases same)

end

section
variable [Codec V3.Packet MqttProtoError] [Codec V5.Packet ErrorV5] {v : Version}

/-- Every later PUBLISH with the identifier of a message repeated the first one. -/
def Repeating (c : Client v) : Prop := Faithful v.Handler c.protocol_engine.log

/-- If every message to store is published without properties, but perhaps a topic
    alias, then all retransmissions are the packets first sent with the DUP flag set. -/
theorem retransmissions_faithful (world : World v.Packet v.Error) (setup : v.Setup) (config : ClientConfig)
    {calls : List (Call v)} (plain : ∀ call ∈ calls, call.op.plain = true) :
    Repeating (Client.run (MqttClient.new world (v.handler setup) config) calls) := by
  suffices kept : ∀ (calls : List (Call v)) (c : Client v), (∀ call ∈ calls, call.op.plain = true) → c.Idle →
      Kept v.Handler c.view → Kept v.Handler (c.run calls).view by
    refine (kept calls _ plain (MqttClient.new_idle ..) ⟨?_, fun pid message first stored => ?_⟩).1
    · intro before frame after _ _ _ split
      cases before <;> cases split
    · cases (AList.lookup_empty pid).symm.trans stored
  intro calls
  induction calls with
  | nil => exact fun _ _ _ kept => kept
  | cons call rest ih =>
    intro c plain idle kept
    refine ih (c.after call) (fun later member => plain later (List.mem_cons_of_mem _ member)) (c.call_path idle call).1 ?_
    refine Client.after_invariant (I := Kept v.Handler) idle (fun _ _ kept => kept) (fun view act allowed kept => ?_) kept
    exact kept_after allowed (plain call List.mem_cons_self) kept

end

/-! ### A message with a response topic -/

section
local instance : Codec V3.Packet MqttProtoError := Wire.v3Codec
local instance : Codec V5.Packet ErrorV5 := Wire.v5Codec

/-- A new client that publishes a message, and polls after its timeout. -/
def retried (v5_config : V5PublishConfig) : Client .v5 :=
  Client.run (MqttClient.new (.obliging true []) (Version.handler .v5 {}) {})
    [⟨.connect, .obliging true [.Connack ⟨false, 0, {}⟩]⟩,
      ⟨.publish_v5 "a" [1] ⟨.Level1, false⟩ v5_config, .obliging true []⟩,
      ⟨.poll, { World.obliging true [] with now := fun _ => 6000 }⟩]

theorem retransmissions_faithful_alias : Repeating (retried {}) :=
  retransmissions_faithful (v := .v5) (.obliging true []) {} {} (by decide)

/-- The PUBLISH with the given DUP flag and properties. -/
def published (dup : Bool) (properties : V5.PublishProperties) : V5.Packet :=
  .Publish ⟨dup, .Level1 .default, false, "a", [1], properties⟩

/-- The response topic of a message is not sent again. -/
theorem response_topic_lost : ¬ ∀ (world : World V5.Packet ErrorV5) (setup : V5ConnectConfig) (config : ClientConfig)
    (calls : List (Call .v5)),
    Repeating (v := .v5) (Client.run (v := .v5) (MqttClient.new world (Version.handler .v5 setup) config) calls) := by
  intro repeating
  have faithful : Repeating (retried { response_topic := some "r" }) := repeating (.obliging true []) {} {} _
  let log := (retried { response_topic := some "r" }).protocol_engine.log
  have split : log = log.take 17 ++ .queued ⟨published true {}, Wire.v5 (published true {})⟩ :: log.drop 18 := by
    decide +kernel
  obtain ⟨publish, topic_alias, same, -, again⟩ := faithful _ _ _ .default true
    (published false { topic_alias := some 1, response_topic := some "r" }) split rfl (by decide +kernel)
  cases same
  cases again

end

end Masaka.Retransmission
