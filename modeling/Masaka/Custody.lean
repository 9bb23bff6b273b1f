import Masaka.AtLeastOnce
import Masaka.Conduct
import Masaka.Polling
import Masaka.Wire

/-!
A client and a receiver that forwards what it acknowledges, joined by links that may
lose, repeat and reorder packets. What a client reports as acknowledged has been
forwarded, as long as no identifier is taken again while something of an earlier
message under it is left anywhere.
-/
namespace Masaka.Custody
open Effect MqttProtocolHandler LawfulHandler Monitor AtLeastOnce

variable {H P E : Type}

/-- The receiver, and the packets on their way. The messages that the client has accepted are numbered. -/
structure Net where
  /-- The client, as what it does shows it. -/
  client : Party
  to_receiver : List (Packet Pid Nat)
  to_client : List Shape
  receiver : Receiver Pid Nat
  /-- The number of the message accepted last under each identifier. -/
  owner : Pid → Option Nat
  /-- How many messages were accepted. -/
  count : Nat

namespace Net

/-- Nothing has happened yet. -/
def start : Net := ⟨.new, [], [], ⟨[], ⟨[], []⟩⟩, fun _ => none, 0⟩

/-- What the receiver makes of a packet of the client. A CONNECT says whether it is to forget its keys. -/
def packets (net : Net) : Shape → List (Packet Pid Nat)
  | .publish message => match message.qos_pid with
    | .Level0 => []
    | .Level1 pid => ((net.owner pid).map (.copy pid)).toList
    | .Level2 pid => ((net.owner pid).map fun number => .keyed (.data pid number)).toList
  | .pubrel pid => [.keyed (.release pid)]
  | .connect clean_session => if clean_session then [.keyed .clear] else []
  | _ => []

/-- The packet is put on the link to the receiver. -/
def transmit (net : Net) (shape : Shape) : Net := { net with to_receiver := net.to_receiver ++ net.packets shape }

/-- The receiver's answer to a packet. -/
def answer : Packet Pid Nat → List Shape
  | .copy pid _ => [.puback pid]
  | .keyed (.data pid _) => [.pubrec pid]
  | .keyed (.release pid) => [.pubcomp pid]
  | .keyed .clear => []

/-- What the receiver and the links do on their own. -/
inductive Step : Net → Net → Prop where
  /-- A packet arrives, and is answered. It may arrive again. -/
  | deliver {net : Net} {packet : Packet Pid Nat} : packet ∈ net.to_receiver → Step net { net with
      to_client := net.to_client ++ answer packet, receiver := receive net.receiver packet }
  /-- The receiver sends a packet that acknowledges nothing. -/
  | other {net : Net} {shape : Shape} : (∀ pid, ¬ Party.Acknowledges pid shape) →
      Step net { net with to_client := net.to_client ++ [shape] }
  /-- Packets are lost, one or all. -/
  | lose {net : Net} {to_receiver : List (Packet Pid Nat)} {to_client : List Shape} :
      to_receiver ⊆ net.to_receiver → to_client ⊆ net.to_client →
      Step net { net with to_receiver := to_receiver, to_client := to_client }
  /-- The receiver forgets keys: a session has expired. -/
  | forget {net : Net} {store : List Pid} : store ⊆ net.receiver.keyed.store →
      Step net { net with receiver := ⟨net.receiver.copies, ⟨store, net.receiver.keyed.forwarded⟩⟩ }

instance (pid : Pid) (shape : Shape) : Decidable (Party.Acknowledges pid shape) :=
  inferInstanceAs (Decidable (_ ∨ _ ∨ _))

/-- Nothing of an earlier message under the identifier is left: on the links, at the receiver, or as a PUBREL
    that the client may still send. -/
def Unused (net : Net) (pid : Pid) : Prop :=
  (∀ packet ∈ net.to_receiver, packet.key ≠ some pid) ∧ (∀ shape ∈ net.to_client, ¬ Party.Acknowledges pid shape) ∧
    pid ∉ net.receiver.keyed.store ∧ pid ∉ net.client.releasable

instance (net : Net) (pid : Pid) : Decidable (net.Unused pid) := inferInstanceAs (Decidable (_ ∧ _ ∧ _ ∧ _))

variable [MqttProtocolHandler H P E] [LawfulHandler H P E]

/-- What an event means for the links and the messages, if it may happen: a packet that arrives is on its way,
    and a message is accepted under an identifier that is not in use. -/
def moves (H : Type) {P E : Type} [MqttProtocolHandler H P E] [LawfulHandler H P E] (net : Net) : Event P → Option Net
  | .sent frame => some (net.transmit (shape (H := H) frame.packet))
  | .received packet => if shape (H := H) packet ∈ net.to_client then some net else none
  | .accepted pid => if net.Unused pid then
      some { net with owner := Function.update net.owner pid (some net.count), count := net.count + 1 }
    else none
  | _ => some net

/-- What an event means for the system. -/
def observe (H : Type) {P E : Type} [MqttProtocolHandler H P E] [LawfulHandler H P E] (net : Net) (event : Event P) :
    Option Net :=
  (net.moves H event).map fun moved => { moved with client := (net.client.step H event).getD net.client }

/-- The message accepted last under the identifier has been forwarded. -/
def Settled (net : Net) (pid : Pid) : Prop := AtLeastOnce.Settled net.owner net.receiver pid

/-- It has been forwarded in the handshake of level 2. -/
def Handed (net : Net) (pid : Pid) : Prop := AtLeastOnce.Handed net.owner net.receiver pid

/-- What an acknowledgment says is true. -/
def Vouched (net : Net) : Shape → Prop
  | .puback pid => net.Settled pid
  | .pubrec pid | .pubcomp pid => net.Handed pid
  | _ => True

end Net

/-- Whatever acknowledges a message, and whatever lets the client send a PUBREL, tells of a message that has been
    forwarded. -/
structure Kept (net : Net) : Prop where
  safe : Invariant net.owner net.to_receiver net.receiver
  told : ∀ shape ∈ net.to_client, net.Vouched shape
  releasable : ∀ pid ∈ net.client.releasable, net.Handed pid
  releasing : ∀ pid, net.client.turn = .sending (.pubrel pid) → net.Handed pid

theorem Kept.start : Kept .start where
  safe := .start
  told shape member := by cases member
  releasable pid member := by cases member
  releasing pid same := by cases same

section
variable {net net' : Net}

/-- What acknowledges a message tells that it was forwarded. -/
theorem Net.Vouched.settled {shape : Shape} (vouched : net.Vouched shape) {pid : Pid}
    (acknowledges : Party.Acknowledges pid shape) : net.Settled pid := by
  rcases acknowledges with rfl | rfl | rfl
  · exact vouched
  · exact AtLeastOnce.Handed.settled vouched
  · exact AtLeastOnce.Handed.settled vouched

/-- What is true of the messages that a packet acknowledges stays true. -/
theorem Net.Vouched.mono {shape : Shape} (vouched : net.Vouched shape)
    (settled : ∀ pid, Party.Acknowledges pid shape → net.Settled pid → net'.Settled pid)
    (handed : ∀ pid, Party.Acknowledges pid shape → net.Handed pid → net'.Handed pid) : net'.Vouched shape := by
  cases shape with
  | puback pid => exact settled pid (.inl rfl) vouched
  | pubrec pid => exact handed pid (.inr (.inl rfl)) vouched
  | pubcomp pid => exact handed pid (.inr (.inr rfl)) vouched
  | _ => trivial

theorem vouched_other {shape : Shape} (silent : ∀ pid, ¬ Party.Acknowledges pid shape) : net.Vouched shape := by
  cases shape with
  | puback pid => exact absurd (.inl rfl) (silent pid)
  | pubrec pid => exact absurd (.inr (.inl rfl)) (silent pid)
  | pubcomp pid => exact absurd (.inr (.inr rfl)) (silent pid)
  | _ => trivial

/-- Nothing that was forwarded is taken back, and no message changes its identifier. -/
theorem Kept.more (kept : Kept net) (safe : Invariant net'.owner net'.to_receiver net'.receiver)
    (told : ∀ shape ∈ net'.to_client, net'.Vouched shape) (handed : ∀ pid, net.Handed pid → net'.Handed pid)
    (client : net'.client = net.client) : Kept net' where
  safe := safe
  told := told
  releasable pid member := handed pid (kept.releasable pid (client ▸ member))
  releasing pid same := handed pid (kept.releasing pid (client ▸ same))

theorem Net.Step.client (step : Net.Step net net') : net'.client = net.client := by
  cases step <;> rfl

/-- What the surroundings do takes nothing back. -/
theorem Net.Step.settled (step : Net.Step net net') {pid : Pid} (settled : net.Settled pid) : net'.Settled pid := by
  cases step with
  | deliver => exact settled.mono (forwarded_receive _ _)
  | other | lose | forget => exact settled

theorem Net.Step.handed (step : Net.Step net net') {pid : Pid} (handed : net.Handed pid) : net'.Handed pid := by
  cases step with
  | deliver => exact handed.mono (keyed_receive _ _)
  | other | lose | forget => exact handed

/-- The answer to a packet is true once the packet has arrived. -/
theorem answer_vouched (kept : Kept net) {packet : Packet Pid Nat} (here : packet ∈ net.to_receiver) {shape : Shape}
    (member : shape ∈ Net.answer packet) : Net.Vouched { net with
      to_client := net.to_client ++ Net.answer packet, receiver := receive net.receiver packet } shape := by
  have sound := kept.safe.sound packet here
  cases packet with
  | copy pid number =>
    rw [List.mem_singleton.mp member]
    exact Invariant.settles sound
  | keyed packet =>
    cases packet with
    | data pid number | release pid =>
      rw [List.mem_singleton.mp member]
      exact kept.safe.hands sound rfl
    | clear => cases member

theorem Kept.step (kept : Kept net) (step : Net.Step net net') : Kept net' := by
  have handed : ∀ pid, net.Handed pid → net'.Handed pid := fun _ => step.handed
  have still : ∀ shape, net.Vouched shape → net'.Vouched shape := fun _ vouched =>
    vouched.mono (fun _ _ => step.settled) fun _ _ => step.handed
  cases step with
  | @deliver packet member =>
    refine kept.more (kept.safe.receive member) (fun shape here => ?_) handed rfl
    rcases List.mem_append.mp here with older | new
    · exact still shape (kept.told shape older)
    · exact answer_vouched kept member new
  | @other shape silent =>
    refine kept.more kept.safe (fun answer here => ?_) handed rfl
    rcases List.mem_append.mp here with older | new
    · exact kept.told answer older
    · rw [List.mem_singleton.mp new]
      exact vouched_other silent
  | lose fewer fewer' => exact kept.more (kept.safe.lose fewer) (fun shape here => kept.told shape (fewer' here)) handed rfl
  | forget fewer => exact kept.more (kept.safe.forget fewer) kept.told handed rfl

/-- A packet of the client is sound, if a PUBREL is. -/
theorem packets_sound {shape : Shape} (due : ∀ pid, shape = .pubrel pid → net.Handed pid) :
    ∀ packet ∈ net.packets shape, Sound net.owner net.receiver packet := by
  intro packet member
  cases shape with
  | publish message =>
    unfold Net.packets at member
    cases level : message.qos_pid with
    | Level0 => simp [level] at member
    | Level1 pid | Level2 pid =>
      simp only [level, Option.mem_toList, Option.map_eq_some_iff] at member
      obtain ⟨number, held, rfl⟩ := member
      exact held
  | pubrel pid =>
    rw [List.mem_singleton.mp member]
    exact due pid rfl
  | connect clean =>
    cases clean with
    | true =>
      rw [List.mem_singleton.mp member]
      trivial
    | false => cases member
  | _ => cases member

/-- An event that has to do neither with the links nor with the messages. -/
theorem Kept.aside (kept : Kept net) {client : Party} (releasable : ∀ pid ∈ client.releasable, net.Handed pid)
    (releasing : ∀ pid, client.turn = .sending (.pubrel pid) → net.Handed pid) : Kept { net with client := client } where
  safe := kept.safe
  told := kept.told
  releasable := releasable
  releasing := releasing

variable [MqttProtocolHandler H P E] [LawfulHandler H P E]

theorem observe_some {event : Event P} (observed : net.observe H event = some net') : ∃ moved,
    net.moves H event = some moved ∧ net' = { moved with client := (net.client.step H event).getD net.client } := by
  obtain ⟨moved, moves, rfl⟩ := Option.map_eq_some_iff.mp observed
  exact ⟨moved, moves, rfl⟩

/-- What arrives was on its way. -/
theorem moves_received {packet : P} (moves : net.moves H (.received packet) = some net') :
    shape (H := H) packet ∈ net.to_client ∧ net' = net := by
  simp only [Net.moves] at moves
  split at moves <;> cases moves
  exact ⟨‹_›, rfl⟩

theorem moves_accepted {pid : Pid} (moves : net.moves H (.accepted pid : Event P) = some net') : net.Unused pid ∧
    net' = { net with owner := Function.update net.owner pid (some net.count), count := net.count + 1 } := by
  simp only [Net.moves] at moves
  split at moves <;> cases moves
  exact ⟨‹_›, rfl⟩

/-- An event of a client that does what the protocol allows. -/
theorem Kept.observe (kept : Kept net) {event : Event P} {client : Party} (observed : net.observe H event = some net')
    (stepped : net.client.step H event = some client) : net'.client = client ∧ Kept net' := by
  obtain ⟨moved, moves, rfl⟩ := observe_some observed
  rw [stepped, Option.getD_some]
  refine ⟨rfl, ?_⟩
  cases Party.step_takes stepped with
  | queued may =>
    cases moves
    refine kept.aside kept.releasable fun pid same => ?_
    rw [Turn.sending.inj same] at may
    exact kept.releasable pid may.2
  | opened | sent =>
    cases moves
    exact {
      safe := kept.safe.send (packets_sound fun pid same => kept.releasing pid (by rw [Party.sent_turn stepped, same]))
      told := kept.told
      releasable := kept.releasable
      releasing := fun pid same => by cases same }
  | decided =>
    obtain ⟨-, rfl⟩ := moves_received moves
    exact kept.aside kept.releasable fun pid same => by cases same
  | @heard packet up =>
    obtain ⟨member, rfl⟩ := moves_received moves
    refine kept.aside (fun pid releasable => ?_) fun pid same => ?_
    · rcases (Party.step_releasable stepped pid).mp releasable with ⟨-, -, _, same, shaped⟩ | ⟨before, -⟩
      · cases same
        have vouched := kept.told _ member
        rw [shaped] at vouched
        exact vouched
      · exact kept.releasable pid before
    · have turned := Party.step_turn stepped
      rw [same] at turned
      rcases turned with ⟨_, other, -⟩ | ⟨-, still⟩
      · cases other
      · exact absurd (.inl (.inr ⟨packet, rfl⟩)) still
  | @accepted taken up turn =>
    obtain ⟨unused, rfl⟩ := moves_accepted moves
    -- Whatever tells of a message tells of one under another identifier.
    have other : ∀ pid, pid ≠ taken → net.Handed pid →
        AtLeastOnce.Handed (Function.update net.owner taken (some net.count)) net.receiver pid :=
      fun pid ne handed => (handed_update ne).mpr handed
    have apart : ∀ shape ∈ net.to_client, ∀ {pid}, Party.Acknowledges pid shape → pid ≠ taken := by
      rintro shape member pid acknowledges rfl
      exact unused.2.1 shape member acknowledges
    exact {
      safe := kept.safe.accept unused.1 unused.2.2.1
      told := fun shape member => (kept.told shape member).mono
        (fun pid acknowledges settled => (settled_update (apart shape member acknowledges)).mpr settled)
        fun pid acknowledges => other pid (apart shape member acknowledges)
      releasable := fun pid member => other pid (fun same => unused.2.2.2 (same ▸ member)) (kept.releasable pid member)
      releasing := fun pid same => by cases same }
  | closed | handed_out =>
    cases moves
    exact kept.aside kept.releasable fun pid same => by cases same
  | cleared =>
    cases moves
    exact kept.aside (fun pid member => absurd member (Finset.notMem_empty pid)) fun pid same => by cases same
  | write | flush | clock | delay =>
    cases moves
    exact kept.aside kept.releasable kept.releasing

/-- The events of a client, with what the receiver and the links do in between. -/
abbrev Exchange (H : Type) {P E : Type} [MqttProtocolHandler H P E] [LawfulHandler H P E] :
    Net → List (Event P) → Net → Prop := Monitor.Exchange (Net.observe H) Net.Step

theorem Kept.exchange (kept : Kept net) {events : List (Event P)} {client : Party}
    (exchange : Exchange H net events net') (accepted : read (Party.step H) net.client events = some client) :
    net'.client = client ∧ Kept net' :=
  exchange.keeps_read (f := Net.client) accepted (fun _ _ step kept => ⟨step.client, kept.step step⟩)
    (fun _ _ _ _ observed stepped kept => kept.observe observed stepped) kept

/-- A message stays forwarded as long as no other one is accepted under its identifier. -/
theorem Exchange.settled {events : List (Event P)} {pid : Pid} (exchange : Exchange H net events net')
    (same : .accepted pid ∉ events) (settled : net.Settled pid) : net'.Settled pid := by
  refine exchange.keeps (I := fun net => net.Settled pid) (fun _ _ step => step.settled)
    (fun q event member q' observed settled => ?_) settled
  obtain ⟨moved, moves, rfl⟩ := observe_some observed
  cases event with
  | received packet =>
    obtain ⟨-, rfl⟩ := moves_received moves
    exact settled
  | accepted taken =>
    obtain ⟨-, rfl⟩ := moves_accepted moves
    refine (settled_update ?_).mpr settled
    rintro rfl
    exact same member
  | _ =>
    cases moves
    exact settled

end

/-! ### The client -/

section
variable [MqttProtocolHandler H P E] [LawfulHandler H P E]

/-- A message is accepted under an identifier that the act takes. -/
theorem accepts_taken {config : ClientConfig} {grant : Grant} {v : View P} {act : Act P}
    (allowed : act.Allowed H config grant v) {pid : Pid} (accepts : .accepted pid ∈ act.events) : act.takes = some pid := by
  cases act with
  | transmit frame events rest =>
    obtain ⟨⟨flush, r, sent⟩, -⟩ := allowed
    exact absurd accepts (sent.unsaid (fun _ same => by cases same) id)
  | release pid frame events rest =>
    obtain ⟨⟨flush, sent⟩, -⟩ := allowed
    exact absurd accepts (sent.unsaid (fun _ same => by cases same) id)
  | note event =>
    rw [← List.mem_singleton.mp accepts] at allowed
    exact allowed.elim
  | hand_out | clear => simp [Act.events] at accepts
  | accept taken message =>
    simp only [Act.events, List.mem_cons, reduceCtorEq, false_or, Event.accepted.injEq, List.not_mem_nil, or_false]
      at accepts
    rw [accepts]
    rfl
  | _ => cases accepts

/-- Acts that take no identifier accept no message. -/
theorem Follows.accepts {grant : Grant} {c c' : MqttClient H P E} (none : grant.identifier = none)
    (follows : Follows grant c c') (idle : c.Idle) :
    ∃ events, c'.protocol_engine.log = c.protocol_engine.log ++ events ∧ ∀ pid, .accepted pid ∉ events := by
  obtain ⟨-, -, acts, path⟩ := follows idle
  refine ⟨acts.flatMap Act.events, path.log, fun pid member => ?_⟩
  obtain ⟨act, here, accepts⟩ := List.mem_flatMap.mp member
  obtain ⟨v, allowed⟩ := Runs.along_mem path.1 here
  cases none.symm.trans (allowed.granted (accepts_taken allowed accepts)).1

/-- What is reported as acknowledged has been acknowledged by the packet that arrived. -/
theorem receive_acknowledged {c : MqttClient H P E} {pid : Pid}
    (returned : (exec MqttClient.receive c).1 = .ok (some (.MessageAcknowledged pid))) :
    ∃ packet more, Party.Acknowledges pid (shape (H := H) packet) ∧
      (exec MqttClient.receive c).2.protocol_engine.log = c.protocol_engine.log ++ .received packet :: more := by
  obtain ⟨action, arrived, brings⟩ := Polling.receive_brings c _ returned
  obtain ⟨more, log⟩ := Polling.receive_log c
  have arrives : ∃ packet, c.protocol_engine.world.read 0 = .packet packet ∧
      Party.Acknowledges pid (shape (H := H) packet) := by
    cases brings with
    | puback =>
      obtain ⟨packet, read, shaped⟩ := Discharge.arrives_puback.mpr arrived
      exact ⟨packet, read, .inl shaped⟩
    | pubcomp =>
      obtain ⟨packet, read, shaped⟩ := Discharge.arrives_pubcomp.mpr arrived
      exact ⟨packet, read, .inr (.inr shaped)⟩
  obtain ⟨packet, read, acknowledges⟩ := arrives
  refine ⟨packet, .clock (c.protocol_engine.world.now 0) :: more, acknowledges, ?_⟩
  rw [log, Sending.arrival, read, List.append_assoc]
  rfl

end

section
variable [Codec V3.Packet MqttProtoError] [Codec V5.Packet ErrorV5] {v : Version}

/-- A call that reports a message as acknowledged received an acknowledgment of it, and accepted none. -/
theorem call_acknowledged {c : Client v} (reachable : c.Reachable) {call : Call v} {pid : Pid}
    (returned : (c.call call).1 = .ok (.event (some (.MessageAcknowledged pid)))) :
    ∃ before packet after, c.events call = before ++ .received packet :: after ∧
      Party.Acknowledges pid (shape (H := v.Handler) packet) ∧ .accepted pid ∉ after := by
  obtain ⟨c₁, waits, event⟩ := Client.call_event reachable returned (by simp)
  obtain ⟨idle, -, acts, path⟩ := Client.waiting_follows waits reachable.idle
  obtain ⟨packet, more, acknowledges, log⟩ := receive_acknowledged event
  have acting : Operations.Acting Polling.grant (MqttClient.receive (H := v.Handler)) := Operations.receive
  obtain ⟨events, log', accepts⟩ := Follows.accepts rfl (acting c₁) idle
  have after : c.after call = (exec MqttClient.receive c₁).2 := congrArg Prod.snd (Client.call_waiting waits)
  refine ⟨acts.flatMap Act.events, packet, more, ?_, acknowledges, fun member => accepts pid ?_⟩
  · rw [Client.events, after, log, path.log, List.append_assoc]
    exact List.drop_left
  · rw [List.append_cancel_left (log'.symm.trans log)]
    exact List.mem_cons_of_mem _ member

/-- What a new client, the receiver and the links can come to, in any interleaving of their steps. -/
inductive Reached (world : World v.Packet v.Error) (setup : v.Setup) (config : ClientConfig) : Client v → Net → Prop where
  | start : Reached world setup config (MqttClient.new world (v.handler setup) config) .start
  | call {c : Client v} {net net' : Net} {call : Call v} : Reached world setup config c net →
      Exchange v.Handler net (c.events call) net' → Reached world setup config (c.after call) net'
  | step {c : Client v} {net net' : Net} : Reached world setup config c net → Net.Step net net' →
      Reached world setup config c net'

variable {world : World v.Packet v.Error} {setup : v.Setup} {config : ClientConfig} {c : Client v} {net net' : Net}

theorem call_read {q : Party} (reachable : c.Reachable) (call : Call v) (fits : Conduct.FitsC q c) :
    ∃ q', read (Party.step v.Handler) q (c.events call) = some q' ∧ Conduct.FitsC q' (c.after call) := by
  obtain ⟨q', ⟨events, log, accepted⟩, fits', -⟩ := Conduct.call_obeys reachable call fits
  refine ⟨q', ?_, fits'⟩
  rw [Client.events, show (c.after call).protocol_engine.log = c.protocol_engine.log ++ events from log, List.drop_left]
  exact accepted

theorem Reached.kept (reached : Reached world setup config c net) :
    c.Reachable ∧ Conduct.FitsC net.client c ∧ Kept net := by
  induction reached with
  | start => exact ⟨⟨world, setup, config, [], rfl⟩, Conduct.new_fits .., .start⟩
  | @call c net net' call _ exchange before =>
    obtain ⟨reachable, fits, kept⟩ := before
    obtain ⟨q, accepted, fits'⟩ := call_read reachable call fits
    obtain ⟨rfl, kept'⟩ := kept.exchange exchange accepted
    exact ⟨reachable.after call, fits', kept'⟩
  | step _ step before => exact ⟨before.1, step.client ▸ before.2.1, before.2.2.step step⟩

/-- When a poll reports a message as acknowledged, the receiver has forwarded the message that was accepted last
    under its identifier. -/
theorem acknowledged_forwarded (reached : Reached world setup config c net) {call : Call v} {pid : Pid}
    (exchange : Exchange v.Handler net (c.events call) net')
    (returned : (c.call call).1 = .ok (.event (some (.MessageAcknowledged pid)))) :
    ∃ number, net'.owner pid = some number ∧ number ∈ net'.receiver.forwarded := by
  obtain ⟨reachable, fits, kept⟩ := reached.kept
  obtain ⟨before, packet, after, events, acknowledges, same⟩ := call_acknowledged reachable returned
  obtain ⟨q, accepted, -⟩ := call_read reachable call fits
  rw [events] at exchange accepted
  obtain ⟨here, next, first, observed, later⟩ := Monitor.Exchange.at_event exchange
  obtain ⟨middle, accepted', -⟩ := read_split accepted
  refine Exchange.settled later same ?_
  obtain ⟨moved, moves, rfl⟩ := observe_some observed
  obtain ⟨member, rfl⟩ := moves_received moves
  exact ((kept.exchange first accepted').2.told _ member).settled acknowledges

end

section
local instance : Codec V3.Packet MqttProtoError := Wire.v3Codec
local instance : Codec V5.Packet ErrorV5 := Wire.v5Codec

/-- The client's events, with nothing in between. -/
def play (net : Net) (events : List (Event V3.Packet)) : Net := (read (Net.observe V3Handler) net events).getD net

theorem play_exchange {net : Net} {events : List (Event V3.Packet)}
    (possible : (read (Net.observe V3Handler) net events).isSome = true) :
    Exchange V3Handler net events (play net events) :=
  .of_possible possible

def fresh : Client .v3 := MqttClient.new (.obliging true []) {} {}

/-- A connection, a message of level 2, and polls in which its PUBREC and its PUBCOMP arrive. -/
def connecting : Call .v3 := ⟨.connect, .obliging true [.Connack ⟨false, 0⟩]⟩
def publishing : Call .v3 := ⟨.publish "a" [1] ⟨.Level2, false⟩, .obliging true []⟩
def receiving : Call .v3 := ⟨.poll, .obliging true [.Pubrec .default]⟩
def completing : Call .v3 := ⟨.poll, .obliging true [.Pubcomp .default]⟩

def greeted_net : Net := { Net.start with to_client := [.connack false 0] }
/-- A packet of the client is taken and answered. -/
def taken (net : Net) (packet : Packet Pid Nat) : Net := { net with
  to_client := net.to_client ++ Net.answer packet, receiver := receive net.receiver packet }

def connected_net : Net := play greeted_net (fresh.events connecting)
def published_net : Net := play connected_net (Client.events (Client.run fresh [connecting]) publishing)
def received_net : Net := play (taken published_net (.keyed (.data .default 0)))
  (Client.events (Client.run fresh [connecting, publishing]) receiving)
def completed_net : Net := play (taken received_net (.keyed (.release .default)))
  (Client.events (Client.run fresh [connecting, publishing, receiving]) completing)

/-- The receiver has answered the PUBREL. -/
theorem received_reached : Reached (v := .v3) (.obliging true []) () {}
    (Client.run fresh [connecting, publishing, receiving]) (taken received_net (.keyed (.release .default))) := by
  have greeted : Reached (v := .v3) (.obliging true []) () {} fresh greeted_net :=
    .step .start (.other fun pid acknowledges => by simp [Party.Acknowledges] at acknowledges)
  have connected : Reached (v := .v3) (.obliging true []) () {} (fresh.after connecting) connected_net :=
    greeted.call (play_exchange (by decide +kernel))
  have published : Reached (v := .v3) (.obliging true []) () {} (Client.run fresh [connecting, publishing]) published_net :=
    connected.call (play_exchange (by decide +kernel))
  have received : Reached (v := .v3) (.obliging true []) () {} (Client.run fresh [connecting, publishing, receiving])
      received_net := (published.step (.deliver (by decide +kernel))).call (play_exchange (by decide +kernel))
  exact received.step (.deliver (by decide +kernel))

theorem acknowledged_forwarded_completed : ∃ number, completed_net.owner .default = some number ∧
    number ∈ completed_net.receiver.forwarded := by
  have completed : Exchange V3Handler (taken received_net (.keyed (.release .default)))
      (Client.events (Client.run fresh [connecting, publishing, receiving]) completing) completed_net :=
    play_exchange (by decide +kernel)
  exact acknowledged_forwarded received_reached completed (by decide +kernel)

end

end Masaka.Custody
