import Masaka.Custody

/-!
The client and the receiver over links that keep the order of packets and lose them only
with a connection. What the receiver has answered for in the handshake of level 2 has been
forwarded exactly once: at least once since it is answered for, and at most once since the
client does not send a message again after its PUBREL.
-/
namespace Masaka.ExactlyOnce
open Effect MqttProtocolHandler LawfulHandler Monitor AtLeastOnce
open Custody (Net)

variable {H P E : Type}

/-! ### The links -/

/-- What the receiver and the links do on their own. -/
inductive Step : Net → Net → Prop where
  /-- The receiver takes the first packet off its link and answers it. -/
  | deliver {net : Net} {packet : Packet Pid Nat} {rest : List (Packet Pid Nat)} : net.to_receiver = packet :: rest →
      Step net { net with
        to_receiver := rest, to_client := net.to_client ++ Net.answer packet, receiver := receive net.receiver packet }
  /-- The receiver sends a packet that acknowledges nothing. -/
  | other {net : Net} {shape : Shape} : (∀ pid, ¬ Party.Acknowledges pid shape) →
      Step net { net with to_client := net.to_client ++ [shape] }
  /-- The connection ends. -/
  | lose {net : Net} : Step net { net with to_receiver := [], to_client := [] }

section
variable [MqttProtocolHandler H P E] [LawfulHandler H P E]

/-- What an event means for the links and the messages, if it may happen. A CONNECT opens a new connection, on which
    nothing is on its way; a packet that arrives is the first of its link. -/
def moves (H : Type) {P E : Type} [MqttProtocolHandler H P E] [LawfulHandler H P E] (net : Net) : Event P → Option Net
  | .sent frame => match shape (H := H) frame.packet with
    | .connect clean_session => some { net with to_receiver := net.packets (.connect clean_session), to_client := [] }
    | shape => some (net.transmit shape)
  | .received packet => match net.to_client with
    | first :: rest => if first = shape (H := H) packet then some { net with to_client := rest } else none
    | [] => none
  | event => net.moves H event

def observe (H : Type) {P E : Type} [MqttProtocolHandler H P E] [LawfulHandler H P E] (net : Net) (event : Event P) :
    Option Net :=
  (moves H net event).map fun moved => { moved with client := (net.client.step H event).getD net.client }

/-- The events of a client, with what the receiver and the links do in between. -/
abbrev Exchange (H : Type) {P E : Type} [MqttProtocolHandler H P E] [LawfulHandler H P E] :
    Net → List (Event P) → Net → Prop := Monitor.Exchange (observe H) Step

variable {net net' : Net}

theorem moves_sent {frame : Frame P} (moved : moves H net (.sent frame) = some net') : net' = { net with
    to_receiver := net'.to_receiver, to_client := net'.to_client } ∧ net'.to_client ⊆ net.to_client ∧
    ((∃ clean, shape (H := H) frame.packet = .connect clean ∧ net'.to_receiver = net.packets (.connect clean)) ∨
      net'.to_receiver = net.to_receiver ++ net.packets (shape (H := H) frame.packet)) := by
  simp only [moves] at moved
  split at moved <;> cases moved
  · exact ⟨rfl, List.nil_subset _, .inl ⟨_, ‹_›, rfl⟩⟩
  · exact ⟨rfl, List.Subset.refl _, .inr rfl⟩

theorem moves_received {packet : P} (moved : moves H net (.received packet) = some net') : ∃ rest,
    net.to_client = shape (H := H) packet :: rest ∧ net' = { net with to_client := rest } := by
  simp only [moves] at moved
  split at moved
  · rename_i first rest link
    split at moved <;> cases moved
    rename_i same
    exact ⟨rest, by rw [link, same], rfl⟩
  · cases moved

/-- Links that keep the order are links that may lose packets. -/
theorem moves_wide {event : Event P} (moved : moves H net event = some net') : ∃ wide, net.moves H event = some wide ∧
    net'.to_receiver ⊆ wide.to_receiver ∧ net'.to_client ⊆ wide.to_client ∧
    net' = { wide with to_receiver := net'.to_receiver, to_client := net'.to_client } := by
  cases event with
  | sent frame =>
    obtain ⟨same, fewer, packets⟩ := moves_sent moved
    refine ⟨net.transmit (shape (H := H) frame.packet), rfl, ?_, fewer, same⟩
    rcases packets with ⟨clean, connects, fresh⟩ | added
    · rw [fresh, connects]
      exact List.subset_append_right _ _
    · rw [added]
      exact List.Subset.refl _
  | received packet =>
    obtain ⟨rest, link, rfl⟩ := moves_received moved
    have here : shape (H := H) packet ∈ net.to_client := by
      rw [link]
      exact List.mem_cons_self
    refine ⟨net, if_pos here, List.Subset.refl _, ?_, rfl⟩
    rw [link]
    exact List.subset_cons_self _ _
  | _ => exact ⟨net', moved, List.Subset.refl _, List.Subset.refl _, rfl⟩

theorem observe_wide {event : Event P} (observed : observe H net event = some net') :
    Custody.Exchange H net [event] net' := by
  obtain ⟨moved, moves, rfl⟩ := Option.map_eq_some_iff.mp observed
  obtain ⟨wide, may, fewer, fewer', same⟩ := moves_wide moves
  rw [same]
  have noticed : net.observe H event = some { wide with client := (net.client.step H event).getD net.client } := by
    rw [Net.observe, may]
    rfl
  exact .event noticed (.step (.lose fewer fewer') .done)

theorem step_wide (step : Step net net') : Custody.Exchange H net ([] : List (Event P)) net' := by
  cases step with
  | @deliver packet rest link =>
    have member : packet ∈ net.to_receiver := by
      rw [link]
      exact List.mem_cons_self
    refine .step (.deliver member) (.step (.lose ?_ (List.Subset.refl _)) .done)
    rw [link]
    exact List.subset_cons_self _ _
  | other silent => exact .step (.other silent) .done
  | lose => exact .step (.lose (List.nil_subset _) (List.nil_subset _)) .done

/-- Whatever happens over the one links may happen over the others. -/
theorem exchange_wide {events : List (Event P)} (exchange : Exchange H net events net') :
    Custody.Exchange H net events net' := by
  induction exchange with
  | done => exact .done
  | event observed _ ih => exact (observe_wide observed).append ih
  | step stepped _ ih => exact (step_wide (H := H) stepped).append ih

end

/-! ### At most once -/

section
variable {net net' : Net}

/-- The number of the message that the client may still send under the identifier. -/
def held (net : Net) (pid : Pid) : Option Nat := if pid ∈ net.client.publishable then net.owner pid else none

theorem held_some {pid : Pid} {number : Nat} : held net pid = some number ↔
    pid ∈ net.client.publishable ∧ net.owner pid = some number := by
  unfold held
  split <;> simp_all

/-- What a packet that goes out next means for the messages: a PUBLISH is of one that may be sent, a PUBREL of none,
    and a clean session leaves none. -/
def Sendable (q : Party) : Shape → Prop
  | .publish message => ∀ pid, message.qos_pid = .Level2 pid → pid ∈ q.publishable
  | .pubrel pid => pid ∉ q.publishable
  | .connect clean_session => clean_session = true → q.publishable = ∅
  | _ => True

/-- However the packets on their way arrive, nothing is forwarded twice, and what may be sent again is known to the
    receiver if it was forwarded. -/
structure Once (net : Net) : Prop where
  safe : AtMostOnce.Invariant (held net) (· < net.count) (net.to_receiver.filterMap Packet.handshake) net.receiver.keyed
  apart : ∀ pid ∈ net.client.releasable, pid ∉ net.client.publishable
  sendable : ∀ shape, net.client.turn = .sending shape → Sendable net.client shape

theorem Once.start : Once .start where
  safe := .start
  apart pid member := by cases member
  sendable shape same := by cases same

theorem Once.step (once : Once net) (step : Step net net') : Once net' := by
  obtain ⟨safe, apart, sendable⟩ := once
  cases step with
  | @deliver packet rest link =>
    rw [link] at safe
    cases packet with
    | copy => exact ⟨safe, apart, sendable⟩
    | keyed packet => exact ⟨AtMostOnce.Invariant.receive safe, apart, sendable⟩
  | other => exact ⟨safe, apart, sendable⟩
  | lose => exact ⟨safe.lose, apart, sendable⟩

/-- A packet goes out. -/
theorem Once.transmit (once : Once net) {shape : Shape} (sendable : Sendable net.client shape) :
    AtMostOnce.Invariant (held net) (· < net.count) ((net.to_receiver ++ net.packets shape).filterMap Packet.handshake)
      net.receiver.keyed := by
  have safe := once.safe
  rw [List.filterMap_append]
  have nothing : (net.packets shape).filterMap Packet.handshake = [] → AtMostOnce.Invariant (held net) (· < net.count)
      (net.to_receiver.filterMap Packet.handshake ++ (net.packets shape).filterMap Packet.handshake) net.receiver.keyed := by
    intro none
    rw [none, List.append_nil]
    exact safe
  cases shape with
  | publish message =>
    cases level : message.qos_pid with
    | Level0 => exact nothing (by simp [Net.packets, level])
    | Level1 pid => cases owner : net.owner pid <;> exact nothing (by simp [Net.packets, level, owner, Packet.handshake])
    | Level2 pid =>
      cases owner : net.owner pid with
      | none => exact nothing (by simp [Net.packets, level, owner])
      | some number =>
        have data : (net.packets (.publish message)).filterMap Packet.handshake = [.data pid number] := by
          simp [Net.packets, level, owner, Packet.handshake]
        rw [data]
        exact safe.send_data (held_some.mpr ⟨sendable pid level, owner⟩)
  | pubrel pid => exact safe.send_release (if_neg sendable)
  | connect clean =>
    cases clean with
    | false => exact nothing rfl
    | true =>
      refine safe.send_clear fun pid => if_neg ?_
      rw [sendable rfl]
      exact Finset.notMem_empty pid
  | _ => exact nothing rfl

/-- A CONNECT goes out, and what was on its way is lost. -/
theorem Once.opens (once : Once net) {clean : Bool} (sendable : Sendable net.client (.connect clean)) :
    AtMostOnce.Invariant (held net) (· < net.count) ((net.packets (.connect clean)).filterMap Packet.handshake)
      net.receiver.keyed := by
  have cleared : Once { net with to_receiver := [] } := ⟨once.safe.lose, once.apart, once.sendable⟩
  exact cleared.transmit sendable

variable [MqttProtocolHandler H P E] [LawfulHandler H P E]

/-- An event that stores no message leaves the links safe. -/
theorem Once.moves (once : Once net) {event : Event P} (moved : moves H net event = some net')
    (sendable : ∀ frame, event = .sent frame → Sendable net.client (shape (H := H) frame.packet))
    (other : ∀ pid, event ≠ .accepted pid) : net'.owner = net.owner ∧ AtMostOnce.Invariant (held net) (· < net'.count)
      (net'.to_receiver.filterMap Packet.handshake) net'.receiver.keyed := by
  cases event with
  | sent frame =>
    have fits := sendable frame rfl
    obtain ⟨same, -, packets⟩ := moves_sent moved
    rw [same]
    refine ⟨rfl, ?_⟩
    rcases packets with ⟨clean, connects, fresh⟩ | added
    · rw [connects] at fits
      change AtMostOnce.Invariant (held net) _ (net'.to_receiver.filterMap _) _
      rw [fresh]
      exact once.opens fits
    · change AtMostOnce.Invariant (held net) _ (net'.to_receiver.filterMap _) _
      rw [added]
      exact once.transmit fits
  | received packet =>
    obtain ⟨rest, -, rfl⟩ := moves_received moved
    exact ⟨rfl, once.safe⟩
  | accepted pid => exact absurd rfl (other pid)
  | _ =>
    cases moved
    exact ⟨rfl, once.safe⟩

/-- What the client may release it does not send again. -/
theorem apart_step {q q' : Party} {event : Event P} (stepped : q.step H event = some q')
    (apart : ∀ pid ∈ q.releasable, pid ∉ q.publishable) (fresh : ∀ pid, event = .accepted pid → pid ∉ q.releasable) :
    ∀ pid ∈ q'.releasable, pid ∉ q'.publishable := by
  intro pid releasable publishable
  rcases (Party.step_publishable stepped pid).mp publishable with rfl | ⟨held, unheard⟩
  · rcases (Party.step_releasable stepped pid).mp releasable with ⟨-, -, packet, same, -⟩ | ⟨before, -⟩
    · cases same
    · exact fresh pid rfl before
  · rcases (Party.step_releasable stepped pid).mp releasable with ⟨-, up, packet, arrives, same⟩ | ⟨before, -⟩
    · exact unheard (.inr ⟨up, packet, arrives, .inr (.inl same)⟩)
    · exact apart pid before held

/-- What goes out next is sendable. -/
theorem sendable_step {q q' : Party} {event : Event P} (stepped : q.step H event = some q')
    (apart : ∀ pid ∈ q.releasable, pid ∉ q.publishable) (sendable : ∀ shape, q.turn = .sending shape → Sendable q shape) :
    ∀ shape, q'.turn = .sending shape → Sendable q' shape := by
  intro shape turn
  cases Party.step_takes stepped with
  | @queued frame may =>
    cases turn
    cases shaped : LawfulHandler.shape (H := H) frame.packet with
    | publish message =>
      rw [shaped] at may
      exact fun pid level => (may.2.2 pid (by rw [level]; rfl)).1
    | pubrel pid =>
      rw [shaped] at may
      exact apart pid may.2
    | connect clean =>
      rw [shaped] at may
      exact fun discards => (may.2 discards).1
    | _ => trivial
  | @heard packet up =>
    -- The turn after a packet has arrived is an answer or free.
    cases shaped : LawfulHandler.shape (H := H) packet with
    | publish message => cases level : message.qos_pid <;> simp [Party.hears, Party.reply, shaped, level] at turn
    | _ => simp [Party.hears, Party.reply, shaped] at turn
  | write | flush | clock | delay => exact sendable shape turn
  | _ => cases turn

/-- An event of a client that does what the protocol allows. -/
theorem Once.observe (once : Once net) {event : Event P} {client : Party} (observed : observe H net event = some net')
    (stepped : net.client.step H event = some client) : net'.client = client ∧ Once net' := by
  obtain ⟨moved, moves, rfl⟩ := Option.map_eq_some_iff.mp observed
  rw [stepped, Option.getD_some]
  have fresh : ∀ pid, event = .accepted pid → pid ∉ net.client.releasable := by
    rintro pid rfl
    exact (Custody.moves_accepted (H := H) moves).1.2.2.2
  refine ⟨rfl, ?_, apart_step stepped once.apart fresh, sendable_step stepped once.apart once.sendable⟩
  by_cases stores : ∃ pid, event = .accepted pid
  · obtain ⟨taken, rfl⟩ := stores
    obtain ⟨-, rfl⟩ := Custody.moves_accepted (H := H) moves
    refine once.safe.accept taken (Nat.lt_irrefl net.count) (Nat.lt_succ_self _) (fun _ => Nat.lt_succ_of_lt)
      fun pid number holds => ?_
    obtain ⟨member, owned⟩ := held_some.mp holds
    by_cases same : pid = taken
    · refine .inl ⟨same, ?_⟩
      rw [same] at owned
      simpa using owned.symm
    · refine .inr (held_some.mpr ⟨?_, by simpa [same] using owned⟩)
      rcases (Party.step_publishable stepped pid).mp member with accepted | ⟨before, -⟩
      · exact absurd (Event.accepted.inj accepted).symm same
      · exact before
  · obtain ⟨owner, safe⟩ := once.moves moves (fun frame same => once.sendable _ (Party.sent_turn (same ▸ stepped)))
      fun pid same => stores ⟨pid, same⟩
    refine safe.drop fun pid number holds => ?_
    obtain ⟨member, owned⟩ := held_some.mp holds
    refine held_some.mpr ⟨?_, owner ▸ owned⟩
    rcases (Party.step_publishable stepped pid).mp member with accepted | ⟨before, -⟩
    · exact absurd ⟨pid, accepted⟩ stores
    · exact before

theorem Once.exchange (once : Once net) {events : List (Event P)} {client : Party} (exchange : Exchange H net events net')
    (accepted : read (Party.step H) net.client events = some client) : Once net' :=
  (exchange.keeps_read (f := Net.client) accepted
    (fun _ _ step once => ⟨(by cases step <;> rfl), once.step step⟩)
    (fun _ _ _ _ observed stepped once => once.observe observed stepped) once).2

end

/-! ### Exactly once -/

section
variable [Codec V3.Packet MqttProtoError] [Codec V5.Packet ErrorV5] {v : Version}

/-- What a new client, the receiver and the links can come to, in any interleaving of their steps. -/
inductive Reached (world : World v.Packet v.Error) (setup : v.Setup) (config : ClientConfig) : Client v → Net → Prop where
  | start : Reached world setup config (MqttClient.new world (v.handler setup) config) .start
  | call {c : Client v} {net net' : Net} {call : Call v} : Reached world setup config c net →
      Exchange v.Handler net (c.events call) net' → Reached world setup config (c.after call) net'
  | step {c : Client v} {net net' : Net} : Reached world setup config c net → Step net net' →
      Reached world setup config c net'

variable {world : World v.Packet v.Error} {setup : v.Setup} {config : ClientConfig} {c : Client v} {net : Net}

theorem reached_steps {net' : Net} {events : List (Event v.Packet)} (reached : Custody.Reached world setup config c net)
    (exchange : Custody.Exchange v.Handler net events net') (none : events = []) :
    Custody.Reached world setup config c net' := by
  induction exchange with
  | done => exact reached
  | event => cases none
  | step stepped _ ih => exact ih (reached.step stepped) none

/-- Whatever is reached over links that keep the order is reached over links that do not. -/
theorem Reached.wide (reached : Reached world setup config c net) : Custody.Reached world setup config c net := by
  induction reached with
  | start => exact .start
  | call _ exchange before => exact before.call (exchange_wide exchange)
  | step _ step before => exact reached_steps before (step_wide (H := v.Handler) step) rfl

theorem Reached.once (reached : Reached world setup config c net) : Once net := by
  induction reached with
  | start => exact .start
  | @call c net net' call before exchange once =>
    obtain ⟨reachable, fits, -⟩ := before.wide.kept
    obtain ⟨q, accepted, -⟩ := Custody.call_read reachable call fits
    exact once.exchange exchange accepted
  | step _ step once => exact once.step step

/-- From when the receiver has answered a PUBLISH of level 2, the message has been forwarded exactly once. -/
theorem forwarded_exactly_once (reached : Reached world setup config c net) {pid : Pid}
    (answered : .pubrec pid ∈ net.to_client ∨ .pubcomp pid ∈ net.to_client ∨ pid ∈ c.session_state.pending_pubrels) :
    ∃ number, net.owner pid = some number ∧ net.receiver.keyed.forwarded.count number = 1 := by
  obtain ⟨-, fits, kept⟩ := reached.wide.kept
  have handed : net.Handed pid := by
    rcases answered with received | completed | released
    · exact kept.told _ received
    · exact kept.told _ completed
    · exact kept.releasable pid (fits.pubrels pid released)
  obtain ⟨number, owner, forwarded⟩ := handed
  exact ⟨number, owner, List.count_eq_one_of_mem reached.once.safe.once forwarded⟩

end

section
local instance : Codec V3.Packet MqttProtoError := Wire.v3Codec
local instance : Codec V5.Packet ErrorV5 := Wire.v5Codec
open Custody (fresh connecting publishing receiving)

/-- The client's events, with nothing in between. -/
def play (net : Net) (events : List (Event V3.Packet)) : Net := (read (observe V3Handler) net events).getD net

theorem play_exchange {net : Net} {events : List (Event V3.Packet)}
    (possible : (read (observe V3Handler) net events).isSome = true) : Exchange V3Handler net events (play net events) :=
  .of_possible possible

/-- The receiver takes the first packet and answers it. -/
def taken (net : Net) (packet : Packet Pid Nat) : Net := { net with
  to_receiver := net.to_receiver.tail, to_client := net.to_client ++ Net.answer packet
  receiver := receive net.receiver packet }

/-- The CONNECT is out. -/
def opened_net : Net := play .start ((fresh.events connecting).take 4)
def greeted_net : Net := { opened_net with to_client := opened_net.to_client ++ [.connack false 0] }
def connected_net : Net := taken (play greeted_net ((fresh.events connecting).drop 4)) (.keyed .clear)
def published_net : Net := play connected_net (Client.events (Client.run fresh [connecting]) publishing)
def released_net : Net := play (taken published_net (.keyed (.data .default 0)))
  (Client.events (Client.run fresh [connecting, publishing]) receiving)

/-- The PUBREC has arrived, and the PUBREL is on its way. -/
theorem released_reached : Reached (v := .v3) (.obliging true []) () {}
    (Client.run fresh [connecting, publishing, receiving]) released_net := by
  have greeted : Exchange V3Handler .start (fresh.events connecting)
      (play greeted_net ((fresh.events connecting).drop 4)) := by
    have opened : Exchange V3Handler .start ((fresh.events connecting).take 4) opened_net := play_exchange (by decide +kernel)
    have answered : Exchange V3Handler greeted_net ((fresh.events connecting).drop 4) _ := play_exchange (by decide +kernel)
    have silent : ∀ pid, ¬ Party.Acknowledges pid (.connack false 0) := fun pid acknowledges => by
      simp [Party.Acknowledges] at acknowledges
    have whole := opened.append (.step (.other silent) answered)
    rwa [List.take_append_drop] at whole
  have connected : Reached (v := .v3) (.obliging true []) () {} (fresh.after connecting) connected_net :=
    (Reached.start.call greeted).step (.deliver (by decide +kernel))
  have published : Reached (v := .v3) (.obliging true []) () {} (Client.run fresh [connecting, publishing]) published_net :=
    connected.call (play_exchange (by decide +kernel))
  exact (published.step (.deliver (by decide +kernel))).call (play_exchange (by decide +kernel))

theorem forwarded_exactly_once_released : ∃ number, released_net.owner .default = some number ∧
    released_net.receiver.keyed.forwarded.count number = 1 :=
  forwarded_exactly_once released_reached (.inr (.inr (by decide +kernel)))

end

end Masaka.ExactlyOnce
