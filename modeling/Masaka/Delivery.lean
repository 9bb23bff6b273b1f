import Masaka.AtMostOnce
import Masaka.Operations
import Masaka.Wire

/-!
A client and a receiver of level 2, joined by two links. However the packets are
interleaved, repeated and lost, the receiver forwards no message twice, as long as
no identifier is taken again before its handshake is over.
-/
namespace Masaka.Delivery
open Effect Tables Runs MqttProtocolHandler LawfulHandler Sending AtMostOnce

variable {H P E : Type}

/-- The receiver and the links. The messages that the client has accepted are
    numbered; a PUBLISH on its way is one of the message accepted last under its identifier. -/
structure Net where
  to_receiver : List (Packet Pid Nat)
  to_client : List Shape
  receiver : Receiver Pid Nat
  /-- The number of the message accepted last under each identifier. -/
  owner : Pid → Nat
  /-- How many messages were accepted. -/
  count : Nat

namespace Net

/-- Nothing has happened yet. -/
def start : Net := ⟨[], [], ⟨[], []⟩, fun _ => 0, 0⟩

/-- A packet is put on the link to the receiver. A CONNECT opens a new connection:
    what was on its way is lost, and a clean session starts with nothing stored. -/
def transmit (net : Net) : Shape → Net
  | .publish publish => match publish.qos_pid with
    | .Level2 pid => { net with to_receiver := net.to_receiver ++ [.data pid (net.owner pid)] }
    | .Level0 | .Level1 _ => net
  | .pubrel pid => { net with to_receiver := net.to_receiver ++ [.release pid] }
  | .connect clean_session => { net with to_receiver := if clean_session then [.clear] else [], to_client := [] }
  | _ => net

/-- The receiver's answer to a packet. -/
def answer : Packet Pid Nat → List Shape
  | .data pid _ => [.pubrec pid]
  | .release pid => [.pubcomp pid]
  | .clear => []

/-- What the receiver and the links do on their own. -/
inductive Step : Net → Net → Prop where
  /-- The receiver takes a packet off its link and answers it. -/
  | deliver {net : Net} {packet : Packet Pid Nat} {rest : List (Packet Pid Nat)} :
      net.to_receiver = packet :: rest → Step net { net with
        to_receiver := rest, to_client := net.to_client ++ answer packet, receiver := net.receiver.receive packet }
  /-- The receiver sends another packet. -/
  | other {net : Net} {shape : Shape} : (∀ pid, shape ≠ .pubrec pid ∧ shape ≠ .pubcomp pid) →
      Step net { net with to_client := net.to_client ++ [shape] }
  /-- The connection ends. -/
  | lose {net : Net} : Step net { net with to_receiver := [], to_client := [] }

variable [MqttProtocolHandler H P E] [LawfulHandler H P E]

/-- What an event of the client means for the links: it sends a packet, or takes one off its link. -/
def observe (H : Type) {P E : Type} [MqttProtocolHandler H P E] [LawfulHandler H P E] (net : Net) :
    Event P → Option Net
  | .sent frame => some (net.transmit (shape (H := H) frame.packet))
  | .received packet => match net.to_client with
    | first :: rest => if first = shape (H := H) packet then some { net with to_client := rest } else none
    | [] => none
  | .accepted pid => some { net with owner := fun p => if p = pid then net.count else net.owner p, count := net.count + 1 }
  | _ => some net

/-- The events of the client, with what the receiver and the links do in between. -/
inductive Exchange (H : Type) {P E : Type} [MqttProtocolHandler H P E] [LawfulHandler H P E] :
    Net → List (Event P) → Net → Prop where
  | done {net : Net} : Exchange H net [] net
  | event {net net' net'' : Net} {event : Event P} {events : List (Event P)} : net.observe H event = some net' →
      Exchange H net' events net'' → Exchange H net (event :: events) net''
  | step {net net' net'' : Net} {events : List (Event P)} : Step net net' → Exchange H net' events net'' →
      Exchange H net events net''

theorem Exchange.append {net net' net'' : Net} {events more : List (Event P)} (first : Exchange H net events net')
    (second : Exchange H net' more net'') : Exchange H net (events ++ more) net'' := by
  induction first with
  | done => exact second
  | event observed _ ih => exact .event observed (ih second)
  | step step _ ih => exact .step step (ih second)

theorem Exchange.split {net net' : Net} {events more : List (Event P)} (exchange : Exchange H net (events ++ more) net') :
    ∃ middle, Exchange H net events middle ∧ Exchange H middle more net' := by
  generalize all : events ++ more = whole at exchange
  induction exchange generalizing events with
  | done =>
    obtain ⟨rfl, rfl⟩ := List.append_eq_nil_iff.mp all
    exact ⟨_, .done, .done⟩
  | @event net _ _ event rest observed next ih =>
    cases events with
    | nil =>
      cases all
      exact ⟨net, .done, .event observed next⟩
    | cons first events =>
      cases all
      obtain ⟨middle, before, after⟩ := ih rfl
      exact ⟨middle, .event observed before, after⟩
  | step step _ ih =>
    obtain ⟨middle, before, after⟩ := ih all
    exact ⟨middle, .step step before, after⟩

end Net

/-- The message that a session holds under an identifier. -/
def pending (s : InMemorySession) (net : Net) (pid : Pid) : Option Nat :=
  if pid ∈ s.pending_publishes then some (net.owner pid) else none

/-- The receiver is safe, and no message is pending together with its PUBREL. -/
structure Delivering (s : InMemorySession) (net : Net) : Prop where
  safe : Invariant (pending s net) (· < net.count) net.to_receiver net.receiver
  apart : ∀ pid ∈ s.pending_pubrels, pid ∉ s.pending_publishes

section
variable {s s' : InMemorySession} {net net' : Net}

theorem pending_some {pid : Pid} {number : Nat} : pending s net pid = some number ↔
    pid ∈ s.pending_publishes ∧ net.owner pid = number := by
  unfold pending
  split <;> simp_all

theorem Delivering.start (sub_capacity : Nat) : Delivering (.new sub_capacity) .start where
  safe := Invariant.start
  apart _ member := by cases member

/-- Messages that are no longer pending. -/
theorem Delivering.drop (delivering : Delivering s net)
    (fewer : ∀ pid, pid ∈ s'.pending_publishes → pid ∈ s.pending_publishes)
    (apart : ∀ pid ∈ s'.pending_pubrels, pid ∉ s'.pending_publishes) : Delivering s' net where
  safe := delivering.safe.drop fun pid _ holds =>
    pending_some.mpr ⟨fewer pid (pending_some.mp holds).1, (pending_some.mp holds).2⟩
  apart := apart

/-- The same messages and PUBRELs are pending. -/
theorem Delivering.same (delivering : Delivering s net) (publishes : s'.pending_publishes = s.pending_publishes)
    (pubrels : s'.pending_pubrels = s.pending_pubrels) : Delivering s' net :=
  delivering.drop (fun _ => by rw [publishes]; exact id) (by rw [publishes, pubrels]; exact delivering.apart)

theorem Delivering.step (delivering : Delivering s net) (step : Net.Step net net') : Delivering s net' := by
  obtain ⟨safe, apart⟩ := delivering
  cases step with
  | deliver first =>
    rw [first] at safe
    exact ⟨safe.receive, apart⟩
  | other _ => exact ⟨safe, apart⟩
  | lose => exact ⟨safe.lose, apart⟩

/-- A packet that fits what is pending: a PUBLISH of a pending message, a PUBREL of
    another one, a CONNECT with a clean session when nothing is pending. -/
def Fits (s : InMemorySession) : Shape → Prop
  | .publish publish => ∀ pid, publish.qos_pid = .Level2 pid → pid ∈ s.pending_publishes
  | .pubrel pid => pid ∉ s.pending_publishes
  | .connect clean_session => clean_session = true → s.pending_publishes = ∅
  | _ => True

theorem Delivering.transmit (delivering : Delivering s net) {shape : Shape} (fits : Fits s shape) :
    Delivering s (net.transmit shape) := by
  obtain ⟨safe, apart⟩ := delivering
  cases shape with
  | publish publish =>
    simp only [Net.transmit]
    split
    · rename_i pid level
      exact ⟨safe.send_data (pending_some.mpr ⟨fits pid level, rfl⟩), apart⟩
    · exact ⟨safe, apart⟩
    · exact ⟨safe, apart⟩
  | pubrel pid => exact ⟨safe.send_release (if_neg fits), apart⟩
  | connect clean_session =>
    refine ⟨?_, apart⟩
    cases clean_session with
    | false => exact safe.lose
    | true =>
      refine safe.lose.send_clear fun pid => if_neg ?_
      rw [fits rfl]
      exact AList.notMem_empty pid
  | _ => exact ⟨safe, apart⟩

variable [MqttProtocolHandler H P E] [LawfulHandler H P E]

/-- An event that sends only packets that fit, and stores no message. -/
def Suits (H : Type) {P E : Type} [MqttProtocolHandler H P E] [LawfulHandler H P E] (s : InMemorySession) :
    Event P → Prop
  | .sent frame => Fits s (shape (H := H) frame.packet)
  | .accepted _ => False
  | _ => True

theorem Delivering.observe (delivering : Delivering s net) {event : Event P} (suits : Suits H s event)
    (observed : net.observe H event = some net') : Delivering s net' := by
  cases event with
  | sent frame =>
    cases observed
    exact delivering.transmit suits
  | accepted pid => exact suits.elim
  | received packet =>
    simp only [Net.observe] at observed
    split at observed
    · split at observed
      · cases observed
        exact ⟨delivering.safe, delivering.apart⟩
      · cases observed
    · cases observed
  | _ => cases observed; exact delivering

/-- Events that fit keep the receiver safe, whatever happens in between. -/
theorem Delivering.exchange (delivering : Delivering s net) {events : List (Event P)}
    (exchange : Net.Exchange H net events net') (suits : ∀ event ∈ events, Suits H s event) : Delivering s net' := by
  induction exchange with
  | done => exact delivering
  | event observed _ ih =>
    exact ih (delivering.observe (suits _ List.mem_cons_self) observed) fun event member =>
      suits event (List.mem_cons_of_mem _ member)
  | step step _ ih => exact ih (delivering.step step) suits

/-- A message is stored under a free identifier. -/
theorem Delivering.accept (delivering : Delivering s net) {pid : Pid} (message : InflightMessage)
    (free : pid ∉ s.pending_pubrels) {events : List (Event P)} (last : events = [.accepted pid])
    (exchange : Net.Exchange H net events net') :
    Delivering { s with pending_publishes := s.pending_publishes.insert pid message } net' := by
  induction exchange with
  | done => cases last
  | @event net _ _ _ _ observed next =>
    cases last
    cases observed
    refine Delivering.exchange (H := H) ⟨?_, fun p member => ?_⟩ next (by simp)
    · refine delivering.safe.accept pid (Nat.lt_irrefl net.count) (Nat.lt_succ_self _)
        (fun m used => Nat.lt_succ_of_lt used) fun p number holds => ?_
      obtain ⟨member, owned⟩ := pending_some.mp holds
      by_cases same : p = pid
      · exact .inl ⟨same, by simpa [same] using owned.symm⟩
      · refine .inr (pending_some.mpr ⟨?_, by simpa [same] using owned⟩)
        exact (AList.mem_insert _).mp member |>.resolve_left same
    · rw [AList.mem_insert]
      rintro (rfl | stored)
      · exact free member
      · exact delivering.apart p member stored
  | step step _ ih => exact ih (delivering.step step) last

/-- The events of a transmission of a packet that fits. -/
theorem transmission_suits {tape rest : Tape} {flush : Answer Unit} {frame : Frame P} {events : List (Event P)}
    {r : Except (Halt MqttError) Unit} (transmission : Transmission tape flush frame events rest r)
    (fits : Fits s (shape (H := H) frame.packet)) : ∀ event ∈ events, Suits H s event :=
  transmission.all trivial (fun _ _ => trivial) fits (fun _ => trivial) fun _ => trivial

/-- A permitted packet fits. -/
theorem permitted_fits {plain : Bool} {v : View P} {packet : P} (permitted : Permitted H plain v packet)
    (apart : ∀ pid ∈ v.session.pending_pubrels, pid ∉ v.session.pending_publishes) :
    Fits v.session (shape (H := H) packet) := by
  unfold Permitted at permitted
  cases shaped : shape (H := H) packet with
  | publish publish =>
    rw [shaped] at permitted
    intro pid level
    obtain ⟨message, stored, -⟩ := permitted pid (by rw [level]; rfl)
    exact mem_iff_lookup.mpr ⟨message, stored⟩
  | pubrel pid =>
    rw [shaped] at permitted
    exact permitted.elim id (apart pid)
  | connect clean_session =>
    rw [shaped] at permitted
    exact fun clean => (permitted clean).1
  | _ => trivial

/-- What an act leaves: the receiver stays safe. -/
theorem delivering_after {config : ClientConfig} {grant : Grant} {v : View P} {act : Act P}
    (allowed : act.Allowed H config grant v)
    (free : ∀ pid message, act = .accept pid message → pid ∉ v.session.pending_pubrels)
    (delivering : Delivering v.session net) (exchange : Net.Exchange H net act.events net') :
    Delivering (act.session v.session) net' := by
  have quiet : act.events = [] → Delivering v.session net' := fun none =>
    delivering.exchange exchange (by simp [none])
  have erased : ∀ pid, Delivering (SessionState.complete_outgoing_publish pid v.session).2 net := fun pid =>
    delivering.drop (fun p member => (AList.mem_erase.mp member).2)
      fun p member stored => delivering.apart p member (AList.mem_erase.mp stored).2
  have untouched : act.events = [] → SessionState.untouched (act.session v.session) = SessionState.untouched v.session →
      Delivering (act.session v.session) net' := fun none same =>
    (quiet none).same (congrArg (·.2.1) same) (congrArg (·.2.2) same)
  cases act with
  | transmit frame events rest =>
    obtain ⟨⟨flush, r, transmission⟩, permitted⟩ := allowed
    exact delivering.exchange exchange (transmission_suits transmission (permitted_fits permitted delivering.apart))
  | note event =>
    refine delivering.exchange exchange ?_
    cases event <;> first | exact allowed.elim | simp [Act.events, Suits]
  | hand_out pid => exact (delivering.exchange exchange (by simp [Act.events, Suits])).same rfl rfl
  | accept pid message =>
    -- The message is new to the receiver once it is stored.
    have whole : Net.Exchange H net ([.handed_out pid, .clock message.timestamp] ++ [.accepted pid]) net' := exchange
    obtain ⟨middle, before, after⟩ := whole.split
    have handed := delivering.exchange before (by simp [Suits])
    exact (handed.accept message (free pid message rfl) rfl after).same rfl rfl
  | complete pid => exact (erased pid).exchange exchange (by simp [Act.events])
  | retry pid message =>
    obtain ⟨old, stored, -⟩ := allowed
    have known : ∀ p, p ∈ v.session.pending_publishes.insert pid message → p ∈ v.session.pending_publishes := by
      intro p member
      rcases (AList.mem_insert _).mp member with rfl | member
      · exact mem_iff_lookup.mpr ⟨old, stored⟩
      · exact member
    exact (quiet rfl).drop known fun p member stored => delivering.apart p member (known p stored)
  | release pid frame events rest =>
    -- The PUBREL goes out when its message is no longer pending, and is stored after it.
    obtain ⟨⟨flush, transmission⟩, -, shaped⟩ := allowed
    have gone : pid ∉ (SessionState.complete_outgoing_publish pid v.session).2.pending_publishes := fun member =>
      (AList.mem_erase.mp member).1 rfl
    have sent := (erased pid).exchange exchange (transmission_suits transmission (by rw [shaped]; exact gone))
    refine sent.drop (fun _ => id) fun p member => ?_
    rcases (AList.mem_insert _).mp member with rfl | member
    · exact gone
    · exact sent.apart p member
  | finish pid =>
    exact (quiet rfl).drop (fun _ => id) fun p member => delivering.apart p (AList.mem_erase.mp member).2
  | add pid topic_filter qos => exact untouched rfl (SessionState.add_subscription_untouched ..)
  | confirm pid codes => exact untouched rfl (SessionState.confirm_subscription_untouched ..)
  | remove order topic_filter => exact untouched rfl (SessionState.remove_subscription_untouched ..)
  | clear =>
    exact (delivering.exchange exchange (by simp [Act.events, Suits])).drop
      (fun pid member => absurd member (AList.notMem_empty pid)) fun pid member => absurd member (AList.notMem_empty pid)
  | state _ | link _ => exact quiet rfl

/-- The identifier is not one of a message or a PUBREL that is pending. -/
def Free (s : InMemorySession) (pid : Pid) : Prop := pid ∉ s.pending_publishes ∧ pid ∉ s.pending_pubrels

instance (s : InMemorySession) (pid : Pid) : Decidable (Free s pid) := inferInstanceAs (Decidable (_ ∧ _))

/-- An identifier that a call may take stays free until it is taken. -/
theorem free_after {config : ClientConfig} {grant : Grant} {v : View P} {act : Act P} {pid : Pid}
    (allowed : act.Allowed H config grant v) (granted : grant.identifier = some pid)
    (free : v.session.next_pid = pid → Free v.session pid) :
    (act.session v.session).next_pid = pid → Free (act.session v.session) pid := by
  have advanced : ∀ taken, grant.identifier = some taken ∧ taken = v.session.next_pid → v.session.next_pid.next ≠ pid := by
    rintro taken ⟨granted', rfl⟩
    cases granted.symm.trans granted'
    exact Pid.next_ne _
  have untouched : ∀ s', SessionState.untouched s' = SessionState.untouched v.session →
      s'.next_pid = pid → Free s' pid := by
    intro s' same next
    obtain ⟨publishes, pubrels⟩ := free ((congrArg (·.1) same).symm.trans next)
    rw [Free, show s'.pending_publishes = _ from congrArg (·.2.1) same, show s'.pending_pubrels = _ from congrArg (·.2.2) same]
    exact ⟨publishes, pubrels⟩
  cases act with
  | transmit | note | state | link => exact free
  | hand_out p => exact fun next => absurd next (advanced p allowed)
  | accept p message => exact fun next => absurd next (advanced p ⟨allowed.1, allowed.2.1⟩)
  | complete p =>
    intro next
    exact ⟨fun member => (free next).1 (AList.mem_erase.mp member).2, (free next).2⟩
  | retry p message =>
    obtain ⟨old, stored, -⟩ := allowed
    intro next
    refine ⟨fun member => ?_, (free next).2⟩
    rcases (AList.mem_insert _).mp member with rfl | member
    · exact (free next).1 (mem_iff_lookup.mpr ⟨old, stored⟩)
    · exact (free next).1 member
  | release p frame events rest =>
    intro next
    refine ⟨fun member => (free next).1 (AList.mem_erase.mp member).2, fun member => ?_⟩
    rcases (AList.mem_insert _).mp member with rfl | member
    · exact (free next).1 allowed.2.1
    · exact (free next).2 member
  | finish p =>
    intro next
    exact ⟨(free next).1, fun member => (free next).2 (AList.mem_erase.mp member).2⟩
  | add p topic_filter qos => exact untouched _ (SessionState.add_subscription_untouched ..)
  | confirm p codes => exact untouched _ (SessionState.confirm_subscription_untouched ..)
  | remove order topic_filter => exact untouched _ (SessionState.remove_subscription_untouched ..)
  | clear => exact fun _ => ⟨AList.notMem_empty pid, AList.notMem_empty pid⟩

/-- The acts of a call leave the receiver safe, if the identifier they take is free. -/
theorem delivering_run {config : ClientConfig} {grant : Grant} {pid : Pid} (granted : grant.identifier = some pid)
    {acts : List (Act P)} {v : View P} (allowed : Along Act.after (Act.Allowed H config grant) v acts)
    (free : pid ∈ handed (acts.flatMap Act.events) → v.session.next_pid = pid → Free v.session pid)
    (delivering : Delivering v.session net) (exchange : Net.Exchange H net (acts.flatMap Act.events) net') :
    Delivering (run Act.after v acts).session net' := by
  induction acts generalizing v net with
  | nil => exact delivering.exchange exchange (by simp)
  | cons act rest ih =>
    obtain ⟨middle, before, after⟩ := Net.Exchange.split exchange
    rw [List.flatMap_cons, handed_append] at free
    refine ih allowed.2 (fun later => free_after allowed.1 granted (free (List.mem_append_right _ later))) ?_ after
    refine delivering_after allowed.1 (fun p message same => ?_) delivering before
    subst same
    obtain ⟨granted', next, -⟩ := allowed.1
    cases granted.symm.trans granted'
    exact (free (List.mem_append_left _ List.mem_cons_self) next.symm).2

end

section
variable [Codec V3.Packet MqttProtoError] [Codec V5.Packet ErrorV5] {v : Version}

/-- Every identifier that `next_pid` returns during the call is free. -/
def TakesFree (c : Client v) (call : Call v) : Prop := ∀ pid ∈ handed (c.events call), Free c.session_state pid

instance (c : Client v) (call : Call v) : Decidable (TakesFree c call) :=
  inferInstanceAs (Decidable (∀ pid ∈ handed (c.events call), _))

/-- What a new client and the receiver can come to, in any interleaving of their steps. -/
inductive Reached (world : World v.Packet v.Error) (setup : v.Setup) (config : ClientConfig) : Client v → Net → Prop where
  | start : Reached world setup config (MqttClient.new world (v.handler setup) config) .start
  | call {c : Client v} {net net' : Net} {call : Call v} : Reached world setup config c net → TakesFree c call →
      Net.Exchange v.Handler net (c.events call) net' → Reached world setup config (c.after call) net'
  | step {c : Client v} {net net' : Net} : Reached world setup config c net → Net.Step net net' →
      Reached world setup config c net'

variable {world : World v.Packet v.Error} {setup : v.Setup} {config : ClientConfig} {c : Client v} {net : Net}

theorem Reached.delivering (reached : Reached world setup config c net) : c.Idle ∧ Delivering c.session_state net := by
  induction reached with
  | start => exact ⟨MqttClient.new_idle .., .start _⟩
  | @call c net net' call _ takes_free exchange before =>
    obtain ⟨idle, delivering⟩ := before
    obtain ⟨idle', -, acts, ⟨allowed, view⟩, events⟩ := Client.call_path idle call
    rw [TakesFree, events] at takes_free
    rw [events] at exchange
    refine ⟨idle', ?_⟩
    rw [show (c.after call).session_state = _ from congrArg View.session view]
    exact delivering_run (v := (c.withWorld call.world).view) rfl allowed (fun taken _ => takes_free _ taken) delivering
      exchange
  | step _ step before => exact ⟨before.1, before.2.step step⟩

/-- Each message that was accepted is forwarded at most once. -/
theorem forwarded_at_most_once (reached : Reached world setup config c net) (number : Nat) :
    net.receiver.forwarded.count number ≤ 1 :=
  List.nodup_iff_count_le_one.mp reached.delivering.2.safe.once number

end

/-! ### A message that is sent twice -/

section
local instance : Codec V3.Packet MqttProtoError := Wire.v3Codec
local instance : Codec V5.Packet ErrorV5 := Wire.v5Codec

/-- The client's events, with nothing in between. -/
def play (net : Net) (events : List (Event V3.Packet)) : Net := (events.foldlM (Net.observe V3Handler) net).getD net

theorem play_exchange {net : Net} {events : List (Event V3.Packet)}
    (possible : (events.foldlM (Net.observe V3Handler) net).isSome = true) :
    Net.Exchange V3Handler net events (play net events) := by
  obtain ⟨net', played⟩ := Option.isSome_iff_exists.mp possible
  rw [play, played]
  clear possible
  induction events generalizing net with
  | nil => cases played; exact .done
  | cons event rest ih =>
    obtain ⟨middle, observed, later⟩ := Option.bind_eq_some_iff.mp played
    exact .event observed (ih later)

def fresh : Client .v3 := MqttClient.new (.obliging true []) (Version.handler .v3 ()) { clean_session := false }

def connecting : Call .v3 := ⟨.connect, .obliging true [.Connack ⟨false, 0⟩]⟩
def publishing : Call .v3 := ⟨.publish "a" [1] ⟨.Level2, false⟩, .obliging true []⟩
/-- A poll after the timeout of the message, in which its PUBREC arrives. -/
def polling : Call .v3 := ⟨.poll, { World.obliging true [.Pubrec .default] with now := fun _ => 6000 }⟩

/-- The broker sends a CONNACK. -/
def greeted (net : Net) : Net := { net with to_client := net.to_client ++ [.connack false 0] }
/-- The receiver takes a PUBLISH, and leaves the rest of its link. -/
def taken (net : Net) (rest : List (Packet Pid Nat)) : Net := { net with
  to_receiver := rest, to_client := net.to_client ++ Net.answer (.data .default 0)
  receiver := net.receiver.receive (.data .default 0) }

theorem greeted_step (net : Net) : Net.Step net (greeted net) :=
  .other fun _ => ⟨(by intro same; cases same), (by intro same; cases same)⟩

def connected_net : Net :=
  play (greeted (play .start ((fresh.events connecting).take 5))) ((fresh.events connecting).drop 5)
def published_net : Net := play connected_net (Client.events (Client.run fresh [connecting]) publishing)
def polled_net : Net := play (taken published_net []) (Client.events (Client.run fresh [connecting, publishing]) polling)

theorem connected_exchange : Net.Exchange V3Handler .start (fresh.events connecting) connected_net := by
  have sent : Net.Exchange V3Handler .start ((fresh.events connecting).take 5) (play .start _) :=
    play_exchange (by decide +kernel)
  have answered : Net.Exchange V3Handler (greeted (play .start ((fresh.events connecting).take 5)))
      ((fresh.events connecting).drop 5) connected_net := play_exchange (by decide +kernel)
  have whole := sent.append (.step (greeted_step _) answered)
  rwa [List.take_append_drop] at whole

/-- The receiver has taken both copies of the PUBLISH; the PUBREL is on its way. -/
theorem polled_reached : Reached (v := .v3) (.obliging true []) () { clean_session := false }
    (Client.run fresh [connecting, publishing, polling]) (taken polled_net [.release .default]) := by
  have connected : Reached (v := .v3) (.obliging true []) () { clean_session := false } (fresh.after connecting)
      connected_net := .call .start (by decide +kernel) connected_exchange
  have published : Reached (v := .v3) (.obliging true []) () { clean_session := false }
      (Client.run fresh [connecting, publishing]) published_net :=
    connected.call (by decide +kernel) (play_exchange (by decide +kernel))
  have first : Net.Step published_net (taken published_net []) := .deliver (by decide +kernel)
  have polled : Reached (v := .v3) (.obliging true []) () { clean_session := false }
      (Client.run fresh [connecting, publishing, polling]) polled_net :=
    (published.step first).call (by decide +kernel) (play_exchange (by decide +kernel))
  exact polled.step (.deliver (by decide +kernel))

theorem forwarded_at_most_once_resent :
    (∀ number, (taken polled_net [.release .default]).receiver.forwarded.count number ≤ 1) ∧
      (taken polled_net [.release .default]).receiver.forwarded = [0] :=
  ⟨forwarded_at_most_once polled_reached, by decide +kernel⟩

end

end Masaka.Delivery
