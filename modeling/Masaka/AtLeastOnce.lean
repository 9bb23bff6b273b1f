import Masaka.AtMostOnce

/-!
Handing over messages at least once. A sender has a message under each key that it
has used; the packets that carry the message are acknowledged when they arrive, and
the keys of a handshake are released only after that. Packets may be lost, repeated
and reordered, and the receiver may forget the keys it has seen. What is
acknowledged has been forwarded, as long as a key is used for another message only
when no packet has it and the receiver has forgotten it.
-/
namespace AtLeastOnce

variable {K N : Type}

inductive Packet (K N : Type) where
  /-- A message that is forwarded whenever it arrives. -/
  | copy (key : K) (message : N)
  /-- A packet of the handshake in which the receiver keeps the key. -/
  | keyed (packet : AtMostOnce.Packet K N)
  deriving DecidableEq

namespace Packet

def key : Packet K N → Option K
  | .copy key _ | .keyed (.data key _) | .keyed (.release key) => some key
  | .keyed .clear => none

/-- The packets of the handshake. -/
def handshake : Packet K N → Option (AtMostOnce.Packet K N)
  | .copy _ _ => none
  | .keyed packet => some packet

end Packet

structure Receiver (K N : Type) where
  /-- What was forwarded whenever it arrived. -/
  copies : List N
  keyed : AtMostOnce.Receiver K N
  deriving DecidableEq

/-- All that was forwarded. -/
def Receiver.forwarded (r : Receiver K N) : List N := r.copies ++ r.keyed.forwarded

/-- The message of the key has been forwarded. -/
def Settled (owner : K → Option N) (r : Receiver K N) (key : K) : Prop :=
  ∃ message, owner key = some message ∧ message ∈ r.forwarded

/-- The message of the key has been forwarded in the handshake. -/
def Handed (owner : K → Option N) (r : Receiver K N) (key : K) : Prop :=
  ∃ message, owner key = some message ∧ message ∈ r.keyed.forwarded

/-- A packet carries the message of its key, or releases a key whose message is forwarded. -/
def Sound (owner : K → Option N) (r : Receiver K N) : Packet K N → Prop
  | .copy key message | .keyed (.data key message) => owner key = some message
  | .keyed (.release key) => Handed owner r key
  | .keyed .clear => True

/-- Every packet on its way is sound, and the keys that the receiver keeps are those of forwarded messages. -/
structure Invariant (owner : K → Option N) (channel : List (Packet K N)) (r : Receiver K N) : Prop where
  sound : ∀ packet ∈ channel, Sound owner r packet
  stored : ∀ key ∈ r.keyed.store, Handed owner r key

variable {owner : K → Option N} {channel others : List (Packet K N)} {r r' : Receiver K N}

theorem Settled.mono {key : K} (settled : Settled owner r key) (more : r.forwarded ⊆ r'.forwarded) :
    Settled owner r' key := by
  obtain ⟨message, held, forwarded⟩ := settled
  exact ⟨message, held, more forwarded⟩

theorem Handed.mono {key : K} (handed : Handed owner r key) (more : r.keyed.forwarded ⊆ r'.keyed.forwarded) :
    Handed owner r' key := by
  obtain ⟨message, held, forwarded⟩ := handed
  exact ⟨message, held, more forwarded⟩

theorem Handed.settled {key : K} (handed : Handed owner r key) : Settled owner r key := by
  obtain ⟨message, held, forwarded⟩ := handed
  exact ⟨message, held, List.mem_append_right _ forwarded⟩

theorem Sound.mono {packet : Packet K N} (sound : Sound owner r packet) (more : r.keyed.forwarded ⊆ r'.keyed.forwarded) :
    Sound owner r' packet := by
  cases packet with
  | copy => exact sound
  | keyed packet =>
    cases packet with
    | data => exact sound
    | release => exact Handed.mono sound more
    | clear => trivial

namespace Invariant

theorem start : Invariant (fun _ => none : K → Option N) [] ⟨[], ⟨[], []⟩⟩ where
  sound packet member := by cases member
  stored key member := by cases member

/-- Sound packets are sent. -/
theorem send (inv : Invariant owner channel r) (sound : ∀ packet ∈ others, Sound owner r packet) :
    Invariant owner (channel ++ others) r where
  sound packet member := (List.mem_append.mp member).elim (inv.sound packet) (sound packet)
  stored := inv.stored

/-- Packets are lost. -/
theorem lose (inv : Invariant owner channel r) (fewer : others ⊆ channel) : Invariant owner others r where
  sound packet member := inv.sound packet (fewer member)
  stored := inv.stored

/-- The receiver forgets keys. -/
theorem forget (inv : Invariant owner channel r) {store : List K} (fewer : store ⊆ r.keyed.store) :
    Invariant owner channel ⟨r.copies, ⟨store, r.keyed.forwarded⟩⟩ where
  sound packet member := (inv.sound packet member).mono (List.Subset.refl _)
  stored key member := (inv.stored key (fewer member)).mono (List.Subset.refl _)

end Invariant

/-- Another message under one key changes nothing for the others. -/
theorem settled_update [DecidableEq K] {key other : K} {message : N} (ne : other ≠ key) :
    Settled (Function.update owner key (some message)) r other ↔ Settled owner r other := by
  rw [Settled, Settled, Function.update_of_ne ne]

theorem handed_update [DecidableEq K] {key other : K} {message : N} (ne : other ≠ key) :
    Handed (Function.update owner key (some message)) r other ↔ Handed owner r other := by
  rw [Handed, Handed, Function.update_of_ne ne]

variable [DecidableEq K]

def receive (r : Receiver K N) : Packet K N → Receiver K N
  | .copy _ message => { r with copies := r.copies ++ [message] }
  | .keyed packet => { r with keyed := r.keyed.receive packet }

/-- What was forwarded stays so. -/
theorem keyed_receive (r : Receiver K N) (packet : Packet K N) :
    r.keyed.forwarded ⊆ (receive r packet).keyed.forwarded := by
  cases packet with
  | copy => exact List.Subset.refl _
  | keyed packet =>
    cases packet with
    | data key message =>
      rw [receive, AtMostOnce.Receiver.receive]
      split
      · exact List.Subset.refl _
      · exact List.subset_append_left _ _
    | release | clear => exact List.Subset.refl _

theorem forwarded_receive (r : Receiver K N) (packet : Packet K N) : r.forwarded ⊆ (receive r packet).forwarded := by
  have copies : r.copies ⊆ (receive r packet).copies := by
    cases packet with
    | copy => exact List.subset_append_left _ _
    | keyed => exact List.Subset.refl _
  intro message member
  rcases List.mem_append.mp member with here | here
  · exact List.mem_append_left _ (copies here)
  · exact List.mem_append_right _ (keyed_receive r packet here)

namespace Invariant

/-- A copy has arrived: its key is settled. -/
theorem settles {key : K} {message : N} (sound : Sound owner r (.copy key message)) :
    Settled owner (receive r (.copy key message)) key :=
  ⟨message, sound, List.mem_append_left _ (List.mem_append_right _ (List.mem_singleton_self message))⟩

/-- A packet of the handshake has arrived: its key is handed over. -/
theorem hands (inv : Invariant owner channel r) {packet : AtMostOnce.Packet K N} (sound : Sound owner r (.keyed packet))
    {key : K} (has : (Packet.keyed packet).key = some key) : Handed owner (receive r (.keyed packet)) key := by
  cases packet with
  | data key message =>
    cases has
    rw [receive, AtMostOnce.Receiver.receive]
    split
    · exact inv.stored _ ‹_›
    · exact ⟨message, sound, List.mem_append_right _ (List.mem_singleton_self message)⟩
  | release key =>
    cases has
    exact Handed.mono sound (keyed_receive r (.keyed (.release _)))
  | clear => cases has

/-- A packet of the channel arrives, and may arrive again. -/
theorem receive (inv : Invariant owner channel r) {packet : Packet K N} (member : packet ∈ channel) :
    Invariant owner channel (receive r packet) where
  sound other here := (inv.sound other here).mono (keyed_receive r packet)
  stored key kept := by
    have before : key ∈ r.keyed.store → Handed owner (AtLeastOnce.receive r packet) key := fun old =>
      (inv.stored key old).mono (keyed_receive r packet)
    have sound := inv.sound packet member
    cases packet with
    | copy => exact before kept
    | keyed packet =>
      cases packet with
      | data taken message =>
        by_cases same : key = taken
        · exact inv.hands sound (by rw [same]; rfl)
        · simp only [AtLeastOnce.receive, AtMostOnce.Receiver.receive] at kept
          split at kept
          · exact before kept
          · exact before (List.mem_of_ne_of_mem same kept)
      | release => exact before (List.mem_of_mem_filter kept)
      | clear => cases kept

/-- Another message under a key that is nowhere in use. -/
theorem accept (inv : Invariant owner channel r) {key : K} {message : N}
    (unused : ∀ packet ∈ channel, packet.key ≠ some key) (unkept : key ∉ r.keyed.store) :
    Invariant (Function.update owner key (some message)) channel r where
  sound packet member := by
    have sound := inv.sound packet member
    have other := unused packet member
    cases packet with
    | copy taken =>
      refine (Function.update_of_ne ?_ _ _).trans sound
      rintro rfl
      exact other rfl
    | keyed packet =>
      cases packet with
      | data taken =>
        refine (Function.update_of_ne ?_ _ _).trans sound
        rintro rfl
        exact other rfl
      | release taken =>
        refine (handed_update ?_).mpr sound
        rintro rfl
        exact other rfl
      | clear => trivial
  stored kept member := by
    refine (handed_update ?_).mpr (inv.stored kept member)
    rintro rfl
    exact unkept member

end Invariant

end AtLeastOnce
