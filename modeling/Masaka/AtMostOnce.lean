import Mathlib

/-!
Handing over messages at most once. A sender holds messages under keys. It sends
the message of a key as often as it likes, and lets the receiver release the key
once it holds nothing under it. The receiver keeps the keys it has seen, and
forwards a message only if its key is new. Packets travel in order and may be lost.
-/
namespace AtMostOnce

variable {K N : Type} [DecidableEq K]

inductive Packet (K N : Type) where
  | data (key : K) (message : N)
  | release (key : K)
  /-- All keys are released. -/
  | clear
  deriving DecidableEq

structure Receiver (K N : Type) where
  store : List K
  forwarded : List N
  deriving DecidableEq

namespace Receiver

def receive (r : Receiver K N) : Packet K N → Receiver K N
  | .data key message => if key ∈ r.store then r else ⟨key :: r.store, r.forwarded ++ [message]⟩
  | .release key => { r with store := r.store.filter (· ≠ key) }
  | .clear => { r with store := [] }

/-- The receiver after all the packets have arrived. -/
def drain (r : Receiver K N) (packets : List (Packet K N)) : Receiver K N := packets.foldl receive r

@[simp] theorem drain_nil (r : Receiver K N) : r.drain [] = r := rfl
@[simp] theorem drain_cons (r : Receiver K N) (packet : Packet K N) (packets : List (Packet K N)) :
    r.drain (packet :: packets) = (r.receive packet).drain packets := rfl
@[simp] theorem drain_concat (r : Receiver K N) (packets : List (Packet K N)) (packet : Packet K N) :
    r.drain (packets ++ [packet]) = (r.drain packets).receive packet := List.foldl_append

end Receiver

/-- Nothing was forwarded twice, and the sender cannot make it so: a message that it
    still holds and that was forwarded has its key stored. -/
structure Safe (pending : K → Option N) (used : N → Prop) (r : Receiver K N) : Prop where
  once : r.forwarded.Nodup
  known : ∀ message ∈ r.forwarded, used message
  stored : ∀ key message, pending key = some message → message ∈ r.forwarded → key ∈ r.store

/-- The receiver is safe whichever packets of the channel will have arrived. The
    messages in use are those that the sender has ever held. -/
structure Invariant (pending : K → Option N) (used : N → Prop) (channel : List (Packet K N)) (r : Receiver K N) :
    Prop where
  known : ∀ key message, pending key = some message → used message
  single : ∀ key key' message, pending key = some message → pending key' = some message → key = key'
  safe : ∀ before, before <+: channel → Safe pending used (r.drain before)

theorem prefix_concat {α : Type} {before channel : List α} {last : α} (part : before <+: channel ++ [last]) :
    before <+: channel ∨ before = channel ++ [last] :=
  (List.prefix_concat_iff.mp part).symm

namespace Invariant
variable {pending pending' : K → Option N} {used used' : N → Prop} {channel : List (Packet K N)}
  {r : Receiver K N}

theorem start : Invariant (fun _ => none : K → Option N) used [] ⟨[], []⟩ where
  known _ _ held := by cases held
  single _ _ _ held := by cases held
  safe before part := by
    rw [List.prefix_nil.mp part]
    exact ⟨List.nodup_nil, by simp, by simp⟩

theorem once (inv : Invariant pending used channel r) : r.forwarded.Nodup := (inv.safe [] List.nil_prefix).once

/-- A new message under a key, in place of what the key had. -/
theorem accept (inv : Invariant pending used channel r) (key : K) {message : N} (fresh : ¬ used message)
    (now : used' message) (still : ∀ m, used m → used' m)
    (holds : ∀ k m, pending' k = some m → k = key ∧ m = message ∨ pending k = some m) :
    Invariant pending' used' channel r where
  known k m held := by
    rcases holds k m held with ⟨-, rfl⟩ | older
    · exact now
    · exact still m (inv.known k m older)
  single k k' m held held' := by
    have unheld : ∀ k, pending k = some m → m ≠ message := fun k older same => fresh (same ▸ inv.known k m older)
    rcases holds k m held with ⟨here, same⟩ | older <;> rcases holds k' m held' with ⟨here', same'⟩ | older'
    · exact here.trans here'.symm
    · exact absurd same (unheld k' older')
    · exact absurd same' (unheld k older)
    · exact inv.single k k' m older older'
  safe before part := by
    obtain ⟨once, known, stored⟩ := inv.safe before part
    refine ⟨once, fun m member => still m (known m member), fun k m held member => ?_⟩
    rcases holds k m held with ⟨-, rfl⟩ | older
    · exact absurd (known _ member) fresh
    · exact stored k m older member

/-- Some keys lose their messages. -/
theorem drop (inv : Invariant pending used channel r)
    (fewer : ∀ key message, pending' key = some message → pending key = some message) :
    Invariant pending' used channel r where
  known k m holds := inv.known k m (fewer k m holds)
  single k k' m holds holds' := inv.single k k' m (fewer k m holds) (fewer k' m holds')
  safe before part := by
    obtain ⟨once, known, stored⟩ := inv.safe before part
    exact ⟨once, known, fun k m holds => stored k m (fewer k m holds)⟩

/-- One more packet in the channel: the last one to arrive. -/
theorem send (inv : Invariant pending used channel r) {packet : Packet K N}
    (safe : Safe pending used (r.drain channel) → Safe pending used ((r.drain channel).receive packet)) :
    Invariant pending used (channel ++ [packet]) r where
  known := inv.known
  single := inv.single
  safe before part := by
    rcases prefix_concat part with older | rfl
    · exact inv.safe before older
    · rw [Receiver.drain_concat]
      exact safe (inv.safe channel (List.prefix_refl _))

/-- The message of a key is sent, for the first time or again. -/
theorem send_data (inv : Invariant pending used channel r) {key : K} {message : N} (holds : pending key = some message) :
    Invariant pending used (channel ++ [.data key message]) r := by
  refine inv.send fun safe => ?_
  rw [Receiver.receive]
  split
  · exact safe
  rename_i new
  have unseen : message ∉ (r.drain channel).forwarded := fun seen => new (safe.stored key message holds seen)
  refine ⟨?_, fun m member => ?_, fun k m holds' member => ?_⟩
  · exact List.nodup_append.mpr ⟨safe.once, List.nodup_singleton _, fun m seen _ last same =>
      unseen (List.mem_singleton.mp last ▸ same ▸ seen)⟩
  · rcases List.mem_append.mp member with seen | last
    · exact safe.known m seen
    · exact List.mem_singleton.mp last ▸ inv.known key message holds
  · rcases List.mem_append.mp member with seen | last
    · exact List.mem_cons_of_mem _ (safe.stored k m holds' seen)
    · rw [List.mem_singleton.mp last] at holds'
      exact List.mem_cons.mpr (.inl (inv.single k key message holds' holds))

/-- A key without a message is released. -/
theorem send_release (inv : Invariant pending used channel r) {key : K} (none : pending key = none) :
    Invariant pending used (channel ++ [.release key]) r := by
  refine inv.send fun safe => ⟨safe.once, safe.known, fun k m holds seen => ?_⟩
  have other : k ≠ key := fun same => by cases none.symm.trans (same ▸ holds)
  exact List.mem_filter.mpr ⟨safe.stored k m holds seen, by simpa using other⟩

/-- All keys are released, when no key has a message. -/
theorem send_clear (inv : Invariant pending used channel r) (none : ∀ key, pending key = none) :
    Invariant pending used (channel ++ [.clear]) r :=
  inv.send fun safe => ⟨safe.once, safe.known, fun k m holds => by cases (none k).symm.trans holds⟩

/-- The first packet of the channel arrives. -/
theorem receive {packet : Packet K N} (inv : Invariant pending used (packet :: channel) r) :
    Invariant pending used channel (r.receive packet) where
  known := inv.known
  single := inv.single
  safe before part := inv.safe (packet :: before) (List.cons_prefix_cons.mpr ⟨rfl, part⟩)

/-- The packets of the channel are lost. -/
theorem lose (inv : Invariant pending used channel r) : Invariant pending used [] r where
  known := inv.known
  single := inv.single
  safe before part := by
    rw [List.prefix_nil.mp part]
    exact inv.safe [] List.nil_prefix

end Invariant

end AtMostOnce
