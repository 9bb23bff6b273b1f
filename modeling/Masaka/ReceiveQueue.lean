import Masaka.ClientState
import Masaka.Fifo
import Masaka.Runs

/-!
The queue of received messages. Additions and removals, in whatever order, treat it
as a queue of limited length that loses its oldest message when it is full.
-/
namespace Masaka.ReceiveQueue
open Runs Fifo

/-- The operations of the queue. -/
abbrev QueueOp := Fifo.Op ReceivedMessage

def step (state : ClientState) : QueueOp → ClientState
  | .add message => state.add_received_message message
  | .pop => state.pop_received_message.2

/-- What an operation takes out. -/
def gives (state : ClientState) : QueueOp → List ReceivedMessage
  | .add _ => []
  | .pop => state.pop_received_message.1.toList

/-- The queue is what the ledger says. -/
structure Recorded (capacity : Nat) (state : ClientState) (l : Ledger ReceivedMessage) : Prop where
  capacity : state.msg_capacity = capacity
  queued : state.received_messages = l.elements l.queued

/-- An operation of the queue is one of the ledger. -/
theorem step_recorded {capacity gone : Nat} {state : ClientState} {l : Ledger ReceivedMessage} (positive : 1 ≤ capacity)
    (kept : l.Kept capacity gone) (recorded : Recorded capacity state l) (op : QueueOp) :
    Recorded capacity (step state op) (l.step capacity op) ∧
      (l.step capacity op).elements (l.step capacity op).popped = l.elements l.popped ++ gives state op := by
  obtain ⟨queued, popped⟩ := kept.elements_step positive op
  rw [popped]
  have size := recorded.capacity
  have messages := recorded.queued
  cases op with
  | add message =>
    refine ⟨⟨size, ?_⟩, rfl⟩
    rw [queued, ← messages, ← size]
    rfl
  | pop =>
    refine ⟨⟨size, ?_⟩, ?_⟩
    · rw [queued, ← messages]
      rfl
    · rw [← messages]
      rfl

theorem run_recorded {capacity gone : Nat} {state : ClientState} {l : Ledger ReceivedMessage} (positive : 1 ≤ capacity)
    (kept : l.Kept capacity gone) (recorded : Recorded capacity state l) (ops : List QueueOp) :
    Recorded capacity (run step state ops) (ops.foldl (Ledger.step capacity) l) ∧
      (ops.foldl (Ledger.step capacity) l).elements (ops.foldl (Ledger.step capacity) l).popped =
        l.elements l.popped ++ gather step gives state ops := by
  induction ops generalizing state l gone with
  | nil => exact ⟨recorded, (List.append_nil _).symm⟩
  | cons op ops ih =>
    obtain ⟨first, popped⟩ := step_recorded positive kept recorded op
    obtain ⟨gone', kept'⟩ := kept.step positive op
    obtain ⟨later, more⟩ := ih kept' first
    refine ⟨later, ?_⟩
    rw [List.foldl_cons, more, popped, gather_cons, List.append_assoc]

/-- The queue holds the messages added last, those taken out came out in the order in which
    they were added, and one was lost only to the last of as many later ones as the queue holds.
    The ledger says which ones: every message was taken out, lost or is queued, and only one of it. -/
structure DropsOldest (capacity : Nat) (queue popped : List ReceivedMessage) (l : Ledger ReceivedMessage) : Prop where
  bounded : queue.length ≤ capacity
  in_order : popped.Sublist l.added
  contiguous : queue <:+ l.added
  popped : popped = l.elements l.popped
  queued : queue = l.elements l.queued
  increasing : l.popped.Pairwise (· < ·)
  accounted : (l.popped ++ l.lost.map Prod.fst ++ l.queued).Perm (List.range l.added.length)
  outrun : ∀ loss ∈ l.lost, loss.1 + capacity ≤ loss.2 ∧ loss.2 < l.added.length

theorem drops_oldest (capacity : Nat) (positive : 1 ≤ capacity) (ops : List QueueOp) :
    DropsOldest capacity (run step (.new capacity) ops).received_messages (gather step gives (.new capacity) ops)
      (Ledger.after capacity ops) := by
  have new : Recorded capacity (.new capacity) Ledger.empty := ⟨rfl, rfl⟩
  obtain ⟨recorded, popped⟩ := run_recorded positive (Ledger.empty_kept capacity) new ops
  obtain ⟨gone, kept⟩ := Ledger.after_kept positive ops
  have given : gather step gives (.new capacity) ops =
      (Ledger.after capacity ops).elements (Ledger.after capacity ops).popped := popped.symm
  have queued : (run step (.new capacity) ops).received_messages = (Ledger.after capacity ops).added.drop gone :=
    recorded.queued.trans kept.elements_queued
  constructor
  · rw [queued, List.length_drop]
    have bounded := kept.bounded
    omega
  · rw [given]
    exact kept.elements_popped
  · rw [queued]
    exact List.drop_suffix _ _
  · exact given
  · exact recorded.queued
  · exact List.pairwise_lt_range.sublist kept.popped
  · rw [kept.queued]
    refine (kept.accounted.append_right _).trans ?_
    have joined := List.range'_append_1 (s := 0) (m := gone) (n := (Ledger.after capacity ops).added.length - gone)
    rw [Nat.zero_add, Nat.add_sub_cancel' kept.within] at joined
    rw [List.range_eq_range', List.range_eq_range', joined]
  · exact kept.outrun

/-- A message, told from others by its payload. -/
def numbered (n : UInt8) : ReceivedMessage := ⟨"a", .Level0, false, [n], none, 0⟩

theorem drops_oldest_full : 1 ≤ 2 ∧ DropsOldest 2
    (run step (.new 2) [.add (numbered 0), .add (numbered 1), .add (numbered 2), .pop]).received_messages
    (gather step gives (.new 2) [.add (numbered 0), .add (numbered 1), .add (numbered 2), .pop])
    (Ledger.after 2 [.add (numbered 0), .add (numbered 1), .add (numbered 2), .pop]) :=
  ⟨by decide, drops_oldest 2 (by decide) _⟩

end Masaka.ReceiveQueue
