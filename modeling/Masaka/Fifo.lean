import Mathlib

/-!
A queue of limited length that loses its oldest element when another one is added to
it while it is full. The elements are numbered as they are added, and a ledger says of
each number whether it was taken out, lost, or is queued.
-/
namespace Fifo

variable {α : Type}

/-- Adds an element; a full queue loses its oldest one. -/
def push (capacity : Nat) (a : α) (queue : List α) : List α :=
  (if queue.length ≥ capacity then queue.tail else queue) ++ [a]

inductive Op (α : Type) where
  | add (a : α)
  | pop

/-- What became of the elements. An element's number is how many were added before it. -/
structure Ledger (α : Type) where
  added : List α
  queued : List Nat
  popped : List Nat
  /-- Each lost number, and the number of the element that took its place. -/
  lost : List (Nat × Nat)

namespace Ledger

def empty : Ledger α := ⟨[], [], [], []⟩

/-- The numbers go through a queue of the same length. -/
def step (capacity : Nat) (l : Ledger α) : Op α → Ledger α
  | .add a => {
      added := l.added ++ [a]
      queued := push capacity l.added.length l.queued
      popped := l.popped
      lost := l.lost ++ if l.queued.length ≥ capacity then
        l.queued.head?.toList.map fun number => (number, l.added.length) else [] }
  | .pop => { l with queued := l.queued.tail, popped := l.popped ++ l.queued.head?.toList }

/-- The ledger after the operations. -/
def after (capacity : Nat) (ops : List (Op α)) : Ledger α := ops.foldl (step capacity) empty

/-- The elements with the numbers. -/
def elements (l : Ledger α) (numbers : List Nat) : List α := numbers.filterMap (l.added[·]?)

/-- The numbers below `gone` have left the queue, and the others are in it. -/
structure Kept (capacity : Nat) (l : Ledger α) (gone : Nat) : Prop where
  within : gone ≤ l.added.length
  bounded : l.added.length ≤ gone + capacity
  queued : l.queued = List.range' gone (l.added.length - gone)
  accounted : (l.popped ++ l.lost.map Prod.fst).Perm (List.range gone)
  popped : l.popped.Sublist (List.range gone)
  outrun : ∀ loss ∈ l.lost, loss.1 + capacity ≤ loss.2 ∧ loss.2 < l.added.length

theorem empty_kept (capacity : Nat) : Kept capacity (empty : Ledger α) 0 :=
  ⟨Nat.le_refl 0, Nat.zero_le _, rfl, .refl _, .refl _, fun _ member => absurd member List.not_mem_nil⟩

section
variable {capacity gone : Nat} {l : Ledger α}

theorem Kept.length (kept : Kept capacity l gone) : l.queued.length = l.added.length - gone := by
  rw [kept.queued, List.length_range']

/-- While some are queued, the oldest one has the first number that has not left. -/
theorem Kept.oldest (kept : Kept capacity l gone) (some : gone < l.added.length) :
    l.queued.head? = .some gone ∧ l.queued.tail = List.range' (gone + 1) (l.added.length - (gone + 1)) := by
  obtain ⟨rest, left⟩ : ∃ rest, l.added.length - gone = rest + 1 := ⟨l.added.length - gone - 1, by omega⟩
  rw [kept.queued, left, List.range'_succ]
  refine ⟨rfl, ?_⟩
  rw [List.tail_cons]
  congr 1
  omega

theorem Kept.none (kept : Kept capacity l gone) (all : ¬ gone < l.added.length) : l.queued = [] := by
  rw [kept.queued, Nat.sub_eq_zero_of_le (Nat.not_lt.mp all)]
  rfl

/-- An element is taken out. -/
theorem Kept.pop (kept : Kept capacity l gone) : ∃ gone', Kept capacity (l.step capacity .pop) gone' := by
  by_cases some : gone < l.added.length
  · obtain ⟨head, tail⟩ := kept.oldest some
    refine ⟨gone + 1, some, ?_, tail, ?_, ?_, kept.outrun⟩
    · have bounded := kept.bounded
      change l.added.length ≤ _
      omega
    · simp only [step, head, Option.toList_some, List.range_succ]
      rw [List.append_assoc]
      exact (List.perm_append_comm.append_left _).trans (by rw [← List.append_assoc]; exact kept.accounted.append_right _)
    · simp only [step, head, Option.toList_some, List.range_succ]
      exact kept.popped.append (.refl _)
  · have same : l.step capacity .pop = l := by
      simp only [step, kept.none some, List.tail_nil, List.head?_nil, Option.toList_none, List.append_nil]
      rw [← kept.none some]
    exact ⟨gone, by rw [same]; exact kept⟩

/-- An element is added to a queue that has room. -/
theorem Kept.add_room (kept : Kept capacity l gone) (a : α) (room : l.queued.length < capacity) :
    Kept capacity (l.step capacity (.add a)) gone := by
  have length := kept.length
  have within := kept.within
  have spare : ¬ l.queued.length ≥ capacity := Nat.not_le.mpr room
  refine ⟨?_, ?_, ?_, ?_, kept.popped, ?_⟩
  · simp only [step, List.length_append, List.length_singleton]
    omega
  · simp only [step, List.length_append, List.length_singleton]
    omega
  · simp only [step, push, spare, if_false, List.length_append, List.length_singleton]
    rw [kept.queued, show l.added.length + 1 - gone = (l.added.length - gone) + 1 by omega, List.range'_1_concat,
      Nat.add_sub_cancel' within]
  · simp only [step, spare, if_false, List.append_nil]
    exact kept.accounted
  · simp only [step, spare, if_false, List.append_nil, List.length_append, List.length_singleton]
    exact fun loss member => (kept.outrun loss member).imp_right Nat.lt_succ_of_lt

/-- An element is added to a full queue. The one that is lost has seen as many additions as the queue holds. -/
theorem Kept.add_full (kept : Kept capacity l gone) (a : α) (positive : 1 ≤ capacity) (full : l.queued.length ≥ capacity) :
    Kept capacity (l.step capacity (.add a)) (gone + 1) := by
  have length := kept.length
  have bounded := kept.bounded
  have some : gone < l.added.length := by omega
  obtain ⟨head, tail⟩ := kept.oldest some
  refine ⟨?_, ?_, ?_, ?_, ?_, ?_⟩
  · simp only [step, List.length_append, List.length_singleton]
    omega
  · simp only [step, List.length_append, List.length_singleton]
    omega
  · simp only [step, push, full, if_true, tail, List.length_append, List.length_singleton]
    rw [show l.added.length + 1 - (gone + 1) = (l.added.length - (gone + 1)) + 1 by omega, List.range'_1_concat,
      Nat.add_sub_cancel' some]
  · simp only [step, full, if_true, head, Option.toList_some, List.map_append, List.map_cons, List.map_nil,
      List.range_succ]
    rw [← List.append_assoc]
    exact kept.accounted.append_right _
  · exact kept.popped.trans (by rw [List.range_succ]; exact List.sublist_append_left _ _)
  · simp only [step, full, if_true, head, Option.toList_some, List.map_cons, List.map_nil, List.length_append,
      List.length_singleton]
    intro loss member
    rcases List.mem_append.mp member with before | last
    · exact (kept.outrun loss before).imp_right Nat.lt_succ_of_lt
    · rw [List.mem_singleton.mp last]
      exact ⟨by omega, Nat.lt_succ_self _⟩

theorem Kept.step (kept : Kept capacity l gone) (positive : 1 ≤ capacity) (op : Op α) :
    ∃ gone', Kept capacity (l.step capacity op) gone' := by
  cases op with
  | pop => exact kept.pop
  | add a =>
    by_cases full : l.queued.length ≥ capacity
    · exact ⟨gone + 1, kept.add_full a positive full⟩
    · exact ⟨gone, kept.add_room a (Nat.not_le.mp full)⟩

/-! ### The elements -/

theorem filterMap_range' (list : List α) (start count : Nat) :
    (List.range' start count).filterMap (list[·]?) = (list.drop start).take count := by
  induction count generalizing start with
  | zero => simp
  | succ count ih =>
    rw [List.range'_succ, List.filterMap_cons, ih]
    rcases Nat.lt_or_ge start list.length with inside | outside
    · rw [List.getElem?_eq_getElem inside, List.drop_eq_getElem_cons inside, List.take_succ_cons]
    · rw [List.getElem?_eq_none outside, List.drop_eq_nil_of_le outside, List.drop_eq_nil_of_le (by omega)]
      simp

/-- The queued elements are the last ones added. -/
theorem Kept.elements_queued (kept : Kept capacity l gone) : l.elements l.queued = l.added.drop gone := by
  rw [elements, kept.queued, filterMap_range', List.take_of_length_le (by rw [List.length_drop])]

/-- The elements that were taken out came out in order. -/
theorem Kept.elements_popped (kept : Kept capacity l gone) : (l.elements l.popped).Sublist l.added := by
  have all : (List.range gone).filterMap (l.added[·]?) = l.added.take gone := by
    rw [List.range_eq_range', filterMap_range', List.drop_zero]
  exact ((kept.popped.filterMap _).trans (by rw [all])).trans (List.take_sublist _ _)

/-- Elements added later do not change those that are known. -/
theorem Kept.elements_added (kept : Kept capacity l gone) (a : α) :
    (l.added ++ [a]).drop gone = l.added.drop gone ++ [a] ∧
      l.popped.filterMap ((l.added ++ [a])[·]?) = l.elements l.popped := by
  refine ⟨List.drop_append_of_le_length kept.within, List.filterMap_congr fun number member => ?_⟩
  have below := List.mem_range.mp (kept.popped.subset member)
  rw [List.getElem?_append_left (Nat.lt_of_lt_of_le below kept.within)]

/-- The elements go through a queue in the way in which the numbers go through theirs. -/
theorem Kept.elements_step (kept : Kept capacity l gone) (positive : 1 ≤ capacity) (op : Op α) :
    (l.step capacity op).elements (l.step capacity op).queued = (match op with
      | .add a => push capacity a (l.elements l.queued)
      | .pop => (l.elements l.queued).tail) ∧
    (l.step capacity op).elements (l.step capacity op).popped = l.elements l.popped ++ (match op with
      | .add _ => []
      | .pop => (l.elements l.queued).head?.toList) := by
  have length : (l.elements l.queued).length = l.queued.length := by
    rw [kept.elements_queued, List.length_drop, kept.length]
  cases op with
  | add a =>
    simp only [push, length]
    refine ⟨?_, (kept.elements_added a).2.trans (List.append_nil _).symm⟩
    by_cases full : l.queued.length ≥ capacity
    · rw [(kept.add_full a positive full).elements_queued, kept.elements_queued]
      have some : gone < l.added.length := by
        have := kept.length
        omega
      simp only [full, if_true, List.tail_drop]
      exact List.drop_append_of_le_length some
    · rw [(kept.add_room a (Nat.not_le.mp full)).elements_queued, kept.elements_queued]
      simp only [full, if_false]
      exact (kept.elements_added a).1
  | pop =>
    have queued := kept.elements_queued
    simp only
    by_cases some : gone < l.added.length
    · obtain ⟨head, tail⟩ := kept.oldest some
      rw [queued]
      simp only [Ledger.step, elements, head, tail, filterMap_range', List.tail_drop, List.head?_drop, Option.toList_some,
        List.filterMap_append]
      refine ⟨List.take_of_length_le (by rw [List.length_drop]), ?_⟩
      rw [List.getElem?_eq_getElem some]
      simp [List.getElem?_eq_getElem some]
    · have none := kept.none some
      simp [Ledger.step, elements, none]

end

/-- However elements are added and taken out, the ledger is kept. -/
theorem after_kept {capacity : Nat} (positive : 1 ≤ capacity) (ops : List (Op α)) :
    ∃ gone, Kept capacity (after capacity ops) gone := by
  induction ops using List.reverseRecOn with
  | nil => exact ⟨0, empty_kept capacity⟩
  | append_singleton ops op ih =>
    obtain ⟨gone, kept⟩ := ih
    rw [after, List.foldl_append]
    exact kept.step positive op

end Ledger

end Fifo
