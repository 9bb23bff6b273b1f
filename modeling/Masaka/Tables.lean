import Mathlib

/-!
Hash tables: finite maps whose iteration order is not specified. A table is an
association list; an iteration goes through its keys in an order that somebody
else chooses.
-/
namespace Tables

/-- A hash map: at most one value for each key. -/
abbrev HashMap (K V : Type) := AList fun _ : K => V
/-- A hash set, which is a hash map to the unit type. -/
abbrev HashSet (K : Type) := HashMap K Unit

/-- An order in which tables are iterated: every list of keys, rearranged. -/
structure IterOrder (K : Type) where
  order : List K → List K
  perm : ∀ keys, (order keys).Perm keys

/-- Every list of keys as it stands. -/
def IterOrder.same (K : Type) : IterOrder K := ⟨id, fun _ => .refl _⟩

variable {K V : Type}

/-- The number of entries. -/
def len (m : HashMap K V) : Nat := m.keys.length

section
variable [DecidableEq K]

/-- The entries, in the given order. -/
def iter (o : IterOrder K) (m : HashMap K V) : List (K × V) :=
  (o.order m.keys).filterMap fun k => (m.lookup k).map fun v => (k, v)

theorem lookup_insert_if (m : HashMap K V) (k k' : K) (v : V) :
    (m.insert k v).lookup k' = if k' = k then some v else m.lookup k' := by
  split
  · rename_i same; subst same; exact AList.lookup_insert m
  · rename_i other; exact AList.lookup_insert_ne other

theorem lookup_erase_if (m : HashMap K V) (k k' : K) :
    (m.erase k).lookup k' = if k' = k then none else m.lookup k' := by
  split
  · rename_i same; subst same; exact AList.lookup_erase k' m
  · rename_i other; exact AList.lookup_erase_ne other

theorem mem_iff_lookup {m : HashMap K V} {k : K} : k ∈ m ↔ ∃ v, m.lookup k = some v := by
  rw [← AList.lookup_isSome, Option.isSome_iff_exists]

theorem mem_iter {o : IterOrder K} {m : HashMap K V} {k : K} {v : V} :
    (k, v) ∈ iter o m ↔ m.lookup k = some v := by
  simp only [iter, List.mem_filterMap, Option.map_eq_some_iff, Prod.mk.injEq]
  constructor
  · rintro ⟨k', -, v', found, rfl, rfl⟩; exact found
  · intro found
    have member : k ∈ m.keys := AList.mem_keys.mp (mem_iff_lookup.mpr ⟨v, found⟩)
    exact ⟨k, (o.perm _).mem_iff.mpr member, v, found, rfl, rfl⟩

/-- A value that replaces another one takes no more room. -/
theorem len_insert {m : HashMap K V} {k : K} (present : k ∈ m) (v : V) : len (m.insert k v) = len m := by
  have listed : k ∈ m.keys := AList.mem_keys.mp present
  have some_key := List.length_pos_of_mem listed
  rw [len, len, AList.keys_insert, List.length_cons, List.length_erase_of_mem listed]
  omega

theorem len_insert_absent {m : HashMap K V} {k : K} (absent : k ∉ m) (v : V) : len (m.insert k v) = len m + 1 := by
  have unlisted : k ∉ m.keys := fun member => absent (AList.mem_keys.mpr member)
  rw [len, len, AList.keys_insert, List.length_cons, List.erase_of_not_mem unlisted]

theorem len_erase {m : HashMap K V} {k : K} (present : k ∈ m) : len (m.erase k) + 1 = len m := by
  have listed : k ∈ m.keys := AList.mem_keys.mp present
  have some_key := List.length_pos_of_mem listed
  rw [len, len, AList.keys_erase, List.length_erase_of_mem listed]
  omega

theorem erase_absent {m : HashMap K V} {k : K} (absent : k ∉ m) : m.erase k = m :=
  AList.ext (List.kerase_of_notMem_keys absent)

theorem len_insert_le (m : HashMap K V) (k : K) (v : V) : len (m.insert k v) ≤ len m + 1 := by
  by_cases present : k ∈ m
  · have same := len_insert present v
    omega
  · exact (len_insert_absent present v).le

theorem len_erase_le (m : HashMap K V) (k : K) : len (m.erase k) ≤ len m := by
  by_cases present : k ∈ m
  · have less := len_erase present
    omega
  · rw [erase_absent present]

/-- Two iterations visit the same entries. -/
theorem iter_perm (o o' : IterOrder K) (m : HashMap K V) : (iter o m).Perm (iter o' m) :=
  ((o.perm _).trans (o'.perm _).symm).filterMap _

/-- An iteration visits each key once, in the order given. -/
theorem iter_keys (o : IterOrder K) (m : HashMap K V) : (iter o m).map Prod.fst = o.order m.keys := by
  have every : ∀ k ∈ o.order m.keys, k ∈ m.keys := fun k member => (o.perm _).mem_iff.mp member
  rw [iter]
  generalize o.order m.keys = keys at every ⊢
  induction keys with
  | nil => rfl
  | cons k rest ih =>
    obtain ⟨v, found⟩ := mem_iff_lookup.mp (AList.mem_keys.mpr (every k List.mem_cons_self))
    rw [List.filterMap_cons, found]
    exact congrArg (k :: ·) (ih fun k' member => every k' (List.mem_cons_of_mem _ member))

theorem iter_nodup (o : IterOrder K) (m : HashMap K V) : ((iter o m).map Prod.fst).Nodup := by
  rw [iter_keys]
  exact (o.perm m.keys).nodup_iff.mpr m.nodupKeys

theorem iter_length (o : IterOrder K) (m : HashMap K V) : (iter o m).length = len m := by
  rw [← List.length_map (f := Prod.fst), iter_keys]
  exact (o.perm m.keys).length_eq

theorem iter_eq_nil {o : IterOrder K} {m : HashMap K V} (empty : iter o m = []) : m = ∅ := by
  refine AList.ext (List.eq_nil_iff_forall_not_mem.mpr fun entry member => ?_)
  have visited : (entry.1, entry.2) ∈ iter o m := mem_iter.mpr (AList.mem_lookup_iff.mpr member)
  rw [empty] at visited
  cases visited

end

end Tables
