import Masaka.Handlers
import Masaka.Runs

/-!
Topic aliases of version 5.0. A handler numbers the topics in the order of their
first messages; the counter of 16 bits is incremented without a check.
-/
namespace Masaka.Aliases
open Tables Runs

/-- A call of `create_publish_with_config` that leaves the topic alias unset. -/
structure Request where
  topic : TopicName
  qos : QoS
  retain : Bool
  payload : Bytes
  pid : Option Pid
  dup : Bool
  config : V5PublishConfig
  unset : config.topic_alias = none

namespace Request

/-- What the call returns, and the handler it leaves. -/
def create (r : Request) (h : V5Handler) : Except ErrorV5 V5.Packet × V5Handler :=
  V5Handler.create_publish_with_config r.topic r.qos r.retain r.payload r.pid r.dup r.config h

/-- The call comes with an identifier exactly if its level needs one. -/
def Fits (r : Request) : Prop := r.qos = .Level0 ↔ r.pid = none

instance (r : Request) : Decidable r.Fits := inferInstanceAs (Decidable (_ ↔ _))

end Request

def after (h : V5Handler) (r : Request) : V5Handler := (r.create h).2

/-- The packet of a call, if it creates one. -/
def created (h : V5Handler) (r : Request) : List V5.Publish :=
  match (r.create h).1 with
  | .ok (.Publish publish) => [publish]
  | _ => []

/-- The increment of the counter overflows: a debug build panics, a release build goes on with 0. -/
def Overflows (h : V5Handler) (r : Request) : Prop := (after h r).next_topic_alias < h.next_topic_alias

/-- An alias that no topic has. -/
def Left (h : V5Handler) : Prop := ∃ topic_alias : UInt16, topic_alias ≠ 0 ∧
  ∀ topic, h.topic_aliases.lookup topic ≠ some topic_alias

/-- The aliases of all the packets are valid and unambiguous. -/
structure Unambiguous (h : V5Handler) (requests : List Request) : Prop where
  counter : Along after (fun h r => ¬ Overflows h r) h requests
  bounds : ∀ p ∈ gather after created h requests, ∀ topic_alias, p.properties.topic_alias = some topic_alias →
    1 ≤ topic_alias.toNat ∧ topic_alias.toNat ≤ 65535
  same : ∀ p ∈ gather after created h requests, ∀ q ∈ gather after created h requests,
    p.topic_name = q.topic_name → p.properties.topic_alias = q.properties.topic_alias
  distinct : ∀ p ∈ gather after created h requests, ∀ q ∈ gather after created h requests, ∀ topic_alias,
    p.properties.topic_alias = some topic_alias → q.properties.topic_alias = some topic_alias → p.topic_name = q.topic_name
  exhausted : Along after (fun h r => r.topic ∉ h.topic_aliases → ¬ Left h →
    ∀ p ∈ created h r, p.properties.topic_alias = none) h requests

/-- The topics of the calls that create a packet. -/
def topics (requests : List Request) : Finset TopicName :=
  ((requests.filter fun r => r.Fits).map Request.topic).toFinset

/-- What a call does. -/
inductive Creates (h : V5Handler) (r : Request) : V5Handler → List V5.Publish → Prop where
  | refused : ¬ r.Fits → Creates h r h []
  | known {publish : V5.Publish} {topic_alias : UInt16} : r.Fits → h.topic_aliases.lookup r.topic = some topic_alias →
      publish.topic_name = r.topic → publish.properties.topic_alias = some topic_alias → Creates h r h [publish]
  | assigned {publish : V5.Publish} : r.Fits → r.topic ∉ h.topic_aliases →
      publish.topic_name = r.topic → publish.properties.topic_alias = some h.next_topic_alias →
      Creates h r { h with topic_aliases := h.topic_aliases.insert r.topic h.next_topic_alias
                           next_topic_alias := h.next_topic_alias + 1 } [publish]

theorem fits_iff (r : Request) : r.Fits ↔ ∃ qp, qos_pid r.qos r.pid = .ok qp := by
  rw [Request.Fits]
  cases r.qos <;> cases r.pid <;> simp [qos_pid]

theorem create_spec (h : V5Handler) (r : Request) : Creates h r (after h r) (created h r) := by
  have unset := r.unset
  unfold after created Request.create V5Handler.create_publish_with_config
  cases level : qos_pid r.qos r.pid with
  | error err =>
    refine .refused fun fits => ?_
    obtain ⟨qp, same⟩ := (fits_iff r).mp fits
    cases level.symm.trans same
  | ok qp =>
    have fits : r.Fits := (fits_iff r).mpr ⟨qp, level⟩
    dsimp only
    cases known : h.topic_aliases.lookup r.topic with
    | some topic_alias => exact .known fits known rfl rfl
    | none =>
      simp only [unset, Option.isNone_none, if_true]
      exact .assigned fits (AList.lookup_eq_none.mp known) rfl rfl

/-! ### As long as the counter does not overflow -/

/-- The aliases are the numbers from 1 on, each of one topic, and the counter is the next one. -/
structure Numbered (h : V5Handler) : Prop where
  next : h.next_topic_alias.toNat = len h.topic_aliases + 1
  bounds : ∀ topic topic_alias, h.topic_aliases.lookup topic = some topic_alias →
    1 ≤ topic_alias.toNat ∧ topic_alias.toNat ≤ len h.topic_aliases
  distinct : ∀ topic other topic_alias, h.topic_aliases.lookup topic = some topic_alias →
    h.topic_aliases.lookup other = some topic_alias → topic = other

theorem numbered_new (config : V5ConnectConfig) : Numbered (V5Handler.with_config config) := by
  refine ⟨rfl, ?_, ?_⟩
  · intro topic topic_alias found
    cases found
  · intro topic other topic_alias found
    cases found

theorem Numbered.few {h : V5Handler} (numbered : Numbered h) : len h.topic_aliases < 65535 := by
  have next := numbered.next
  have bound := h.next_topic_alias.toNat_lt
  omega

theorem Numbered.left {h : V5Handler} (numbered : Numbered h) : Left h := by
  have next := numbered.next
  refine ⟨h.next_topic_alias, ?_, fun topic found => ?_⟩
  · intro zero
    rw [zero] at next
    simp at next
  · have bound := (numbered.bounds topic _ found).2
    omega

/-- A topic keeps its alias. -/
theorem lookup_after {h : V5Handler} {r : Request} {topic : TopicName} {topic_alias : UInt16}
    (found : h.topic_aliases.lookup topic = some topic_alias) : (after h r).topic_aliases.lookup topic = some topic_alias := by
  have creates := create_spec h r
  generalize after h r = h' at creates ⊢
  generalize created h r = packets at creates
  cases creates with
  | refused _ | known _ _ _ _ => exact found
  | assigned _ absent _ _ =>
    have other : topic ≠ r.topic := by
      rintro rfl
      exact absent (mem_iff_lookup.mpr ⟨topic_alias, found⟩)
    exact (AList.lookup_insert_ne other).trans found

/-- A packet carries the alias of its topic. -/
theorem created_alias {h : V5Handler} {r : Request} {p : V5.Publish} (member : p ∈ created h r) :
    ∃ topic_alias, p.properties.topic_alias = some topic_alias ∧
      (after h r).topic_aliases.lookup p.topic_name = some topic_alias := by
  have creates := create_spec h r
  generalize after h r = h' at creates ⊢
  generalize created h r = packets at creates member
  cases creates with
  | refused _ => simp at member
  | known _ found topic same =>
    cases List.mem_singleton.mp member
    exact ⟨_, same, by rw [topic]; exact found⟩
  | assigned _ _ topic same =>
    cases List.mem_singleton.mp member
    refine ⟨_, same, ?_⟩
    rw [topic]
    exact AList.lookup_insert _

/-- The topics that have an alias are those that had one, and that of the call. -/
theorem mem_after {h : V5Handler} {r : Request} {topic : TopicName} :
    topic ∈ (after h r).topic_aliases ↔ topic ∈ h.topic_aliases ∨ r.Fits ∧ topic = r.topic := by
  have creates := create_spec h r
  generalize after h r = h' at creates ⊢
  generalize created h r = packets at creates
  cases creates with
  | refused misfit => simp [misfit]
  | known fits found _ _ =>
    have member : r.topic ∈ h.topic_aliases := mem_iff_lookup.mpr ⟨_, found⟩
    constructor
    · exact .inl
    · rintro (before | ⟨-, rfl⟩)
      · exact before
      · exact member
  | assigned fits _ _ _ =>
    rw [AList.mem_insert]
    simp [fits, or_comm]

/-- A call that does not overflow keeps the aliases numbered. -/
theorem numbered_after {h : V5Handler} {r : Request} (numbered : Numbered h) (fine : ¬ Overflows h r) :
    Numbered (after h r) := by
  have creates := create_spec h r
  unfold Overflows at fine
  generalize after h r = h' at creates fine ⊢
  generalize created h r = packets at creates
  cases creates with
  | refused _ | known _ _ _ _ => exact numbered
  | assigned _ absent _ _ =>
    have next := numbered.next
    have size := len_insert_absent absent h.next_topic_alias
    -- The next number fits, or else the counter would have gone down.
    have room : (h.next_topic_alias + 1).toNat = h.next_topic_alias.toNat + 1 := by
      have bound := h.next_topic_alias.toNat_lt
      rw [UInt16.lt_iff_toNat_lt, UInt16.toNat_add] at fine
      rw [UInt16.toNat_add]
      simp at fine ⊢
      omega
    refine ⟨?_, ?_, ?_⟩
    · rw [room, size, next]
    · intro topic topic_alias found
      dsimp only at found ⊢
      rw [size]
      rw [lookup_insert_if] at found
      split at found
      · cases found
        omega
      · have bounds := numbered.bounds topic topic_alias found
        omega
    · intro topic other topic_alias found found'
      rw [lookup_insert_if] at found found'
      -- A number that was given before is smaller than the new one.
      have fresh : ∀ topic, h.topic_aliases.lookup topic ≠ some h.next_topic_alias := by
        intro topic given
        have bound := (numbered.bounds topic _ given).2
        omega
      split at found <;> split at found'
      · rename_i first second
        rw [first, second]
      · cases found
        exact absurd found' (fresh other)
      · cases found'
        exact absurd found (fresh topic)
      · exact numbered.distinct topic other topic_alias found found'

/-- No alias is lost. -/
theorem len_after (h : V5Handler) (r : Request) : len h.topic_aliases ≤ len (after h r).topic_aliases := by
  have creates := create_spec h r
  generalize after h r = h' at creates ⊢
  generalize created h r = packets at creates
  cases creates with
  | refused _ | known _ _ _ _ => exact Nat.le_refl _
  | assigned _ absent _ _ =>
    have size := len_insert_absent absent h.next_topic_alias
    dsimp only
    omega

/-- The counter overflows when it gives out the last alias. -/
theorem overflow_full {h : V5Handler} {r : Request} (numbered : Numbered h) (overflows : Overflows h r) :
    65535 ≤ len (after h r).topic_aliases := by
  have creates := create_spec h r
  unfold Overflows at overflows
  generalize after h r = h' at creates overflows ⊢
  generalize created h r = packets at creates
  cases creates with
  | refused _ | known _ _ _ _ => exact absurd overflows (UInt16.lt_irrefl _)
  | assigned _ absent _ _ =>
    have next := numbered.next
    have size := len_insert_absent absent h.next_topic_alias
    have bound := h.next_topic_alias.toNat_lt
    rw [UInt16.lt_iff_toNat_lt, UInt16.toNat_add] at overflows
    simp at overflows
    dsimp only
    omega

/-! ### Runs of calls -/

theorem lookup_run {h : V5Handler} {topic : TopicName} {topic_alias : UInt16}
    (found : h.topic_aliases.lookup topic = some topic_alias) (requests : List Request) :
    (run after h requests).topic_aliases.lookup topic = some topic_alias :=
  invariant_all (I := fun h : V5Handler => h.topic_aliases.lookup topic = some topic_alias)
    (fun _ _ found => lookup_after found) found requests

theorem len_run (h : V5Handler) (requests : List Request) :
    len h.topic_aliases ≤ len (run after h requests).topic_aliases :=
  invariant_all (I := fun h' : V5Handler => len h.topic_aliases ≤ len h'.topic_aliases)
    (fun h' r less => less.trans (len_after h' r)) (Nat.le_refl _) requests

theorem mem_run {h : V5Handler} {topic : TopicName} (requests : List Request) :
    topic ∈ (run after h requests).topic_aliases ↔ topic ∈ h.topic_aliases ∨ topic ∈ topics requests := by
  induction requests generalizing h with
  | nil => simp [topics]
  | cons r requests ih =>
    rw [run_cons, ih, mem_after, or_assoc]
    refine or_congr_right ?_
    by_cases fits : r.Fits <;> simp [topics, fits]

/-- Every packet carries the alias that its topic has in the end. -/
theorem gathered_alias {h : V5Handler} {requests : List Request} {p : V5.Publish}
    (member : p ∈ gather after created h requests) : ∃ topic_alias, p.properties.topic_alias = some topic_alias ∧
      (run after h requests).topic_aliases.lookup p.topic_name = some topic_alias := by
  induction requests generalizing h with
  | nil => simp at member
  | cons r requests ih =>
    rw [gather_cons, List.mem_append] at member
    rcases member with now | later
    · obtain ⟨topic_alias, carried, found⟩ := created_alias now
      exact ⟨topic_alias, carried, lookup_run found requests⟩
    · exact ih later

/-- A new handler has as many aliases as it was given topics. -/
theorem len_topics (config : V5ConnectConfig) (requests : List Request) :
    len (run after (V5Handler.with_config config) requests).topic_aliases = (topics requests).card := by
  rw [len, ← List.toFinset_card_of_nodup (AList.keys_nodup _)]
  congr 1
  ext topic
  rw [List.mem_toFinset, ← AList.mem_keys, mem_run]
  simp [V5Handler.with_config]

/-- Without enough topics to give out the last alias the counter does not overflow. -/
theorem along_few {h : V5Handler} {requests : List Request} (numbered : Numbered h)
    (few : len (run after h requests).topic_aliases < 65535) : Along after (fun h r => ¬ Overflows h r) h requests := by
  induction requests generalizing h with
  | nil => trivial
  | cons r requests ih =>
    rw [run_cons] at few
    have fine : ¬ Overflows h r := by
      intro overflows
      have full := overflow_full numbered overflows
      have grows := len_run (after h r) requests
      omega
    exact ⟨fine, ih (numbered_after numbered fine) few⟩

/-- The last of the aliases is never given out without an overflow. -/
theorem few_topics {config : V5ConnectConfig} {requests : List Request}
    (fine : Along after (fun h r => ¬ Overflows h r) (V5Handler.with_config config) requests) :
    (topics requests).card < 65535 := by
  have numbered : Numbered (run after (V5Handler.with_config config) requests) :=
    Runs.invariant (fun _ _ numbered fine => numbered_after numbered fine) (numbered_new config) fine
  rw [← len_topics config]
  exact numbered.few

/-- As long as the counter does not overflow an alias is left. -/
theorem along_numbered {h : V5Handler} {requests : List Request} (numbered : Numbered h)
    (fine : Along after (fun h r => ¬ Overflows h r) h requests) : Along after (fun h r => r.topic ∉ h.topic_aliases →
      ¬ Left h → ∀ p ∈ created h r, p.properties.topic_alias = none) h requests := by
  induction requests generalizing h with
  | nil => trivial
  | cons r requests ih => exact ⟨fun _ none => absurd numbered.left none, ih (numbered_after numbered fine.1) fine.2⟩

/-- The aliases of a handler are valid and unambiguous exactly if the packets have
    fewer than 65535 topics. -/
theorem unambiguous_iff (config : V5ConnectConfig) (requests : List Request) :
    Unambiguous (V5Handler.with_config config) requests ↔ (topics requests).card < 65535 := by
  constructor
  · exact fun unambiguous => few_topics unambiguous.counter
  intro few
  rw [← len_topics config] at few
  have counter := along_few (numbered_new config) few
  have numbered : Numbered (run after (V5Handler.with_config config) requests) :=
    Runs.invariant (fun _ _ numbered fine => numbered_after numbered fine) (numbered_new config) counter
  refine ⟨counter, ?_, ?_, ?_, ?_⟩
  · intro p member topic_alias carried
    obtain ⟨given, carries, found⟩ := gathered_alias member
    cases carried.symm.trans carries
    have bounds := numbered.bounds _ _ found
    exact ⟨bounds.1, by omega⟩
  · intro p member q member' same
    obtain ⟨given, carries, found⟩ := gathered_alias member
    obtain ⟨given', carries', found'⟩ := gathered_alias member'
    rw [same] at found
    rw [carries, carries', ← found, ← found']
  · intro p member q member' topic_alias carried carried'
    obtain ⟨given, carries, found⟩ := gathered_alias member
    obtain ⟨given', carries', found'⟩ := gathered_alias member'
    cases carried.symm.trans carries
    cases carried'.symm.trans carries'
    exact numbered.distinct _ _ _ found found'
  · -- Some alias is always left.
    exact along_numbered (numbered_new config) counter

/-! ### Too many topics -/

/-- A message of level 0 on the topic. -/
def message (topic : TopicName) : Request where
  topic := topic
  qos := .Level0
  retain := false
  payload := []
  pid := none
  dup := false
  config := {}
  unset := rfl

/-- The topics "a", "aa", "aaa" and so on. -/
def many (n : Nat) : List TopicName := (List.range n).map fun length => String.ofList (List.replicate (length + 1) 'a')

theorem many_nodup (n : Nat) : (many n).Nodup := by
  refine List.Nodup.map (fun length length' same => ?_) List.nodup_range
  have lengths := congrArg List.length (String.ofList_injective same)
  simpa using lengths

theorem topics_messages (names : List TopicName) : topics (names.map message) = names.toFinset := by
  have all : (names.map message).filter (fun r => r.Fits) = names.map message := by
    rw [List.filter_eq_self]
    intro r member
    obtain ⟨topic, -, rfl⟩ := List.mem_map.mp member
    exact decide_eq_true ⟨fun _ => rfl, fun _ => rfl⟩
  rw [topics, all, List.map_map]
  exact congrArg List.toFinset (List.map_id names)

theorem topics_many (n : Nat) : (topics ((many n).map message)).card = n := by
  rw [topics_messages, List.toFinset_card_of_nodup (many_nodup n), many, List.length_map, List.length_range]

/-- With 65535 topics the counter overflows. -/
theorem aliases_overflow : ¬ ∀ (config : V5ConnectConfig) (requests : List Request),
    Unambiguous (V5Handler.with_config config) requests := by
  intro unambiguous
  have few : ∀ n, n < 65535 := by
    intro n
    have fewer := few_topics (unambiguous {} ((many n).map message)).counter
    rwa [topics_many] at fewer
  exact Nat.lt_irrefl _ (few 65535)

end Masaka.Aliases
