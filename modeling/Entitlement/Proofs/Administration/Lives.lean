import Entitlement.Proofs.Store.Change
import Entitlement.Proofs.Store.Tables

/-!
# The lives of entries

What the trail tells of one entry begins with its making, goes on with edits and may end with its deletion
(`Lived`). `Memory.Chronicled` says so of every entry, and that the life of a stored one has not ended; it
is kept when an entry is made, edited or emptied and the trail tells of that.
-/

namespace Entitlement

/-! ### What is told of an entry -/

/-- What is told of an entry that is made and then edited so many times. -/
def opened (edits : Nat) : List String :=
  AuditAction.entryCreated.toText :: List.replicate edits AuditAction.entryEdited.toText

/-- Nothing, or the making of an entry, its edits, and its deletion if it comes to that. -/
def Lived (actions : List String) : Prop :=
  actions = [] ∨ ∃ edits, actions = opened edits ∨
    actions = opened edits ++ [AuditAction.entryDeleted.toText]

theorem opened_succ (edits : Nat) :
    opened edits ++ [AuditAction.entryEdited.toText] = opened (edits + 1) := by
  rw [opened, opened, List.replicate_succ', List.cons_append]

theorem deleted_not_mem_opened (edits : Nat) : AuditAction.entryDeleted.toText ∉ opened edits := by
  intro mem
  rcases List.mem_cons.mp mem with same | mem
  · exact absurd same (by decide)
  · exact absurd (List.eq_of_mem_replicate mem) (by decide)

theorem Lived.open_iff {actions : List String} (lived : Lived actions) :
    AuditAction.entryCreated.toText ∈ actions ∧ AuditAction.entryDeleted.toText ∉ actions ↔
      ∃ edits, actions = opened edits := by
  constructor
  · rintro ⟨created, undeleted⟩
    rcases lived with rfl | ⟨edits, rfl | rfl⟩
    · cases created
    · exact ⟨edits, rfl⟩
    · exact absurd (List.mem_append_right _ List.mem_cons_self) undeleted
  · rintro ⟨edits, rfl⟩
    exact ⟨List.mem_cons_self, deleted_not_mem_opened edits⟩

namespace Memory

/-- The actions that the trail tells of an entry, oldest first. -/
def told (m : Memory) (id : EntryId) : List String :=
  ((m.events.filter (·.resourceId == .entry id)).map (·.action)).reverse

/-- One more action is told of one entry. -/
def Tells (m m' : Memory) (id : EntryId) (action : AuditAction) : Prop :=
  ∀ other, m'.told other = m.told other ++ if other = id then [action.toText] else []

variable {m m' : Memory}

theorem told_congr (same : m'.events = m.events) : m'.told = m.told := by
  funext id
  rw [told, told, same]

theorem record_tells {event : AuditEvent} {id : EntryId} (about : event.resourceId = .entry id) :
    m.Tells (m.record event) id event.action := by
  intro other
  have own : event.toEntry.resourceId = .entry id := about
  rw [told, told, record, List.filter_cons, own]
  by_cases same : other = id
  · rw [if_pos same, if_pos (by rw [same, beq_self_eq_true]), List.map_cons, List.reverse_cons]
    rfl
  · rw [if_neg same, if_neg (by simpa using fun here => same here.symm), List.append_nil]

theorem record_told {event : AuditEvent} {text : String} (about : event.resourceId = .text text) :
    (m.record event).told = m.told := by
  funext id
  have own : event.toEntry.resourceId = .text text := about
  rw [told, told, record, List.filter_cons, own, if_neg (by simp)]

/-! ### The trail and the stored entries -/

/-- What is told of every entry is a life, and that of a stored one goes on; and the numbers that are to
come have not been given. -/
structure Chronicled (m : Memory) : Prop where
  lived : ∀ id, Lived (m.told id)
  stored : ∀ key entry, m.entries.get? key = some entry → ∃ edits, m.told entry.id = opened edits
  apart : m.entries.Apart (·.id)
  unmade : ∀ n, m.entriesMade < n → m.told (.numbered n) = []

theorem empty_chronicled : (∅ : Memory).Chronicled where
  lived _ := .inl rfl
  stored _ _ found := by cases found
  apart _ _ _ _ found := by cases found
  unmade _ _ := rfl

theorem Tells.own {id : EntryId} {action : AuditAction} (tells : m.Tells m' id action) :
    m'.told id = m.told id ++ [action.toText] := by
  rw [tells id, if_pos rfl]

theorem Tells.other {id other : EntryId} {action : AuditAction} (tells : m.Tells m' id action)
    (differs : other ≠ id) : m'.told other = m.told other := by
  rw [tells other, if_neg differs, List.append_nil]

theorem Tells.lived {id : EntryId} {action : AuditAction} (tells : m.Tells m' id action)
    (own : Lived (m'.told id)) (others : ∀ other, Lived (m.told other)) (other : EntryId) :
    Lived (m'.told other) := by
  by_cases here : other = id
  · rw [here]
    exact own
  · rw [tells.other here]
    exact others other

theorem Chronicled.stored_ne (chronicled : m.Chronicled) {key : EntryKey} {entry : Entry}
    (found : m.entries.get? key = some entry) {n : Nat} (later : m.entriesMade < n) :
    EntryId.numbered n ≠ entry.id := by
  intro here
  obtain ⟨edits, told⟩ := chronicled.stored key entry found
  rw [← here, chronicled.unmade n later] at told
  cases told

/-- Entries may go without a word. -/
theorem Chronicled.of_fewer (chronicled : m.Chronicled)
    (fewer : ∀ key entry, m'.entries.get? key = some entry → m.entries.get? key = some entry)
    (made : m'.entriesMade = m.entriesMade) (told : m'.told = m.told) : m'.Chronicled where
  lived := told ▸ chronicled.lived
  stored key entry found := told ▸ chronicled.stored key entry (fewer key entry found)
  apart := chronicled.apart.of_fewer fewer
  unmade := told ▸ made ▸ chronicled.unmade

theorem Chronicled.make (chronicled : m.Chronicled) {key : EntryKey} {entry : Entry}
    (numbered : entry.id = .numbered (m.entriesMade + 1))
    (entries : m'.entries = m.entries.insert key entry)
    (made : m'.entriesMade = m.entriesMade + 1) (tells : m.Tells m' entry.id .entryCreated) :
    m'.Chronicled := by
  have untold : m.told entry.id = [] := numbered ▸ chronicled.unmade _ (Nat.lt_succ_self _)
  have begun : m'.told entry.id = opened 0 := by
    rw [tells.own, untold]
    rfl
  have older : ∀ key' entry', m.entries.get? key' = some entry' → entry'.id ≠ entry.id := by
    intro key' entry' found
    rw [numbered]
    exact (chronicled.stored_ne found (Nat.lt_succ_self _)).symm
  refine ⟨tells.lived (.inr ⟨0, .inl begun⟩) chronicled.lived, ?_, ?_, fun n later => ?_⟩
  · rw [entries]
    refine SortedMap.forall_insert ⟨0, begun⟩ fun key' entry' found _ => ?_
    rw [tells.other (older key' entry' found)]
    exact chronicled.stored key' entry' found
  · rw [entries]
    exact chronicled.apart.insert fun key' entry' found same => absurd same (older key' entry' found)
  · rw [made] at later
    have differs : EntryId.numbered n ≠ entry.id := by
      rw [numbered]
      intro same
      cases same
      omega
    rw [tells.other differs]
    exact chronicled.unmade n (by omega)

theorem Chronicled.edit (chronicled : m.Chronicled) {key : EntryKey} {entry entry' : Entry}
    (found : m.entries.get? key = some entry) (same : entry'.id = entry.id)
    (entries : m'.entries = m.entries.insert key entry') (made : m'.entriesMade = m.entriesMade)
    (tells : m.Tells m' entry.id .entryEdited) : m'.Chronicled := by
  obtain ⟨edits, told⟩ := chronicled.stored key entry found
  have goes_on : m'.told entry.id = opened (edits + 1) := by
    rw [tells.own, told, opened_succ]
  refine ⟨tells.lived (.inr ⟨edits + 1, .inl goes_on⟩) chronicled.lived, ?_, ?_, fun n later => ?_⟩
  · rw [entries]
    refine SortedMap.forall_insert ⟨edits + 1, same ▸ goes_on⟩ fun key' other found' differs => ?_
    have apart : other.id ≠ entry.id := fun here =>
      differs (chronicled.apart key' key other entry found' found here)
    rw [tells.other apart]
    exact chronicled.stored key' other found'
  · rw [entries]
    refine chronicled.apart.insert fun key' other found' here => ?_
    exact chronicled.apart key' key other entry found' found (here.trans same)
  · rw [made] at later
    rw [tells.other (chronicled.stored_ne found later)]
    exact chronicled.unmade n later

theorem Chronicled.empty (chronicled : m.Chronicled) {key : EntryKey} {entry : Entry}
    (found : m.entries.get? key = some entry) (entries : m'.entries = m.entries.erase key)
    (made : m'.entriesMade = m.entriesMade) (tells : m.Tells m' entry.id .entryDeleted) :
    m'.Chronicled := by
  obtain ⟨edits, told⟩ := chronicled.stored key entry found
  have ended : m'.told entry.id = opened edits ++ [AuditAction.entryDeleted.toText] := by
    rw [tells.own, told]
  have kept : ∀ key' other, m'.entries.get? key' = some other →
      m.entries.get? key' = some other ∧ other.id ≠ entry.id := by
    intro key' other found'
    rw [entries, SortedMap.get?_erase] at found'
    split at found'
    · cases found'
    · rename_i differs
      exact ⟨found', fun here => differs (chronicled.apart key' key other entry found' found here)⟩
  refine ⟨tells.lived (.inr ⟨edits, .inr ended⟩) chronicled.lived, fun key' other found' => ?_,
    chronicled.apart.of_fewer fun key' other found' => (kept key' other found').1, fun n later => ?_⟩
  · obtain ⟨before, apart⟩ := kept key' other found'
    rw [tells.other apart]
    exact chronicled.stored key' other before
  · rw [made] at later
    rw [tells.other (chronicled.stored_ne found later)]
    exact chronicled.unmade n later

end Memory

end Entitlement
