import Entitlement.Proofs.Store.Decode
import Entitlement.Store.Memory

/-!
# Reading the audit trail page by page

Who asks for page after page up to the first empty one (`ReadThrough`) reads every event that passes the
filters once, newest first. The store in memory always lets one do so. The relational store begins no page
beyond its greatest offset, so that with more events than that every page shows some, and shows no page of
a subject with U+0000 in it (`trail_read_through`).
-/

namespace Entitlement

/-- Reading page after page, from an offset on and one page size further each time, up to the first page
without entries: what is read, and the offset of that page. -/
inductive ReadThrough (page : Nat → Except Failure (List AuditEntry)) (size : Nat) :
    Nat → List AuditEntry → Nat → Prop where
  | stop {offset : Nat} (empty : page offset = .ok []) : ReadThrough page size offset [] offset
  | more {offset last : Nat} {entries rest : List AuditEntry} (read : page offset = .ok entries)
      (filled : entries ≠ []) (others : ReadThrough page size (offset + size) rest last) :
      ReadThrough page size offset (entries ++ rest) last

section Store

variable {σ : Type} [Store σ]

/-- The store after some events, recorded one after another. -/
def recordAll (store : σ) (events : List AuditEvent) : Except Failure σ :=
  events.foldlM Store.record store

/-- The page that a store gives of its trail at an offset. -/
def pageAt (store : σ) (size : Nat) (action : Option AuditAction) (subject : Option String)
    (offset : Nat) : Except Failure (List AuditEntry) :=
  Store.trail store { limit := size, offset, action, subject }

end Store

/-- The events that are of the action and by the subject, newest first, as the trail shows them. -/
def passing (action : Option AuditAction) (subject : Option String) (events : List AuditEvent) :
    List AuditEntry :=
  (events.reverse.filter fun event =>
    action.all (event.action == ·) && subject.all (event.subject == ·)).map AuditEvent.toEntry

theorem passing_replicate (n : Nat) (event : AuditEvent) :
    passing none none (List.replicate n event) = List.replicate n event.toEntry := by
  simp [passing]

/-! ### Pages of a list -/

section Pages

variable {page : Nat → Except Failure (List AuditEntry)} {size offset last : Nat}
  {entries read : List AuditEntry}

theorem readThrough_of_empty (empty : page offset = .ok []) :
    ReadThrough page size offset read last ↔ read = [] ∧ last = offset := by
  constructor
  · intro through
    cases through with
    | stop _ => exact ⟨rfl, rfl⟩
    | more read filled _ =>
      rw [empty] at read
      exact absurd (Except.ok.inj read).symm filled
  · rintro ⟨rfl, rfl⟩
    exact .stop empty

theorem readThrough_of_filled (found : page offset = .ok entries) (filled : entries ≠ []) :
    ReadThrough page size offset read last ↔
      ∃ rest, read = entries ++ rest ∧ ReadThrough page size (offset + size) rest last := by
  constructor
  · intro through
    cases through with
    | stop empty =>
      rw [found] at empty
      exact absurd (Except.ok.inj empty) filled
    | more read _ others =>
      rw [found] at read
      cases read
      exact ⟨_, rfl, others⟩
  · rintro ⟨rest, rfl, others⟩
    exact .more found filled others

/-- Where no page is empty, reading never comes to an end. -/
theorem not_readThrough (unended : ∀ offset, page offset ≠ .ok []) :
    ¬ ReadThrough page size offset read last := by
  intro through
  induction through with
  | stop empty => exact unended _ empty
  | more _ _ _ ih => exact ih

theorem not_readThrough_of_filled
    (filled : ∀ offset, ∃ entries, page offset = .ok entries ∧ entries ≠ []) :
    ¬ ReadThrough page size offset read last := by
  refine not_readThrough fun offset empty => ?_
  obtain ⟨entries, shown, some⟩ := filled offset
  exact some (Except.ok.inj (shown.symm.trans empty))

/-- One page fewer is left after a page. -/
theorem pages_left (positive : 0 < size) {left : Nat} (more : 0 < left) :
    (left + size - 1) / size = (left - size + size - 1) / size + 1 := by
  by_cases whole : size ≤ left
  · rw [← Nat.add_div_right _ positive]
    congr 1
    omega
  · have short : left - size + size - 1 = size - 1 := by omega
    have rest : left + size - 1 = left - 1 + size := by omega
    rw [short, rest, Nat.add_div_right _ positive, Nat.div_eq_of_lt (by omega), Nat.div_eq_of_lt (by omega)]

/-- Reading the pages of a list gives what the list has from the offset on, and ends where the pages
that this takes end. -/
theorem readThrough_pages (positive : 0 < size)
    (pages : ∀ offset, page offset = .ok ((entries.drop offset).take size)) (offset : Nat) :
    ReadThrough page size offset read last ↔ read = entries.drop offset ∧
      last = offset + (entries.length - offset + size - 1) / size * size := by
  -- on how many entries are left from the offset on
  induction remains : entries.length - offset using Nat.strongRecOn generalizing offset read last with
  | ind left ih =>
    by_cases done : entries.length ≤ offset
    · have none : entries.drop offset = [] := List.drop_eq_nil_of_le done
      have spent : left = 0 := by omega
      rw [readThrough_of_empty (by rw [pages, none, List.take_nil]), none, spent, Nat.zero_add,
        Nat.div_eq_of_lt (by omega), Nat.zero_mul, Nat.add_zero]
    · have filled : (entries.drop offset).take size ≠ [] := by
        intro none
        have := congrArg List.length none
        simp only [List.length_take, List.length_drop, List.length_nil] at this
        omega
      have whole : (entries.drop offset).take size ++ entries.drop (offset + size) =
          entries.drop offset := by
        rw [← List.drop_drop, List.take_append_drop]
      have further : entries.length - (offset + size) = left - size := by omega
      rw [readThrough_of_filled (pages offset) filled, pages_left positive (by omega), Nat.add_mul,
        Nat.one_mul]
      constructor
      · rintro ⟨rest, rfl, others⟩
        obtain ⟨rfl, rfl⟩ := (ih _ (by omega) _ further).mp others
        exact ⟨whole, by omega⟩
      · rintro ⟨rfl, rfl⟩
        exact ⟨_, whole.symm, (ih _ (by omega) _ further).mpr ⟨rfl, by omega⟩⟩

/-- A list is read from its newest on to its end. -/
theorem readThrough_all (positive : 0 < size)
    (pages : ∀ offset, page offset = .ok ((entries.drop offset).take size)) :
    ReadThrough page size 0 read last ↔
      read = entries ∧ last = (entries.length + size - 1) / size * size := by
  rw [readThrough_pages positive pages, List.drop_zero, Nat.sub_zero, Nat.zero_add]

end Pages

/-! ### Pages of a trail -/

theorem AuditAction.toText_injective : Function.Injective AuditAction.toText :=
  injective_of_parse parse_toText

theorem AuditQuery.admits_toEntry (query : AuditQuery) (event : AuditEvent) :
    query.admits event.toEntry =
      (query.action.all (event.action == ·) && query.subject.all (event.subject == ·)) := by
  have actions (action : AuditAction) :
      (event.action.toText == action.toText) = (event.action == action) := by
    rw [Bool.eq_iff_iff, beq_iff_eq, beq_iff_eq, AuditAction.toText_injective.eq_iff]
  simp only [admits, AuditEvent.toEntry, actions]

/-- A page of a trail is a part of the entries that pass the filters. -/
theorem AuditQuery.page_trail (query : AuditQuery) (least : 1 ≤ query.limit) (most : query.limit ≤ 200)
    (skipped : Nat) (events : List AuditEvent) :
    query.page skipped (events.map AuditEvent.toEntry).reverse =
      ((passing query.action query.subject events).drop skipped).take query.limit := by
  have full : query.pageSize = query.limit := by
    unfold pageSize
    omega
  have admitted : (events.map AuditEvent.toEntry).reverse.filter query.admits =
      passing query.action query.subject events := by
    rw [passing, ← List.map_reverse, List.filter_map]
    congr 2
    exact funext query.admits_toEntry
  rw [page, full, admitted]

section Trails

variable {events : List AuditEvent} {action : Option AuditAction} {subject : Option String}
  {size last : Nat} {read : List AuditEntry}

/-! ### The store in memory -/

namespace Memory

theorem recordAll_eq (m : Memory) (events : List AuditEvent) :
    recordAll m events =
      .ok { m with events := (events.map AuditEvent.toEntry).reverse ++ m.events } := by
  induction events generalizing m with
  | nil => rfl
  | cons event events ih =>
    change recordAll (m.record event) events = _
    rw [ih, List.map_cons, List.reverse_cons, List.append_assoc]
    rfl

theorem readThrough_iff {m : Memory} (trail : m.events = (events.map AuditEvent.toEntry).reverse)
    (least : 1 ≤ size) (most : size ≤ 200) :
    ReadThrough (pageAt m size action subject) size 0 read last ↔
      read = passing action subject events ∧
        last = ((passing action subject events).length + size - 1) / size * size := by
  refine readThrough_all least fun offset => ?_
  change Except.ok (AuditQuery.page _ offset m.events) = _
  rw [trail, AuditQuery.page_trail _ least most]

end Memory

/-! ### The relational store -/

/-- What is sent of an event to be recorded. -/
def AuditEvent.texts (event : AuditEvent) : List String :=
  [event.subject, event.action.toText, event.resourceType, event.resourceId.toText] ++
    event.detail.toList

namespace Database

variable {db db' : Database}

theorem recordAll_eq (ran : recordAll db events = .ok db') :
    db' = { db with events := (events.map AuditEvent.toEntry).reverse ++ db.events } := by
  induction events generalizing db with
  | nil =>
    cases ran
    rfl
  | cons event events ih =>
    obtain ⟨next, recorded, ran⟩ := bind_ok ran
    obtain ⟨_, _, recorded⟩ := bind_ok recorded
    cases recorded
    rw [ih ran, List.map_cons, List.reverse_cons, List.append_assoc]
    rfl

theorem logged_of_recordAll (ran : recordAll ∅ events = .ok db) :
    db.away = [] ∧ db.events = (events.map AuditEvent.toEntry).reverse := by
  rw [recordAll_eq ran]
  exact ⟨rfl, List.append_nil _⟩

theorem record_ok {event : AuditEvent} (away : db.away = [])
    (plain : ∀ text ∈ event.texts, hasNul text = false) :
    db.record event = .ok { db with events := event.toEntry :: db.events } := by
  unfold AuditEvent.texts at plain
  rw [record, send_ok away plain]
  rfl

theorem recordAll_ok (away : db.away = [])
    (plain : ∀ event ∈ events, ∀ text ∈ event.texts, hasNul text = false) :
    ∃ db', recordAll db events = .ok db' := by
  induction events generalizing db with
  | nil => exact ⟨db, rfl⟩
  | cons event events ih =>
    obtain ⟨own, others⟩ := List.forall_mem_cons.mp plain
    change ∃ db', db.record event >>= (recordAll · events) = .ok db'
    rw [record_ok away own]
    exact ih away others

/-- A page begins no further than the greatest offset. -/
theorem pageAt_eq (away : db.away = []) (trail : db.events = (events.map AuditEvent.toEntry).reverse)
    (least : 1 ≤ size) (most : size ≤ 200) (plain : ∀ text ∈ subject, hasNul text = false)
    (offset : Nat) :
    pageAt db size action subject offset =
      .ok (((passing action subject events).drop (min offset maxOffset)).take size) := by
  change db.trail _ = _
  unfold Database.trail
  rw [send_ok away (fun text mem => plain text (Option.mem_toList.mp mem)), trail,
    AuditQuery.page_trail _ least most]
  rfl

theorem pageAt_nul (away : db.away = []) {text : String} (nul : hasNul text = true) (size offset : Nat)
    (action : Option AuditAction) :
    pageAt db size action (some text) offset = .error (.storage .listAudit .nulText) := by
  change db.trail _ = _
  unfold Database.trail
  rw [send_nul away (Option.mem_toList.mpr rfl) nul]
  rfl

/-- Where more entries than the greatest offset pass the filters, every page has some of them. -/
theorem pageAt_filled (away : db.away = [])
    (trail : db.events = (events.map AuditEvent.toEntry).reverse) (least : 1 ≤ size) (most : size ≤ 200)
    (plain : ∀ text ∈ subject, hasNul text = false)
    (many : maxOffset < (passing action subject events).length) (offset : Nat) :
    ∃ entries, pageAt db size action subject offset = .ok entries ∧ entries ≠ [] := by
  refine ⟨_, pageAt_eq away trail least most plain offset, fun empty => ?_⟩
  have := congrArg List.length empty
  rw [List.length_take, List.length_drop, List.length_nil] at this
  omega

theorem readThrough_iff (away : db.away = [])
    (trail : db.events = (events.map AuditEvent.toEntry).reverse) (least : 1 ≤ size) (most : size ≤ 200) :
    ReadThrough (pageAt db size action subject) size 0 read last ↔
      (read = passing action subject events ∧
        last = ((passing action subject events).length + size - 1) / size * size) ∧
      (passing action subject events).length ≤ maxOffset ∧ ∀ text ∈ subject, hasNul text = false := by
  by_cases plain : ∀ text ∈ subject, hasNul text = false
  · rcases Nat.lt_or_ge maxOffset (passing action subject events).length with many | few
    · exact iff_of_false (not_readThrough_of_filled (pageAt_filled away trail least most plain many))
        fun found => Nat.not_le.mpr many found.2.1
    · rw [and_iff_left ⟨few, plain⟩]
      refine readThrough_all least fun offset => ?_
      rw [pageAt_eq away trail least most plain]
      rcases Nat.le_total offset maxOffset with near | far
      · rw [Nat.min_eq_left near]
      · -- neither leaves anything of the entries
        rw [Nat.min_eq_right far, List.drop_eq_nil_of_le few, List.drop_eq_nil_of_le (Nat.le_trans few far)]
  · refine iff_of_false ?_ fun found => plain found.2.2
    simp only [Classical.not_forall] at plain
    obtain ⟨text, rfl, nul⟩ := plain
    refine not_readThrough fun offset empty => ?_
    cases (pageAt_nul away (eq_true_of_ne_false nul) size offset action).symm.trans empty

end Database

end Trails

/-- Reading page after page gives every event that passes the filters once, newest first, and ends as soon
as the pages hold them all: always in memory, and in the relational store if and only if no more of them
pass than the greatest offset and the subject asked for has no U+0000 in it. If more of them pass, every
page shows some, and for such a subject every page fails. -/
theorem trail_read_through (events : List AuditEvent) (action : Option AuditAction)
    (subject : Option String) (size : Nat) (least : 1 ≤ size) (most : size ≤ 200) :
    let found := passing action subject events
    let all (read : List AuditEntry) (last : Nat) : Prop :=
      read = found ∧ last = (found.length + size - 1) / size * size
    (∃ m : Memory, recordAll ∅ events = .ok m ∧
      ∀ read last, ReadThrough (pageAt m size action subject) size 0 read last ↔ all read last) ∧
    ∀ db : Database, recordAll ∅ events = .ok db →
      (∀ read last, ReadThrough (pageAt db size action subject) size 0 read last ↔
        all read last ∧ found.length ≤ Database.maxOffset ∧
          ∀ text ∈ subject, Database.hasNul text = false) ∧
      ((∀ text ∈ subject, Database.hasNul text = false) → Database.maxOffset < found.length →
        ∀ offset, ∃ entries, pageAt db size action subject offset = .ok entries ∧ entries ≠ []) ∧
      ∀ text ∈ subject, Database.hasNul text = true →
        ∀ offset, pageAt db size action subject offset = .error (.storage .listAudit .nulText) := by
  refine ⟨⟨_, Memory.recordAll_eq ∅ events, fun _ _ => ?_⟩, fun db ran => ?_⟩
  · exact Memory.readThrough_iff (List.append_nil _) least most
  · obtain ⟨away, trail⟩ := Database.logged_of_recordAll ran
    refine ⟨fun _ _ => Database.readThrough_iff away trail least most,
      Database.pageAt_filled away trail least most, ?_⟩
    rintro text mem nul offset
    obtain rfl := Option.mem_def.mp mem
    exact Database.pageAt_nul away nul size offset action

namespace Sample

/-- The event of a subject that joins the clerks. -/
def joined (subject : String) : AuditEvent where
  subject := "eve"
  action := .membershipChanged
  resourceType := "group"
  resourceId := .text "clerks"
  detail := some subject

/-- The event of a role that is made. -/
def roleMade : AuditEvent where
  subject := "eve"
  action := .roleCreated
  resourceType := "role"
  resourceId := .text "clerk"
  detail := none

end Sample

open Sample in
theorem trail_read_through_of_joined :
    1 ≤ 2 ∧ 2 ≤ 200 ∧ ∃ db : Database,
      recordAll ∅ [joined "ann", roleMade, joined "bob", joined "cyd"] = .ok db ∧
      ReadThrough (pageAt db 2 (some .membershipChanged) (some "eve")) 2 0
        [(joined "cyd").toEntry, (joined "bob").toEntry, (joined "ann").toEntry] 4 := by
  obtain ⟨-, relational⟩ := trail_read_through
    [joined "ann", roleMade, joined "bob", joined "cyd"] (some .membershipChanged) (some "eve") 2
    (by decide) (by decide)
  have ran : recordAll (∅ : Database) [joined "ann", roleMade, joined "bob", joined "cyd"] =
      .ok { events := [(joined "cyd").toEntry, (joined "bob").toEntry, roleMade.toEntry,
        (joined "ann").toEntry] } := by rfl
  refine ⟨by decide, by decide, _, ran, ((relational _ ran).1 _ _).mpr ?_⟩
  decide +kernel

open Sample in
/-- With 5001 events the page at offset 5200, where 26 pages of 200 have shown them all, shows the oldest
one again, and reading never comes to an end; and no page is shown to who asks for the events of a subject
with U+0000 in it. -/
theorem trail_not_read_through :
    ∃ db : Database, recordAll ∅ (List.replicate 5001 (joined "ann")) = .ok db ∧
      pageAt db 200 none none 5200 = .ok [(joined "ann").toEntry] ∧
      (∀ read last, ¬ ReadThrough (pageAt db 200 none none) 200 0 read last) ∧
      ∀ offset, pageAt db 200 none (some "\x00") offset = .error (.storage .listAudit .nulText) := by
  have plain : ∀ event ∈ List.replicate 5001 (joined "ann"), ∀ text ∈ event.texts,
      Database.hasNul text = false := by
    intro event mem
    rw [List.eq_of_mem_replicate mem]
    decide
  obtain ⟨db, ran⟩ : ∃ db : Database, recordAll ∅ (List.replicate 5001 (joined "ann")) = .ok db :=
    Database.recordAll_ok rfl plain
  obtain ⟨away, trail⟩ := Database.logged_of_recordAll ran
  have found := passing_replicate 5001 (joined "ann")
  have any : ∀ text ∈ (none : Option String), Database.hasNul text = false := nofun
  refine ⟨db, ran, ?_, fun _ _ => ?_, fun _ => ?_⟩
  · rw [Database.pageAt_eq away trail (by decide) (by decide) any, found, List.drop_replicate,
      List.take_replicate]
    rfl
  · refine not_readThrough_of_filled (Database.pageAt_filled away trail (by decide) (by decide) any ?_)
    rw [found, List.length_replicate]
    decide
  · exact Database.pageAt_nul away (by decide) 200 _ none

end Entitlement
