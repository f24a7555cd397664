import Entitlement.Proofs.Inheritance.Expansion

/-!
# The steps of a walk

`expandWith` is the walk with a choice of whether it takes anything from its notes; `expand` is the
walk that does (`expandWith_true`). `expandWith_cases` lists what one step can do, and
`expandWith_keeps` what every step keeps: the chain, and that the notes are full expansions.
-/

namespace Entitlement

namespace Condition

open Walk

/-! ### Paths one after another -/

namespace Walk

variable {step : Walk → Path → Except Failure (Expansion × Walk)}

theorem expandEach_cons {walk last : Walk} {path : Path} {rest : List Path}
    {expansions : List Expansion}
    (h : walk.expandEach step (path :: rest) = .ok (expansions, last)) :
    ∃ expansion middle others, step walk path = .ok (expansion, middle) ∧
      middle.expandEach step rest = .ok (others, last) ∧ expansions = expansion :: others := by
  unfold expandEach at h
  obtain ⟨⟨expansion, middle⟩, first, h⟩ := bind_ok h
  obtain ⟨⟨others, last'⟩, second, h⟩ := bind_ok h
  cases h
  exact ⟨expansion, middle, others, first, second, rfl⟩

theorem expandEach_cons_ok {walk middle last : Walk} {path : Path} {rest : List Path}
    {expansion : Expansion} {others : List Expansion}
    (first : step walk path = .ok (expansion, middle))
    (second : middle.expandEach step rest = .ok (others, last)) :
    walk.expandEach step (path :: rest) = .ok (expansion :: others, last) := by
  simp only [expandEach, first, second, bind, Except.bind]
  rfl

/-- All paths are expanded if each is after those before it, and what is so said of each expansion holds
of all. -/
theorem expandEach_of_each (fits : Path → Expansion → Prop) {walk : Walk} {paths : List Path}
    (each : ∀ before path after first middle, paths = before ++ path :: after →
      walk.expandEach step before = .ok (first, middle) →
      ∃ expansion next, step middle path = .ok (expansion, next) ∧ fits path expansion) :
    ∃ expansions last, walk.expandEach step paths = .ok (expansions, last) ∧
      List.Forall₂ fits paths expansions := by
  induction paths generalizing walk with
  | nil => exact ⟨[], walk, rfl, .nil⟩
  | cons path rest ih =>
    obtain ⟨expansion, middle, here, fit⟩ := each [] path rest [] walk rfl rfl
    have later : ∀ before next after first last, rest = before ++ next :: after →
        middle.expandEach step before = .ok (first, last) →
        ∃ expansion walk, step last next = .ok (expansion, walk) ∧ fits next expansion :=
      fun before next after first last split prior =>
        each (path :: before) next after (expansion :: first) last (congrArg (path :: ·) split)
          (expandEach_cons_ok here prior)
    obtain ⟨others, last, there, fits⟩ := ih later
    exact ⟨expansion :: others, last, expandEach_cons_ok here there, .cons fit fits⟩

theorem expandEach_total (total : ∀ walk path, ∃ result, step walk path = .ok result) (walk : Walk)
    (paths : List Path) : ∃ result, walk.expandEach step paths = .ok result := by
  induction paths generalizing walk with
  | nil => exact ⟨_, rfl⟩
  | cons path rest ih =>
    obtain ⟨⟨expansion, middle⟩, here⟩ := total walk path
    obtain ⟨⟨others, last⟩, there⟩ := ih middle
    exact ⟨(expansion :: others, last), expandEach_cons_ok here there⟩

/-- Each of the paths was expanded after those before it. -/
theorem expandEach_split {walk last : Walk} {before after : List Path} {path : Path}
    {expansions : List Expansion}
    (h : walk.expandEach step (before ++ path :: after) = .ok (expansions, last)) :
    ∃ first middle expansion next, walk.expandEach step before = .ok (first, middle) ∧
      step middle path = .ok (expansion, next) ∧ expansion ∈ expansions := by
  induction before generalizing walk expansions with
  | nil =>
    obtain ⟨expansion, next, others, here, _, rfl⟩ := expandEach_cons h
    exact ⟨[], walk, expansion, next, rfl, here, List.mem_cons_self⟩
  | cons earlier before ih =>
    obtain ⟨expansion, next, others, here, rest, rfl⟩ := expandEach_cons h
    obtain ⟨first, middle, found, last', there, now, mem⟩ := ih rest
    exact ⟨expansion :: first, middle, found, last', expandEach_cons_ok here there, now,
      List.mem_cons_of_mem _ mem⟩

/-- Each of the expansions is that of some path. -/
theorem exists_path_of_mem {walk last : Walk} {paths : List Path} {expansions : List Expansion}
    (h : walk.expandEach step paths = .ok (expansions, last)) {expansion : Expansion}
    (mem : expansion ∈ expansions) :
    ∃ before path after first middle next, paths = before ++ path :: after ∧
      walk.expandEach step before = .ok (first, middle) ∧
      step middle path = .ok (expansion, next) := by
  induction paths generalizing walk expansions with
  | nil =>
    cases h
    cases mem
  | cons path rest ih =>
    obtain ⟨found, next, others, here, there, rfl⟩ := expandEach_cons h
    rcases List.mem_cons.mp mem with rfl | mem
    · exact ⟨[], path, rest, [], walk, next, rfl, rfl, here⟩
    · obtain ⟨before, path', after, first, middle, last', rfl, prior, now⟩ := ih there mem
      exact ⟨path :: before, path', after, found :: first, middle, last', rfl,
        expandEach_cons_ok here prior, now⟩

/-- What every step keeps and says of its expansion holds after all of them. -/
theorem expandEach_keeps (inv : Walk → Prop) (fits : Path → Expansion → Prop) {walk last : Walk}
    {paths : List Path} {expansions : List Expansion}
    (keeps : ∀ walk path expansion next, inv walk → step walk path = .ok (expansion, next) →
      inv next ∧ fits path expansion)
    (start : inv walk) (h : walk.expandEach step paths = .ok (expansions, last)) :
    inv last ∧ List.Forall₂ fits paths expansions := by
  induction paths generalizing walk expansions with
  | nil =>
    cases h
    exact ⟨start, .nil⟩
  | cons path rest ih =>
    obtain ⟨expansion, next, others, here, there, rfl⟩ := expandEach_cons h
    obtain ⟨kept, fit⟩ := keeps walk path expansion next start here
    obtain ⟨final, all⟩ := ih kept there
    exact ⟨final, .cons fit all⟩

theorem expandEach_chain
    (keeps : ∀ walk path expansion next, step walk path = .ok (expansion, next) →
      next.chain = walk.chain)
    {walk last : Walk} {paths : List Path} {expansions : List Expansion}
    (h : walk.expandEach step paths = .ok (expansions, last)) : last.chain = walk.chain := by
  have inv : ∀ w path e w', w.chain = walk.chain → step w path = .ok (e, w') →
      w'.chain = walk.chain ∧ True :=
    fun w path e w' chain stepped => ⟨(keeps w path e w' stepped).trans chain, trivial⟩
  exact (expandEach_keeps _ (fun _ _ => True) inv rfl h).1

/-! ### A step of the walk -/

/-- What the walk has noted for an object, if it looks at its notes. -/
def fromNotes (reuse : Bool) (walk : Walk) (object : Object) : Option (List Condition) :=
  if reuse then walk.noted.get? object else none

/-- The walk at an object that it has come to. -/
def enter (walk : Walk) (object : Object) : Walk := { walk with chain := object :: walk.chain }

/-- As `expand`, but the notes are taken into account only if `reuse` says so. -/
def expandWith (reuse : Bool) (registry : Registry) (relations : Relations) :
    (room : Nat) → Walk → Option Object → Except Failure (Expansion × Walk)
  | _, walk, none => .ok (.unset, walk)
  | 0, walk, some _ => .ok (.cutOff, walk)
  | room + 1, walk, some object =>
    if object ∈ walk.chain then .ok (.cutOff, walk)
    else
      match walk.fromNotes reuse object with
      | some conditions => .ok (⟨conditions, false⟩, walk)
      | none => do
        let paths ← registry.pathsOf object.model
        let (expansions, walk) ← expandEach
          (fun walk path => do
            expandWith reuse registry relations room walk (← relations.follow object path.hops))
          (walk.enter object) paths
        let expansion := ⟨conditionsOf object expansions, expansions.any (·.cut)⟩
        return (expansion, walk.leave object expansion)

variable (reuse : Bool) (registry : Registry) (relations : Relations)

theorem expandWith_true : expandWith true registry relations = expand registry relations := by
  funext room
  induction room with
  | zero =>
    funext walk next
    cases next <;> rfl
  | succ room ih =>
    funext walk next
    cases next with
    | none => rfl
    | some object =>
      simp only [expandWith, expand, fromNotes, if_true, ih]
      rfl

/-- Expands one path of an object. -/
def expandPath (room : Nat) (object : Object) (walk : Walk) (path : Path) :
    Except Failure (Expansion × Walk) := do
  expandWith reuse registry relations room walk (← relations.follow object path.hops)

variable {reuse registry relations}

theorem expandWith_succ (room : Nat) (walk : Walk) (object : Object) :
    expandWith reuse registry relations (room + 1) walk (some object) =
      if object ∈ walk.chain then .ok (.cutOff, walk)
      else
        match walk.fromNotes reuse object with
        | some conditions => .ok (⟨conditions, false⟩, walk)
        | none => do
          let paths ← registry.pathsOf object.model
          let (expansions, walk) ← expandEach (expandPath reuse registry relations room object)
            (walk.enter object) paths
          let expansion := ⟨conditionsOf object expansions, expansions.any (·.cut)⟩
          return (expansion, walk.leave object expansion) := rfl

theorem expandPath_ok {room : Nat} {object : Object} {walk last : Walk} {path : Path}
    {expansion : Expansion}
    (h : expandPath reuse registry relations room object walk path = .ok (expansion, last)) :
    ∃ next, relations.follow object path.hops = .ok next ∧
      expandWith reuse registry relations room walk next = .ok (expansion, last) :=
  bind_ok h

theorem expandPath_of_follow {room : Nat} {object : Object} {walk last : Walk} {path : Path}
    {next : Option Object} {expansion : Expansion}
    (led : relations.follow object path.hops = .ok next)
    (expanded : expandWith reuse registry relations room walk next = .ok (expansion, last)) :
    expandPath reuse registry relations room object walk path = .ok (expansion, last) := by
  rw [expandPath, led]
  exact expanded

/-- What one step can do: stop, take the object from the notes, or expand its paths. -/
theorem expandWith_cases {room : Nat} {walk last : Walk} {object : Object} {expansion : Expansion}
    (h : expandWith reuse registry relations room walk (some object) = .ok (expansion, last)) :
    ((room = 0 ∨ object ∈ walk.chain) ∧ expansion = .cutOff ∧ last = walk) ∨
    (∃ room' conditions, room = room' + 1 ∧ object ∉ walk.chain ∧
      walk.fromNotes reuse object = some conditions ∧ expansion = ⟨conditions, false⟩ ∧ last = walk) ∨
    (∃ room' paths expansions middle, room = room' + 1 ∧ object ∉ walk.chain ∧
      walk.fromNotes reuse object = none ∧ registry.pathsOf object.model = .ok paths ∧
      expandEach (expandPath reuse registry relations room' object) (walk.enter object) paths =
        .ok (expansions, middle) ∧
      expansion = ⟨conditionsOf object expansions, expansions.any (·.cut)⟩ ∧
      last = middle.leave object expansion) := by
  cases room with
  | zero =>
    cases h
    exact .inl ⟨.inl rfl, rfl, rfl⟩
  | succ room =>
    rw [expandWith_succ] at h
    split at h
    · rename_i again
      cases h
      exact .inl ⟨.inr again, rfl, rfl⟩
    · rename_i fresh
      split at h
      · rename_i conditions known
        cases h
        exact .inr (.inl ⟨room, conditions, rfl, fresh, known, rfl, rfl⟩)
      · rename_i unknown
        obtain ⟨paths, declared, h⟩ := bind_ok h
        obtain ⟨⟨expansions, middle⟩, expanded, h⟩ := bind_ok h
        cases h
        exact .inr (.inr ⟨room, paths, expansions, middle, rfl, fresh, unknown, declared, expanded,
          rfl, rfl⟩)

/-- A step to an object off the chain with room left takes it from the notes or expands its paths. -/
theorem expandWith_cases_of_fresh {room : Nat} {walk last : Walk} {object : Object}
    {expansion : Expansion} (fresh : object ∉ walk.chain)
    (h : expandWith reuse registry relations (room + 1) walk (some object) = .ok (expansion, last)) :
    (∃ conditions, walk.fromNotes reuse object = some conditions ∧
      expansion.conditions = conditions) ∨
    (∃ paths expansions middle, walk.fromNotes reuse object = none ∧
      registry.pathsOf object.model = .ok paths ∧
      expandEach (expandPath reuse registry relations room object) (walk.enter object) paths =
        .ok (expansions, middle) ∧
      expansion.conditions = conditionsOf object expansions) := by
  rcases expandWith_cases h with ⟨full | again, _, _⟩ | ⟨_, conditions, _, _, known, rfl, _⟩ |
    ⟨_, paths, expansions, middle, same, _, unknown, declared, expanded, rfl, _⟩
  · exact absurd full (Nat.succ_ne_zero room)
  · exact absurd again fresh
  · exact .inl ⟨conditions, known, rfl⟩
  · obtain rfl := Nat.succ.inj same
    exact .inr ⟨paths, expansions, middle, unknown, declared, expanded, rfl⟩

/-- What a step adds after the paths before its own is among what all paths add. -/
theorem mem_of_expandPath {room : Nat} {object : Object} {walk middle after last : Walk}
    {before rest : List Path} {path : Path} {first expansions : List Expansion}
    {expansion : Expansion} {next : Option Object}
    (expanded : expandEach (expandPath reuse registry relations room object) walk
      (before ++ path :: rest) = .ok (expansions, last))
    (prior : expandEach (expandPath reuse registry relations room object) walk before =
      .ok (first, middle))
    (led : relations.follow object path.hops = .ok next)
    (h : expandWith reuse registry relations room middle next = .ok (expansion, after)) :
    expansion ∈ expansions := by
  obtain ⟨_, _, expansion', _, prior', stepped, among⟩ := expandEach_split expanded
  cases prior.symm.trans prior'
  obtain ⟨_, led', stepped⟩ := expandPath_ok stepped
  cases led.symm.trans led'
  cases h.symm.trans stepped
  exact among

theorem expandPath_total (grounded : relations.Grounded registry) {room : Nat} {object : Object}
    (known : registry.isRegistered object.model = true)
    (total : ∀ walk next, (∀ parent ∈ next, registry.isRegistered parent.model = true) →
      ∃ result, expandWith reuse registry relations room walk next = .ok result)
    (walk : Walk) (path : Path) :
    ∃ result, expandPath reuse registry relations room object walk path = .ok result := by
  obtain ⟨next, led, sound⟩ := follow_grounded grounded known path.hops
  obtain ⟨result, expanded⟩ := total walk next sound
  exact ⟨result, expandPath_of_follow led expanded⟩

/-- With relations that can be followed to registered models every step succeeds. -/
theorem expandWith_total (grounded : relations.Grounded registry) (room : Nat) (walk : Walk)
    (next : Option Object) (known : ∀ object ∈ next, registry.isRegistered object.model = true) :
    ∃ result, expandWith reuse registry relations room walk next = .ok result := by
  induction room generalizing walk next with
  | zero => cases next <;> exact ⟨_, rfl⟩
  | succ room ih =>
    cases next with
    | none => exact ⟨_, rfl⟩
    | some object =>
      rw [expandWith_succ]
      split
      · exact ⟨_, rfl⟩
      · split
        · exact ⟨_, rfl⟩
        · obtain ⟨paths, declared⟩ := pathsOf_of_isRegistered (known object rfl)
          obtain ⟨⟨expansions, last⟩, expanded⟩ := expandEach_total
            (expandPath_total grounded (known object rfl) ih) (walk.enter object) paths
          simp only [declared, expanded, bind, Except.bind]
          exact ⟨_, rfl⟩

/-! ### What a step keeps -/

variable (registry relations)

/-- The notes are full expansions of their objects. -/
def NotesUnfold (walk : Walk) : Prop :=
  ∀ object conditions, walk.noted.get? object = some conditions →
    Unfolds registry relations (some object) conditions

variable {registry relations}

theorem notesUnfold_empty (chain : List Object) :
    NotesUnfold registry relations { chain } := by
  intro object conditions found
  cases found

theorem NotesUnfold.of_fromNotes {walk : Walk} (notes : NotesUnfold registry relations walk)
    {object : Object} {conditions : List Condition}
    (known : walk.fromNotes reuse object = some conditions) :
    Unfolds registry relations (some object) conditions := by
  unfold fromNotes at known
  split at known
  · exact notes object conditions known
  · cases known

theorem notesUnfold_enter {walk : Walk} (notes : NotesUnfold registry relations walk)
    (object : Object) : NotesUnfold registry relations (walk.enter object) := notes

theorem notesUnfold_leave {walk : Walk} (notes : NotesUnfold registry relations walk)
    {object : Object} {expansion : Expansion}
    (unfolds : expansion.cut = false →
      Unfolds registry relations (some object) expansion.conditions) :
    NotesUnfold registry relations (walk.leave object expansion) := by
  intro other conditions found
  unfold leave at found
  cases cut : expansion.cut with
  | true =>
    rw [cut] at found
    exact notes other conditions found
  | false =>
    simp only [cut, Bool.false_eq_true, if_false, SortedMap.get?_insert] at found
    split at found
    · rename_i same
      cases found
      rw [same]
      exact unfolds cut
    · exact notes other conditions found

theorem expandWith_chain {room : Nat} {walk last : Walk} {next : Option Object}
    {expansion : Expansion}
    (h : expandWith reuse registry relations room walk next = .ok (expansion, last)) :
    last.chain = walk.chain := by
  induction room generalizing walk last next expansion with
  | zero => cases next <;> cases h <;> rfl
  | succ room ih =>
    cases next with
    | none =>
      cases h
      rfl
    | some object =>
      rcases expandWith_cases h with ⟨_, _, rfl⟩ | ⟨_, _, _, _, _, _, rfl⟩ |
        ⟨_, paths, expansions, middle, same, _, _, _, expanded, _, rfl⟩
      · rfl
      · rfl
      · obtain rfl := Nat.succ.inj same
        have keeps : ∀ w path e w', expandPath reuse registry relations room object w path =
            .ok (e, w') → w'.chain = w.chain := by
          intro w path e w' stepped
          obtain ⟨_, _, stepped⟩ := expandPath_ok stepped
          exact ih stepped
        rw [leave, expandEach_chain keeps expanded]
        rfl

theorem expandPath_chain {room : Nat} {object : Object} (walk : Walk) (path : Path)
    (expansion : Expansion) (last : Walk)
    (h : expandPath reuse registry relations room object walk path = .ok (expansion, last)) :
    last.chain = walk.chain := by
  obtain ⟨_, _, h⟩ := expandPath_ok h
  exact expandWith_chain h

/-- A step leaves the chain as it was, keeps the notes full expansions, and has itself expanded the
object in full if nothing was cut. -/
theorem expandWith_keeps {room : Nat} {walk last : Walk} {next : Option Object}
    {expansion : Expansion} (notes : NotesUnfold registry relations walk)
    (h : expandWith reuse registry relations room walk next = .ok (expansion, last)) :
    last.chain = walk.chain ∧ NotesUnfold registry relations last ∧
      (expansion.cut = false → Unfolds registry relations next expansion.conditions) := by
  refine ⟨expandWith_chain h, ?_⟩
  -- On the room: the calls for the paths of the object have less of it, and keep the same.
  induction room using Nat.strongRecOn generalizing walk last next expansion with
  | ind room ih =>
    cases next with
    | none =>
      have same : expansion = .unset ∧ last = walk := by
        cases room <;> cases h <;> exact ⟨rfl, rfl⟩
      obtain ⟨rfl, rfl⟩ := same
      exact ⟨notes, fun _ => .unset⟩
    | some object =>
      rcases expandWith_cases h with ⟨_, rfl, rfl⟩ | ⟨_, conditions, _, _, known, rfl, rfl⟩ |
        ⟨room', paths, expansions, middle, rfl, _, _, declared, expanded, same, rfl⟩
      · exact ⟨notes, fun uncut => absurd uncut (by decide)⟩
      · exact ⟨notes, fun _ => notes.of_fromNotes known⟩
      · have keeps : ∀ w path e w', NotesUnfold registry relations w →
            expandPath reuse registry relations room' object w path = .ok (e, w') →
            NotesUnfold registry relations w' ∧
              (e.cut = false → ∃ next, relations.follow object path.hops = .ok next ∧
                Unfolds registry relations next e.conditions) := by
          intro w path e w' notes stepped
          obtain ⟨next, led, stepped⟩ := expandPath_ok stepped
          obtain ⟨notes', unfolds⟩ := ih room' (Nat.lt_succ_self _) notes stepped
          exact ⟨notes', fun uncut => ⟨next, led, unfolds uncut⟩⟩
        obtain ⟨kept, unfolded⟩ := expandEach_keeps _ _ keeps (notesUnfold_enter notes object) expanded
        have unfolds : expansion.cut = false →
            Unfolds registry relations (some object) expansion.conditions := by
          intro uncut
          rw [same] at uncut ⊢
          exact .of_expansions declared uncut unfolded
        exact ⟨notesUnfold_leave kept unfolds, unfolds⟩

end Walk

end Condition

end Entitlement
