import Entitlement.Failure
import Mathlib.Data.List.Forall2

/-!
# Two systems asked the same

A system answers requests one after another; a request that fails leaves its state as it was. If two
systems are linked, and every fit request is answered alike and leaves them linked, then they answer
alike as long as the requests fit (`alike_answers`). If moreover an unfit request can be told by what
is looked up after it, then only as long as they fit (`alike_answers_iff`).
-/

namespace Entitlement.Dialogue

variable {σ τ ρ κ α β : Type}

/-- Failures that are told alike, or values that are the same in some sense. -/
inductive Alike (told : Failure → Failure → Prop) (same : α → β → Prop) :
    Except Failure α → Except Failure β → Prop where
  | ok {a : α} {b : β} (values : same a b) : Alike told same (.ok a) (.ok b)
  | error {failure failure' : Failure} (failures : told failure failure') :
    Alike told same (.error failure) (.error failure')

variable {told : Failure → Failure → Prop}

section Alike

variable {γ δ : Type} {values : γ → δ → Prop} {same : α → β → Prop} {outcome : Except Failure γ}
  {outcome' : Except Failure δ}

theorem Alike.map {f : γ → α} {f' : δ → β} (alike : Alike told values outcome outcome')
    (mapped : ∀ c d, values c d → same (f c) (f' d)) :
    Alike told same (outcome.map f) (outcome'.map f') := by
  cases alike with
  | ok both => exact .ok (mapped _ _ both)
  | error failures => exact .error failures

theorem alike_of_ok {c : γ} (ran : ∃ d, outcome' = .ok d ∧ values c d) :
    Alike told values (.ok c) outcome' := by
  obtain ⟨d, rfl, both⟩ := ran
  exact .ok both

theorem alike_of_eq {outcome' : Except Failure γ} {c : γ} (ran : outcome' = .ok c) :
    Alike told Eq (.ok c) outcome' :=
  alike_of_ok ⟨c, ran, rfl⟩

end Alike

section Dialogue

variable (ask : σ → ρ → Except Failure (α × σ))

/-- The state after a request. -/
def next (s : σ) (request : ρ) : σ :=
  match ask s request with
  | .ok (_, s') => s'
  | .error _ => s

/-- The answers to some requests in turn. -/
def answers (s : σ) : List ρ → List (Except Failure α)
  | [] => []
  | request :: rest => (ask s request).map (·.1) :: answers (next ask s request) rest

/-- Every request fits the state in which it is asked. -/
def Throughout (fits : σ → ρ → Prop) (s : σ) : List ρ → Prop
  | [] => True
  | request :: rest => fits s request ∧ Throughout fits (next ask s request) rest

end Dialogue

section Linked

variable {ask : σ → ρ → Except Failure (α × σ)} {ask' : τ → ρ → Except Failure (β × τ)}
  {same : α → β → Prop} {linked : σ → τ → Prop} {proper : ρ → Prop} {fits : σ → ρ → Prop}
  {look : κ → ρ} {s : σ} {t : τ} {request : ρ} {requests : List ρ}

/-- The answers are alike, and link the states after them. -/
def Agree (told : Failure → Failure → Prop) (same : α → β → Prop) (linked : σ → τ → Prop) :
    Except Failure (α × σ) → Except Failure (β × τ) → Prop :=
  Alike told fun a b => same a.1 b.1 ∧ linked a.2 b.2

theorem Agree.alike {answer : Except Failure (α × σ)} {answer' : Except Failure (β × τ)}
    (agree : Agree told same linked answer answer') :
    Alike told same (answer.map (·.1)) (answer'.map (·.1)) :=
  Alike.map agree fun _ _ both => both.1

theorem agree_of_ok {answer : α} {s' : σ} {answer' : Except Failure (α × τ)}
    (ran : ∃ t', answer' = .ok (answer, t') ∧ linked s' t') :
    Agree told Eq linked (.ok (answer, s')) answer' := by
  obtain ⟨t', rfl, after⟩ := ran
  exact .ok ⟨rfl, after⟩

theorem Agree.linked_next (agree : Agree told same linked (ask s request) (ask' t request))
    (start : linked s t) : linked (next ask s request) (next ask' t request) := by
  unfold next
  generalize ask s request = answer at agree ⊢
  generalize ask' t request = answer' at agree ⊢
  cases agree with
  | ok both => exact both.2
  | error _ => exact start

theorem next_of_ok {answer : α} {s' : σ} (asked : ask s request = .ok (answer, s')) :
    next ask s request = s' := by
  rw [next, asked]

theorem alike_pair {other : ρ}
    (alike : List.Forall₂ (Alike told same) (answers ask s [request, other])
      (answers ask' t [request, other])) :
    Alike told same ((ask s request).map (·.1)) ((ask' t request).map (·.1)) ∧
      Alike told same ((ask (next ask s request) other).map (·.1))
        ((ask' (next ask' t request) other).map (·.1)) := by
  simp only [answers, List.forall₂_cons] at alike
  exact ⟨alike.1, alike.2.1⟩

theorem throughout_of_always (fits : σ → ρ → Prop) (fit : ∀ s request, fits s request) (s : σ)
    (requests : List ρ) : Throughout ask fits s requests := by
  induction requests generalizing s with
  | nil => trivial
  | cons request rest ih => exact ⟨fit s request, ih _⟩

theorem throughout_append {more : List ρ} (fit : Throughout ask fits s requests)
    (others : ∀ s, Throughout ask fits s more) : Throughout ask fits s (requests ++ more) := by
  induction requests generalizing s with
  | nil => exact others s
  | cons request rest ih => exact ⟨fit.1, ih fit.2⟩

theorem throughout_take (fit : Throughout ask fits s requests) (n : Nat) :
    Throughout ask fits s (requests.take n) := by
  induction requests generalizing s n with
  | nil =>
    rw [List.take_nil]
    trivial
  | cons request rest ih =>
    cases n with
    | zero => trivial
    | succ n => exact ⟨fit.1, ih fit.2 n⟩

theorem alike_answers
    (step : ∀ s t request, linked s t → proper request → fits s request →
      Agree told same linked (ask s request) (ask' t request))
    (start : linked s t) (well : ∀ request ∈ requests, proper request)
    (fit : Throughout ask fits s requests) :
    List.Forall₂ (Alike told same) (answers ask s requests) (answers ask' t requests) := by
  induction requests generalizing s t with
  | nil => exact .nil
  | cons request rest ih =>
    obtain ⟨first, others⟩ := List.forall_mem_cons.mp well
    have agree := step s t request start first fit.1
    exact .cons agree.alike (ih (agree.linked_next start) others fit.2)

/-- Where a look-up fits always, and an unfit request can be told by its answer or by one look-up after
it, the requests fit exactly if what they and the look-ups after them answer is alike. -/
theorem alike_answers_iff
    (step : ∀ s t request, linked s t → proper request → fits s request →
      Agree told same linked (ask s request) (ask' t request))
    (looks : ∀ k, proper (look k) ∧ ∀ s, fits s (look k))
    (shows : ∀ s t request, linked s t → proper request →
      (∀ k, List.Forall₂ (Alike told same) (answers ask s [request, look k])
        (answers ask' t [request, look k])) → fits s request)
    (start : linked s t) (well : ∀ request ∈ requests, proper request) :
    (∀ n k, List.Forall₂ (Alike told same) (answers ask s (requests.take n ++ [look k]))
      (answers ask' t (requests.take n ++ [look k]))) ↔ Throughout ask fits s requests := by
  constructor
  · intro alike
    -- that the first request fits shows in one look-up, and it leaves linked systems to the others
    induction requests generalizing s t with
    | nil => trivial
    | cons request rest ih =>
      obtain ⟨first, others⟩ := List.forall_mem_cons.mp well
      have fit : fits s request := shows s t request start first fun k => alike 1 k
      have agree := step s t request start first fit
      refine ⟨fit, ih (agree.linked_next start) others fun n k => ?_⟩
      cases alike (n + 1) k with
      | cons _ rest => exact rest
  · intro fit n k
    refine alike_answers step start (fun request mem => ?_) ?_
    · rcases List.mem_append.mp mem with mem | mem
      · exact well request (List.mem_of_mem_take mem)
      · rw [List.mem_singleton.mp mem]
        exact (looks k).1
    · exact throughout_append (throughout_take fit n) fun s => ⟨(looks k).2 s, trivial⟩

end Linked

end Entitlement.Dialogue
