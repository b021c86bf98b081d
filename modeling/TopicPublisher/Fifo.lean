/-!
First-in-first-out queues with cheap ends. Arrivals are kept newest first and are turned round
when the front has run out. Every operation has one law about the plain list that a queue stands
for.
-/

namespace TopicPublisher

/-- A queue: its oldest elements in their order, and then the others, newest first. -/
structure Fifo (α : Type) where
  front : List α := []
  arrivals : List α := []
deriving DecidableEq, Repr, Inhabited

namespace Fifo

variable {α : Type}

def toList (q : Fifo α) : List α := q.front ++ q.arrivals.reverse

def ofList (elements : List α) : Fifo α := { front := elements }

def isEmpty (q : Fifo α) : Bool := q.front.isEmpty && q.arrivals.isEmpty

def push (q : Fifo α) (a : α) : Fifo α := { q with arrivals := a :: q.arrivals }

def pop? (q : Fifo α) : Option (α × Fifo α) :=
  match q.front with
  | a :: front => some (a, { q with front := front })
  | [] =>
    match q.arrivals.reverse with
    | a :: front => some (a, ofList front)
    | [] => none

/-- Takes the oldest element with a property. If that is the oldest of all, the rest stays as
it is. -/
def take? (p : α → Bool) (q : Fifo α) : Option (α × Fifo α) :=
  match q.pop? with
  | none => none
  | some (a, rest) =>
    if p a then some (a, rest)
    else (q.toList.find? p).map fun b => (b, ofList (q.toList.eraseP p))

@[simp] theorem toList_empty : ({} : Fifo α).toList = [] := rfl

@[simp] theorem toList_ofList (elements : List α) : (ofList elements).toList = elements := by
  simp [ofList, toList]

@[simp] theorem toList_push (q : Fifo α) (a : α) : (q.push a).toList = q.toList ++ [a] := by
  simp [push, toList]

theorem isEmpty_iff (q : Fifo α) : q.isEmpty = true ↔ q.toList = [] := by
  simp [isEmpty, toList]

theorem pop?_eq_none_iff (q : Fifo α) : q.pop? = none ↔ q.toList = [] := by
  unfold pop? toList
  cases q.front with
  | cons => simp
  | nil => cases q.arrivals.reverse <;> simp

theorem toList_of_pop? {q rest : Fifo α} {a : α} (h : q.pop? = some (a, rest)) :
    q.toList = a :: rest.toList := by
  unfold pop? at h
  unfold toList
  cases hf : q.front with
  | cons b front =>
    rw [hf] at h
    cases h
    rfl
  | nil =>
    rw [hf] at h
    cases hr : q.arrivals.reverse with
    | nil => rw [hr] at h; cases h
    | cons b front =>
      rw [hr] at h
      cases h
      simp [ofList]

/-- What is taken is the first element of the list with the property, and only it is missing
afterwards. -/
theorem take?_map_toList (p : α → Bool) (q : Fifo α) :
    (q.take? p).map (fun r => (r.1, r.2.toList)) =
      (q.toList.find? p).map fun a => (a, q.toList.eraseP p) := by
  unfold take?
  cases h : q.pop? with
  | none => simp [(pop?_eq_none_iff q).mp h]
  | some r =>
    obtain ⟨a, rest⟩ := r
    have hl := toList_of_pop? h
    by_cases hp : p a <;> simp [hl, hp, Function.comp_def]

theorem perm_of_take? {p : α → Bool} {q rest : Fifo α} {a : α} (h : q.take? p = some (a, rest)) :
    p a = true ∧ q.toList.Perm (a :: rest.toList) := by
  have hl := take?_map_toList p q
  rw [h] at hl
  obtain ⟨b, hb, heq⟩ := Option.map_eq_some_iff.mp hl.symm
  obtain ⟨rfl, hrest⟩ := Prod.mk.injEq .. ▸ heq
  obtain ⟨hp, before, after, hsplit, hnot⟩ := List.find?_eq_some_iff_append.mp hb
  refine ⟨hp, ?_⟩
  rw [← hrest, hsplit, List.eraseP_append_right _ (by simpa using hnot), List.eraseP_cons_of_pos hp]
  exact List.perm_middle

theorem not_of_take?_eq_none {p : α → Bool} {q : Fifo α} (h : q.take? p = none) :
    ∀ a ∈ q.toList, p a = false := by
  have hl := take?_map_toList p q
  rw [h] at hl
  simpa using hl.symm

end Fifo
end TopicPublisher
