/-
  File:      Nullgate/Lib/Broadcast.lean
  Subject:   A RECEIVER OF A BOUNDED BROADCAST CHANNEL.

  A sender never waits. Where a receiver has `cap` values unread, the next one pushes the oldest
  out, and the receiver learns that it lagged before it gets another value.

  * `Receiver.send`, `Receiver.recv`;
  * `Receiver.filterMap_send`: of the values one looks for, none is lost by a send that pushes
    out none of them.
-/
import Mathlib.Data.List.Basic

namespace Nullgate.Lib

variable {α β : Type*}

/-- What a receiver has not read, and whether values were pushed out since it last read. -/
structure Receiver (α : Type*) where
  queue : List α := []
  lagged : Bool := false

/-- What a read gives. -/
inductive Received (α : Type*) where
  | lagged
  | value (a : α)

namespace Receiver

variable (cap : Nat) (r : Receiver α)

/-- What the next value pushes out. -/
def dropped : List α := if r.queue.length < cap then [] else r.queue.take 1

def send (a : α) : Receiver α :=
  if r.queue.length < cap then { r with queue := r.queue ++ [a] }
  else { queue := r.queue.drop 1 ++ [a], lagged := true }

/-- A read, unless it has to wait. -/
def recv : Option (Received α × Receiver α) :=
  if r.lagged then some (.lagged, { r with lagged := false })
  else
    match r.queue with
    | [] => none
    | a :: queue => some (.value a, { r with queue })

variable {cap r}

/-- What a read does. -/
theorem recv_cases (r : Receiver α) :
    (r.queue = [] ∧ r.lagged = false ∧ r.recv = none) ∨
      (r.lagged = true ∧ r.recv = some (.lagged, { r with lagged := false })) ∨
      ∃ a queue, r.lagged = false ∧ r.queue = a :: queue ∧
        r.recv = some (.value a, { r with queue }) := by
  obtain ⟨queue, lagged⟩ := r
  cases lagged with
  | true => exact Or.inr (Or.inl ⟨rfl, rfl⟩)
  | false =>
    cases queue with
    | nil => exact Or.inl ⟨rfl, rfl, rfl⟩
    | cons a queue => exact Or.inr (Or.inr ⟨a, queue, rfl, rfl, rfl⟩)

/-- The values behind a send. -/
theorem dropped_append_queue (a : α) :
    r.dropped cap ++ (r.send cap a).queue = r.queue ++ [a] := by
  rw [dropped, send]
  by_cases h : r.queue.length < cap
  · rw [if_pos h, if_pos h]
    rfl
  · rw [if_neg h, if_neg h]
    show r.queue.take 1 ++ (r.queue.drop 1 ++ [a]) = r.queue ++ [a]
    rw [← List.append_assoc, List.take_append_drop]

/-- **What is looked for is not lost**, unless it is pushed out. -/
theorem filterMap_send (f : α → Option β) (h : ∀ x ∈ r.dropped cap, f x = none) (a : α) :
    (r.send cap a).queue.filterMap f = r.queue.filterMap f ++ (f a).toList := by
  have hsplit : r.dropped cap ++ (r.send cap a).queue = r.queue ++ [a] := dropped_append_queue a
  have hall := congrArg (List.filterMap f) hsplit
  rw [List.filterMap_append, List.filterMap_append, List.filterMap_eq_nil_iff.mpr h,
    List.nil_append] at hall
  rw [hall]
  cases hf : f a <;> simp [hf]

/-- A send is heard of: as a value, whatever is pushed out. -/
theorem mem_send (a : α) : a ∈ (r.send cap a).queue := by
  rw [send]
  by_cases h : r.queue.length < cap
  · rw [if_pos h]
    exact List.mem_append_right _ (List.mem_singleton_self a)
  · rw [if_neg h]
    exact List.mem_append_right _ (List.mem_singleton_self a)

/-- What was unread still is, or the receiver will learn that it lagged. -/
theorem mem_send_of_mem {x : α} (hx : x ∈ r.queue) (a : α) :
    x ∈ (r.send cap a).queue ∨ (r.send cap a).lagged = true := by
  rw [send]
  by_cases h : r.queue.length < cap
  · rw [if_pos h]
    exact Or.inl (List.mem_append_left _ hx)
  · rw [if_neg h]
    exact Or.inr rfl

theorem lagged_send (h : r.lagged = true) (a : α) : (r.send cap a).lagged = true := by
  rw [send]
  split
  · exact h
  · rfl

end Receiver

end Nullgate.Lib
