/-!
# Channel — buffered channels

A channel of the Go kind: a bounded queue that senders push, receivers
pop and a close marks. Sending on a closed channel, or closing it again,
is a panic. A send that would have to wait gives up instead (`select`
with a `default`); a receive that would have to wait is no step.
-/

namespace Basis

/-- What a channel operation that must not happen does. -/
inductive Panic where
  | sendOnClosed
  | closeOfClosed
  deriving DecidableEq, Repr

/-- A channel with its buffer, oldest entry first. -/
structure Chan (α : Type) where
  cap : Nat
  queue : List α
  closed : Bool
  deriving DecidableEq, Repr

namespace Chan

variable {α : Type}

/-- `make(chan α, cap)`. -/
def make (α : Type) (cap : Nat) : Chan α := ⟨cap, [], false⟩

/-- There is room for one more entry. -/
def HasRoom (c : Chan α) : Prop := c.queue.length < c.cap

instance (c : Chan α) : Decidable c.HasRoom := inferInstanceAs (Decidable (_ < _))

/-- `select { case c <- a: … default: … }`: was `a` sent? -/
def trySend (c : Chan α) (a : α) : Except Panic (Chan α × Bool) :=
  if c.closed then .error .sendOnClosed
  else if c.HasRoom then .ok ({ c with queue := c.queue ++ [a] }, true)
  else .ok (c, false)

/-- `close(c)`. -/
def close (c : Chan α) : Except Panic (Chan α) :=
  if c.closed then .error .closeOfClosed else .ok { c with closed := true }

/-- `a, ok := <-c`: an entry, or nothing from a closed channel that is
drained; `none` while there is nothing to receive. -/
def recv (c : Chan α) : Option (Chan α × Option α) :=
  match c.queue with
  | a :: rest => some ({ c with queue := rest }, some a)
  | [] => if c.closed then some (c, none) else none

/-- The channel after an attempt to send. -/
def offered (c : Chan α) (a : α) : Chan α :=
  if c.HasRoom then { c with queue := c.queue ++ [a] } else c

@[simp] theorem offered_cap (c : Chan α) (a : α) : (c.offered a).cap = c.cap := by
  simp only [offered]
  split
  · rfl
  · rfl

@[simp] theorem offered_closed (c : Chan α) (a : α) : (c.offered a).closed = c.closed := by
  simp only [offered]
  split
  · rfl
  · rfl

theorem offered_queue (c : Chan α) (a : α) :
    (c.offered a).queue = c.queue ++ if c.HasRoom then [a] else [] := by
  simp only [offered]
  split
  · rfl
  · rw [List.append_nil]

/-- On an open channel an attempt to send succeeds when there is room. -/
theorem trySend_of_open {c : Chan α} (h : c.closed = false) (a : α) :
    c.trySend a = .ok (c.offered a, decide c.HasRoom) := by
  simp only [trySend, h, offered]
  by_cases hroom : c.HasRoom
  · rw [if_neg Bool.false_ne_true, if_pos hroom, if_pos hroom, decide_eq_true hroom]
  · rw [if_neg Bool.false_ne_true, if_neg hroom, if_neg hroom, decide_eq_false hroom]

theorem close_of_open {c : Chan α} (h : c.closed = false) :
    c.close = .ok { c with closed := true } := by
  rw [close, h, if_neg Bool.false_ne_true]

/-- A receive takes the oldest entry or finds the channel closed and
drained. -/
theorem recv_eq_some {c c' : Chan α} {got : Option α} (h : c.recv = some (c', got)) :
    got.toList ++ c'.queue = c.queue ∧ c'.cap = c.cap ∧ c'.closed = c.closed := by
  simp only [recv] at h
  split at h
  · rename_i a rest hqueue
    cases h
    exact ⟨hqueue.symm, rfl, rfl⟩
  · rename_i hqueue
    split at h
    · cases h
      exact ⟨rfl, rfl, rfl⟩
    · cases h

end Chan

end Basis
