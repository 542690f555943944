import Mathlib.Logic.Function.Basic

/-!
# The buffer of the stores

A call of `GetStorageData` or `SetStorageData` allocates `Para_Buff` when it is `NULL`, then takes the mutex, works on it, frees it,
and releases the mutex. Calls of different threads interleave at the mutex operations.
-/

namespace EnergyRouter

/-- How far a thread is in its call: in front of it or behind it, waiting for the mutex, or holding it. -/
inductive CallPoint
  | idle
  | entered
  | inside
  deriving DecidableEq, Repr

/-- The buffer and the threads. Allocations are numbered; `buff` is the one `Para_Buff` points to. -/
structure ParaBuff (Thread : Type) where
  point : Thread → CallPoint
  holder : Option Thread
  buff : Option Nat
  allocated : Nat
  freed : List Nat

/-- The pieces of a call: up to the mutex, with `memory` for whether `rt_malloc` finds any; taking it; and from there to its
release. -/
inductive StorageAction (Thread : Type)
  | enter (i : Thread) (memory : Bool)
  | take (i : Thread)
  | finish (i : Thread)

/-- No call has been made. -/
def ParaBuff.init (Thread : Type) : ParaBuff Thread := ⟨fun _ => .idle, none, none, 0, []⟩

variable {Thread : Type} [DecidableEq Thread]

/-- One piece of a call. A call that finds no memory returns. `rt_free` of `NULL` does nothing. -/
def ParaBuff.step (s : ParaBuff Thread) : StorageAction Thread → Option (ParaBuff Thread)
  | .enter i memory =>
    if s.point i = .idle then
      match s.buff, memory with
      | some _, _ => some { s with point := Function.update s.point i .entered }
      | none, true =>
        some { s with buff := some s.allocated, allocated := s.allocated + 1, point := Function.update s.point i .entered }
      | none, false => some s
    else none
  | .take i =>
    if s.point i = .entered ∧ s.holder = none then
      some { s with holder := some i, point := Function.update s.point i .inside }
    else none
  | .finish i =>
    if s.point i = .inside then
      some { s with
        freed := s.freed ++ s.buff.toList
        buff := none
        holder := none
        point := Function.update s.point i .idle }
    else none

end EnergyRouter
