import ObjectKernel.CharSeq

/-!
# Buffers

A buffer grows by doubling up to a limit. The first append that does not fit stops the buffer for
good: later appends have no effect, even if they would fit.

## Contents

* `Buffer`: the characters, the capacity and the failure, if any.
* `Buffer.grow`: the capacity after doubling.
* `Buffer.append`: the one way in which a buffer changes.
-/

namespace ObjectKernel

/-- A growing sequence of characters. They are kept in reverse, so that appending is cheap. -/
structure Buffer where
  reversed : List Rune := []
  length : Nat := 0
  capacity : Nat := 0
  failure : Option Err := none
  deriving DecidableEq, Repr

namespace Buffer

/-- The characters in order. -/
def chars (b : Buffer) : List Rune := b.reversed.reverse

/-- An empty buffer. -/
def empty (capacity : Nat) : Buffer := { capacity }

/-- Doubles a capacity until it holds `needed` characters, stopping at the limit; `fuel` bounds the
number of doublings. -/
def double (limit needed : Nat) : Nat → Nat → Nat
  | 0, capacity => capacity
  | fuel + 1, capacity =>
    if needed ≤ capacity then capacity
    else if limit / 2 < capacity then limit
    else double limit needed fuel (capacity * 2)

/-- The capacity after growth to hold `needed` characters. A capacity of zero counts as one. -/
def grown (limit needed capacity : Nat) : Nat :=
  double limit needed (needed + 1) (if capacity = 0 then 1 else capacity)

/-- The buffer with characters appended, or stopped when they do not fit under the limit. -/
def append (limit : Nat) (b : Buffer) (cs : List Rune) : Buffer :=
  if b.failure.isSome then b
  else
    let needed := b.length + cs.length
    if needed ≤ b.capacity then
      { b with reversed := cs.foldl (fun r c => c :: r) b.reversed, length := needed }
    else if limit < needed then { b with failure := some (.fault (.bufferFull needed limit)) }
    else
      { b with
        reversed := cs.foldl (fun r c => c :: r) b.reversed
        length := needed
        capacity := grown limit needed b.capacity }

end Buffer

end ObjectKernel
