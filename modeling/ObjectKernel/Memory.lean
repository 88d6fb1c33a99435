/-!
# Memory

Nothing is allocated that could not exist: a request for more memory than a process can address is
refused before anything is done.

## Contents

* `Memory.limit`: the most bytes that can be asked for at once.
* `Memory.hasRoom`: whether a number of places can be asked for.
-/

namespace ObjectKernel.Memory

/-- The most bytes that can be asked for at once. -/
def limit : Nat := 0x1000000000000

/-- The bytes of a character. -/
def characterSize : Nat := 4

/-- The bytes of a reference to something else. -/
def referenceSize : Nat := 8

/-- Whether a number of places of a size can be asked for. -/
def hasRoom (places size : Nat) : Bool := places * size ≤ limit

end ObjectKernel.Memory
