import ObjectKernel.Memory
import ObjectKernel.Script.Step

/-!
# Classes

A class is an immutable value: a name, the methods it adds, and the class it extends. It belongs to
the runtime that defined it, and a runtime has one class of a name, so runtime and name identify it.

## Contents

* `Builtin`: the method bodies that the kernel provides.
* `Code`: a method body, the kernel's or a script.
* `Method`, `Class`: methods by selector, and the chain up to the root.
* `Class.findLocal?`, `Class.find?`: look-up in a class and along its chain.
* `Class.isSubclassOf`: whether a class is another one or descends from it.
-/

namespace ObjectKernel

/-- The number of a runtime within a process. -/
abbrev RuntimeId := Nat

/-- The method bodies of the built-in classes. -/
inductive Builtin where
  | objectEquals
  | objectToText
  | objectHashCode
  | textEquals
  | textToText
  | textCharAt
  | textLength
  | textHashCode
  | bufferAppendObject
  | bufferAppendInt
  | bufferAppendLong
  | bufferToText
  | bufferLength
  | threadRun
  | threadStart
  | threadJoin
  | threadJoinMillis
  | threadJoinNanos
  | threadIsAlive
  | threadToText
  | runnableRun
  deriving DecidableEq, Repr

/-- A method body, with the runtime it was made in. -/
inductive Code where
  | builtin (home : RuntimeId) (b : Builtin)
  | script (home : RuntimeId) (body : Script)

/-- A method: the signature its selector had when it was added, the number of its arguments, and
its body. -/
structure Method where
  name : Bytes
  arity : Int
  code : Code

/-- What a class itself consists of. The methods are sorted by selector, one for each. -/
structure ClassBody where
  home : RuntimeId
  name : Bytes
  methods : Dictionary Selector Method

/-- A class: a root, or an extension of another class. -/
inductive Class where
  | root (body : ClassBody)
  | extend (body : ClassBody) (parent : Class)

namespace Class

/-- What the class itself consists of. -/
def body : Class → ClassBody
  | root b => b
  | extend b _ => b

/-- The name of a class. -/
def name (c : Class) : Bytes := c.body.name

/-- The runtime that defined a class. -/
def home (c : Class) : RuntimeId := c.body.home

/-- The class that a class extends. -/
def parent? : Class → Option Class
  | root _ => none
  | extend _ p => some p

/-- The class with the given body below an optional parent. -/
def make (body : ClassBody) : Option Class → Class
  | none => root body
  | some p => extend body p

/-- What tells a class from every other one. -/
def identity (c : Class) : RuntimeId × Bytes := (c.home, c.name)

/-- Whether two classes are the same one. -/
def isSame (c d : Class) : Bool := c.identity == d.identity

/-- Whether two optional classes are the same one or both absent. -/
def isSame? : Option Class → Option Class → Bool
  | none, none => true
  | some c, some d => c.isSame d
  | _, _ => false

/-- The chain from a class to its root. -/
def chain : Class → List Class
  | root b => [root b]
  | extend b p => extend b p :: p.chain

/-- The method that the class itself adds for a selector. -/
def findLocal? (c : Class) (s : Selector) : Option Method := c.body.methods.get? s

/-- The method for a selector, from the nearest class of the chain that adds one, with that class. -/
def find? : Class → Selector → Option (Class × Method)
  | root b, s => ((root b).findLocal? s).map (root b, ·)
  | extend b p, s =>
    match (extend b p).findLocal? s with
    | some m => some (extend b p, m)
    | none => p.find? s

/-- Whether a class is another one or descends from it. -/
def isSubclassOf (c d : Class) : Bool := c.chain.any (isSame · d)

/-- The selectors for which the class itself adds a method, in increasing order. -/
def localSelectors (c : Class) : List Selector := c.body.methods.keys

end Class

/-! ## Method tables -/

/-- The methods of a class that is being defined, sorted by selector. A complete table takes no more
methods. -/
structure MethodTable where
  home : RuntimeId
  methods : Dictionary Selector Method := []
  complete : Bool := false

namespace MethodTable

/-- Methods sorted by selector with one more; it replaces the one that its selector had. -/
def place (s : Selector) (m : Method) : Dictionary Selector Method → Dictionary Selector Method
  | [] => [(s, m)]
  | (k, n) :: rest =>
    if s < k then (s, m) :: (k, n) :: rest
    else if s = k then (s, m) :: rest
    else (k, n) :: place s m rest

/-- The table with a method added or replaced. -/
def add (t : MethodTable) (s : Selector) (m : Method) : MethodTable :=
  { t with methods := place s m t.methods }

/-- The places of a class with these methods: one for each selector up to the greatest. -/
def places (t : MethodTable) : Nat :=
  match t.methods.keys.getLast? with
  | some s => (s + 1).toNat
  | none => 0

/-- Why a table makes no class, if it does not: it has too many places, or its least selector is
negative and has none. -/
def defect? (t : MethodTable) : Option Defect :=
  if !Memory.hasRoom t.places Memory.referenceSize then some .tooManyPlaces
  else (t.methods.keys.find? (· < 0)).map .indexOutOfRange

end MethodTable

end ObjectKernel
