import ObjectKernel.Class

/-!
# Built-in classes

Every runtime starts with five classes. They depend on nothing but the runtime they belong to.

## Contents

* `Builtin.rootClass`, `textClass`, `bufferClass`, `threadClass`, `runnableClass`.
* `Builtin.classes`: all of them, in the order in which they are defined.
-/

namespace ObjectKernel.Builtin

/-- The signature with a well-known number. -/
def signature (s : Selector) : Bytes := (Selector.wellKnown[s.toNat]?).getD []

/-- A method of a built-in class. -/
def method (home : RuntimeId) (s : Selector) (arity : Nat) (b : Builtin) : Selector × Method :=
  (s, { name := signature s, arity, code := .builtin home b })

/-- The class at the end of every chain. -/
def rootClass (home : RuntimeId) : Class :=
  .root
    { home
      name := "java.lang.Object"
      methods :=
        [method home .equals 1 .objectEquals,
         method home .toText 0 .objectToText,
         method home .hashCode 0 .objectHashCode] }

/-- A built-in class below the root. -/
def extension (home : RuntimeId) (name : Bytes) (methods : Dictionary Selector Method) : Class :=
  .extend { home, name, methods } (rootClass home)

/-- The class of strings. -/
def textClass (home : RuntimeId) : Class :=
  extension home "java.lang.String"
    [method home .equals 1 .textEquals,
     method home .toText 0 .textToText,
     method home .hashCode 0 .textHashCode,
     method home .charAt 1 .textCharAt,
     method home .length 0 .textLength]

/-- The class of buffers. -/
def bufferClass (home : RuntimeId) : Class :=
  extension home "java.lang.StringBuffer"
    [method home .toText 0 .bufferToText,
     method home .length 0 .bufferLength,
     method home .appendObject 1 .bufferAppendObject,
     method home .appendInt 1 .bufferAppendInt,
     method home .appendLong 1 .bufferAppendLong]

/-- The class of threads. -/
def threadClass (home : RuntimeId) : Class :=
  extension home "java.lang.Thread"
    [method home .toText 0 .threadToText,
     method home .run 0 .threadRun,
     method home .start 0 .threadStart,
     method home .join 0 .threadJoin,
     method home .joinMillis 1 .threadJoinMillis,
     method home .joinNanos 2 .threadJoinNanos,
     method home .isAlive 0 .threadIsAlive]

/-- The class of work items. -/
def runnableClass (home : RuntimeId) : Class :=
  extension home "java.lang.Runnable$Func" [method home .run 0 .runnableRun]

/-- The built-in classes in the order of their definition. -/
def classes (home : RuntimeId) : List Class :=
  [rootClass home, textClass home, bufferClass home, threadClass home, runnableClass home]

end ObjectKernel.Builtin
