import ByteMachine.Storage.Memory
import ByteMachine.Symbols.Placement

/-!
# Settings of a machine

Key definitions: `Config`, `Config.validate`.
-/

namespace ByteMachine

/-- What a machine is made from. -/
structure Config where
  /-- The size in bytes of pointers and of `int`. -/
  word : Nat := 4
  order : ByteOrder := .little
  /-- The size of memory in bytes. -/
  memorySize : Nat := 256
  placement : Placement := .aligned
  /-- The seed of the stream that scattered placement draws from. -/
  seed : UInt64 := 0x5EED
  /-- The estimated size that the history may reach. -/
  historyLimit : Nat := 4 * 1024 * 1024
deriving DecidableEq, Repr, Inhabited

/-- Refuses a word size or a memory size that no machine has. -/
def Config.validate (c : Config) : Except Fault Unit :=
  if !Catalog.isWordSize c.word then .error (.invalidWordSize c.word)
  else if !Memory.isSize c.memorySize then .error (.invalidMemorySize c.memorySize)
  else .ok ()

end ByteMachine
