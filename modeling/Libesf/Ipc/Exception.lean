import Libesf.Base.Decimal

/-!
# Exceptions of the IPC layer

`RecoverableException` is what the receive thread catches: the four classes of `ipc/exception.h`, and any class a user derives from `core::RecoverableException`. Everything else that can leave a call (an exception of the JSON library, a user exception) is not; and a null pointer that is followed is no exception at all, but the end of the process.
-/

namespace Libesf.Ipc

/-- `core::RecoverableException` and its subclasses, with the text `what()` returns. -/
inductive RecoverableException where
  | sharedMemoryException (what : Str)
  | typeException (what : Str)
  | dataFormatException (what : Str)
  | badActionId (what : Str)
  | user (what : Str)
  deriving DecidableEq, Repr

inductive Exception where
  | recoverable (exc : RecoverableException)
  | json (what : Str)
  | other (what : Str)
  | nullPointer
  deriving DecidableEq, Repr

def showSize (n : Nat) : Str := decimal n

end Libesf.Ipc
