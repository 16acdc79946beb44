import Mathlib.Tactic.TypeStar

/-! The exceptions that the emulator raises and catches. -/

namespace CoinjoinEmulator

/-- An exception that `except Exception` catches, with its message.  `rpcError` is a request that
was refused, got an error answer or got no answer. -/
inductive PyError where
  | valueError (message : String)
  | runtimeError (message : String)
  | timeoutError (message : String)
  | typeError (message : String)
  | keyError (key : String)
  | attributeError (message : String)
  | rpcError (message : String)
  | serviceStateError (message : String)
  | exception (message : String)
deriving DecidableEq, Repr

/-- `str(error)`. -/
def PyError.message : PyError → String
  | .valueError message | .runtimeError message | .timeoutError message | .typeError message
  | .attributeError message | .rpcError message | .serviceStateError message
  | .exception message => message
  | .keyError key => "'" ++ key ++ "'"

end CoinjoinEmulator
