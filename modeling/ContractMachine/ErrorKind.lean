/-! Coarse classes of failure. -/

namespace ContractMachine

inductive ErrorKind where
  | authorization
  | assertion
  | typeMismatch
  | arithmetic
  | uninitializedState
  | undefinedRegister
  | insufficientBalance
  | deadlineExceeded
  | build
  deriving DecidableEq, Repr

/-- The label of the class. -/
def ErrorKind.name : ErrorKind → String
  | authorization => "AuthorizationError"
  | assertion => "AssertionError"
  | typeMismatch => "TypeMismatch"
  | arithmetic => "ArithmeticError"
  | uninitializedState => "UninitializedState"
  | undefinedRegister => "UndefinedRegister"
  | insufficientBalance => "InsufficientBalance"
  | deadlineExceeded => "DeadlineExceeded"
  | build => "BuildError"

end ContractMachine
