import Mathlib.Data.List.Basic

/-!
# `Core.Errors`: the errors of the library that the clients share

The clients keep the text of an error as it is shown. A refusal of the system comes with a text of
its own.
-/

namespace NetOrchestrator.Core.Errors

inductive ErrorKind where
  | notFound
  | alreadyExists
  | invalidInput
  | invalidData
  | permissionDenied
  | unsupported
  | other
  deriving DecidableEq

structure IoError where
  kind : ErrorKind
  message : String
  deriving DecidableEq

def invalidInput (message : String) : IoError := ⟨.invalidInput, message⟩
def invalidData (message : String) : IoError := ⟨.invalidData, message⟩

/-- `io::Error::other`. -/
def failure (message : String) : IoError := ⟨.other, message⟩

end NetOrchestrator.Core.Errors
