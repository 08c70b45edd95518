import OperatorGen.Emission.DataIds
import OperatorGen.FileTree
import OperatorGen.Json.DecodeError
import OperatorGen.Validation
import OperatorGen.Walk

/-!
# Errors

What can go wrong from a definition file to the code emitted for it.
-/
namespace OperatorGen

/-- Why a run ends. -/
inductive Error where
  | system (reason : SystemError)
  | parse (file : String) (reason : Json.DecodeError)
  | unhandled (unhandled : Unhandled)
  | invalid (problems : List Problem)
  | emit (reason : EmitError)
  deriving Inhabited

def Error.message : Error → String
  | system reason => "I/O error: " ++ reason.message
  | parse file reason => "failed to parse " ++ file ++ ": " ++ reason.message
  | unhandled u => u.message
  | invalid problems => "invalid package: " ++ Problem.messages problems
  | emit reason => "emit error: " ++ reason.message

/-- The words for an error and for its causes. The cause of a system error is the error of
    the system, which says the same once more. -/
def Error.chain : Error → String
  | system reason => (Error.system reason).message ++ ": " ++ reason.message
  | error => error.message

end OperatorGen
