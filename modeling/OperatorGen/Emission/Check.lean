import OperatorGen.Definition.Node
import OperatorGen.Document

/-!
# Checks of rules

The fragment that a rule adds to the setter of its parameter. It stands where the value to
set is `castedValue` in the wrapper's type, and it throws for values that the rule refuses.
The remainder of an odd negative number is negative, so a remainder is compared with zero
only.
-/
namespace OperatorGen

/-- The steps of a fragment of code for a parameter. -/
def FragmentStep.step (parameter : Parameter) : FragmentStep → Step
  | line text => .line text
  | ident => .line parameter.argument.ident.text
  | default => .line (parameter.default.getD "-")
  | indent => .indent
  | dedent => .dedent

/-- A check of the remainder by two. -/
def parityCheck (parameter : Parameter) (refused message : String) : List Step :=
  [.line ("if(int(castedValue) % 2 " ++ refused ++ ")")] ++
    Step.nested [.line ("throw runtime::WrongParameterValue(*" ++
      parameter.argument.ident.member ++ "Parameter, *this, \"" ++ message ++ "\");")]

/-- The check of a rule. -/
def Rule.check (parameter : Parameter) : Rule → List Step
  | odd => parityCheck parameter "== 0" "Only odd values are allowed"
  | even => parityCheck parameter "!= 0" "Only even values are allowed"
  | custom _ fragment => fragment.map (FragmentStep.step parameter)

def Parameter.checks (parameter : Parameter) : List Step :=
  parameter.rules.flatMap (Rule.check parameter)

end OperatorGen
