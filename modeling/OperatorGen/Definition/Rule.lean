import OperatorGen.Text.Diagnostic

/-!
# Rules on parameter values

A rule makes the setter of a parameter refuse some values. Two rules can be written in a
definition file; a custom rule exists only in code, as a name and the fragment it emits.
Custom rules are the same when their names are.
-/
namespace OperatorGen

/-- A step of the fragment that a custom rule emits. -/
inductive FragmentStep where
  | line (text : String)
  /-- A line with the spelling of the parameter. -/
  | ident
  /-- A line with the default of the parameter, or a dash. -/
  | default
  | indent
  | dedent
  deriving DecidableEq, Repr, Inhabited

/-- A rule on the values of a parameter. -/
inductive Rule where
  /-- Even values are refused. -/
  | odd
  /-- Odd values are refused. -/
  | even
  | custom (name : String) (fragment : List FragmentStep)
  deriving DecidableEq, Repr, Inhabited

namespace Rule

/-- The rules of definition files by name. -/
def known : List (String × Rule) :=
  [("odd", odd), ("even", even)]

/-- A rule that can be written in a definition file. -/
def IsParity (rule : Rule) : Prop :=
  rule = .odd ∨ rule = .even

instance (rule : Rule) : Decidable rule.IsParity :=
  inferInstanceAs (Decidable (rule = .odd ∨ rule = .even))

def name : Rule → String
  | odd => "odd"
  | even => "even"
  | custom name _ => name

/-- Whether two rules are the same; of custom rules only the names count. -/
def same : Rule → Rule → Bool
  | odd, odd => true
  | even, even => true
  | custom a _, custom b _ => a == b
  | _, _ => false

/-- A rule as a diagnostic shows it. -/
def label : Rule → String
  | odd => "Odd"
  | even => "Even"
  | custom name _ => "Custom(" ++ Diagnostic.quote name ++ ")"

def listLabel (rules : List Rule) : String :=
  "[" ++ ", ".intercalate (rules.map label) ++ "]"

end Rule
end OperatorGen
