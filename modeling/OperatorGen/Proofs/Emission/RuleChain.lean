import OperatorGen.Emission.Access
import OperatorGen.Proofs.Emission.Variables
import OperatorGen.Proofs.FirstError
import Mathlib.Data.List.Basic
import Mathlib.Algebra.Order.Ring.Int
import Mathlib.Algebra.Group.Int.Even

/-!
# The chain of rules

Behind the check of its kind, the case that sets a parameter is straight code: each rule guards
an exception by a test of the remainder, and the last line assigns the value. This code is read
here from its lines (`readLine?`) and executed as the language of the file has it (`execute`):
the remainder has the sign of the dividend, and what stands behind a test that fails is passed
over. A value is assigned if and only if all rules accept it, and otherwise the first rule that
refuses it throws its message before anything is assigned (`rules_enforced`).
-/
namespace OperatorGen

namespace Access

/-! ## Reading code -/

/-- A comparison of the remainder of the value by a divisor with a number. -/
structure RemainderTest where
  divisor : Nat
  equal : Bool
  number : Nat
  deriving DecidableEq, Repr

/-- A line of code: the head of a statement that runs under a condition, or a statement. -/
inductive CodeLine where
  | test (condition : RemainderTest)
  | throws (exception message : List Char)
  | assigns (target : List Char)
  deriving DecidableEq, Repr

def readNumber? (digits : List Char) : Option Nat :=
  if digits ≠ [] ∧ digits.all Char.isDigit = true then
    some (digits.foldl (fun number digit => 10 * number + (digit.toNat - '0'.toNat)) 0)
  else none

/-- Reads `if(int(castedValue) % divisor == number)`, or the same with `!=`. -/
def readTest? (line : List Char) : Option RemainderTest := do
  let inner ← line.dropPrefix? "if(int(castedValue) % ".toList
  let words ← inner.dropSuffix? ")".toList
  match words.splitOn ' ' with
  | [divisor, operator, number] =>
    let divisor ← readNumber? divisor
    let number ← readNumber? number
    if operator = "==".toList then some ⟨divisor, true, number⟩
    else if operator = "!=".toList then some ⟨divisor, false, number⟩
    else none
  | _ => none

/-- Reads `throw exception(arguments, "message");`. -/
def readThrow? (line : List Char) : Option (List Char × List Char) := do
  let thrown ← line.dropPrefix? "throw ".toList
  let quoted ← thrown.reverse.dropPrefix? "\");".toList.reverse
  some (thrown.takeWhile (· ≠ '('), (quoted.takeWhile (· ≠ '"')).reverse)

/-- Reads `target = castedValue;`. -/
def readAssignment? (line : List Char) : Option (List Char) := do
  let target ← line.reverse.dropPrefix? " = castedValue;".toList.reverse
  some target.reverse

def readLine? (line : List Char) : Option CodeLine :=
  (readTest? line).map .test <|>
    (readThrow? line).map (fun (exception, message) => .throws exception message) <|>
    (readAssignment? line).map .assigns

/-! ## Executing code -/

/-- Whether a test holds for a value. The value is converted to 32 bits, and the remainder has
    the sign of the dividend. -/
def RemainderTest.holds (condition : RemainderTest) (value : Int) : Bool :=
  let remainder := (value.bmod (2 ^ 32)).tmod condition.divisor
  if condition.equal then remainder = condition.number else remainder ≠ condition.number

/-- What an execution has done: the assignments in order, and the exception that ended it, with
    its message. -/
structure Effect where
  assigned : List (List Char × Int) := []
  thrown : Option (List Char × List Char) := none
  deriving DecidableEq, Repr

namespace Effect

/-- The value is refused with a message, before anything has been assigned. -/
def refused (message : String) : Effect :=
  { thrown := some ("runtime::WrongParameterValue".toList, message.toList) }

/-- The value is assigned to the member of a parameter, and nothing else happens. -/
def stored (parameter : Parameter) (value : Int) : Effect :=
  { assigned := [(parameter.argument.ident.member.toList, value)] }

end Effect

/-- The effect of lines for a value. The statement behind a test that fails is passed over. -/
def execute (value : Int) : (passing : Bool) → List String → Option Effect
  | _, [] => some {}
  | passing, line :: rest =>
    match readLine? line.toList with
    | none => none
    | some (.test condition) => execute value (passing || !condition.holds value) rest
    | some (.throws exception message) =>
      if passing then execute value false rest
      else some { thrown := some (exception, message) }
    | some (.assigns target) =>
      if passing then execute value false rest
      else (execute value false rest).map fun effect =>
        { effect with assigned := (target, value) :: effect.assigned }

section
variable {α : Type} [BEq α] {list front rest : List α}

theorem dropPrefix?_of_append [ReflBEq α] (front rest : List α) :
    (front ++ rest).dropPrefix? front = some rest :=
  List.dropPrefix?_append_of_beq rest BEq.rfl

/-- A list has no prefix that begins otherwise. -/
theorem dropPrefix?_of_head [LawfulBEq α] (some : front ≠ [])
    (apart : list.head? ≠ front.head?) : list.dropPrefix? front = none := by
  rcases front with _ | ⟨first, others⟩
  · exact absurd rfl some
  · rcases list with _ | ⟨head, tail⟩
    · rfl
    · have other : (head == first) = false := beq_false_of_ne fun same => apart (by simp [same])
      simp [List.dropPrefix?, other]

end

theorem takeWhile_ne {stop : Char} {front : List Char} (none : stop ∉ front) (rest : List Char) :
    (front ++ stop :: rest).takeWhile (· ≠ stop) = front := by
  have others : ∀ c ∈ front, decide (c ≠ stop) = true := by
    intro c member
    exact decide_eq_true fun same => none (same ▸ member)
  rw [List.takeWhile_append_of_pos others, List.takeWhile_cons_of_neg (by simp), List.append_nil]

theorem readTest?_of_head {line : List Char} (other : line.head? ≠ some 'i') :
    readTest? line = none := by
  rw [readTest?, dropPrefix?_of_head (by decide) other]
  rfl

theorem readThrow?_of_head {line : List Char} (other : line.head? ≠ some 't') :
    readThrow? line = none := by
  rw [readThrow?, dropPrefix?_of_head (by decide) other]
  rfl

/-- The exception ends at the first bracket, and the message is the last literal. -/
theorem readThrow?_eq {exception message : List Char} (simple : '(' ∉ exception)
    (subject : List Char) (plain : '"' ∉ message) :
    readThrow? ("throw ".toList ++ (exception ++ '(' ::
      (subject ++ '"' :: (message ++ "\");".toList)))) = some (exception, message) := by
  have back : (exception ++ '(' :: (subject ++ '"' :: (message ++ "\");".toList))).reverse =
      "\");".toList.reverse ++
        (message.reverse ++ '"' :: (exception ++ '(' :: subject).reverse) := by
    simp only [List.reverse_append, List.reverse_cons, List.append_assoc, List.cons_append,
      List.nil_append]
  simp only [readThrow?, dropPrefix?_of_append, Option.bind_eq_bind, Option.bind_some, back]
  rw [takeWhile_ne simple, takeWhile_ne (by simpa using plain), List.reverse_reverse]

theorem readAssignment?_eq (target : List Char) :
    readAssignment? (target ++ " = castedValue;".toList) = some target := by
  rw [readAssignment?, List.reverse_append, dropPrefix?_of_append, Option.bind_eq_bind,
    Option.bind_some, List.reverse_reverse]

theorem readLine?_throw {exception message : List Char} (simple : '(' ∉ exception)
    (subject : List Char) (plain : '"' ∉ message) :
    readLine? ("throw ".toList ++ (exception ++ '(' ::
      (subject ++ '"' :: (message ++ "\");".toList)))) = some (.throws exception message) := by
  have first : "throw ".toList = 't' :: "hrow ".toList := by decide
  have noTest : ∀ rest, readTest? ("throw ".toList ++ rest) = none := fun rest =>
    readTest?_of_head (by simp [first])
  rw [readLine?, noTest, readThrow?_eq simple subject plain]
  rfl

theorem readLine?_assignment {target : List Char} (begins : target.head? = some 'm') :
    readLine? (target ++ " = castedValue;".toList) = some (.assigns target) := by
  have first : (target ++ " = castedValue;".toList).head? = some 'm' := by
    rw [List.head?_append, begins, Option.some_or]
  rw [readLine?, readTest?_of_head (by rw [first]; decide),
    readThrow?_of_head (by rw [first]; decide), readAssignment?_eq]
  rfl

/-! ## The chain -/

/-- The remainder by two is zero for even values, whatever their sign. -/
theorem tmod_two_eq_zero_iff (value : Int) : (value.bmod (2 ^ 32)).tmod 2 = 0 ↔ Even value := by
  rw [← Int.dvd_iff_tmod_eq_zero, even_iff_two_dvd]
  simp only [Int.bmod_def]
  split <;> omega

end Access

namespace Rule

/-- A rule accepts a value. -/
inductive Accepts (value : Int) : Rule → Prop
  | odd (isOdd : Odd value) : Accepts value .odd
  | even (isEven : Even value) : Accepts value .even

/-- A rule refuses a value with a message. -/
inductive Refuses (value : Int) : Rule → String → Prop
  | odd (other : ¬ Odd value) : Refuses value .odd "Only odd values are allowed"
  | even (other : ¬ Even value) : Refuses value .even "Only even values are allowed"

theorem accepts_or_refuses {rule : Rule} (parity : rule.IsParity) (value : Int) :
    rule.Accepts value ∨ ∃ message, rule.Refuses value message := by
  rcases parity with rfl | rfl
  · by_cases isOdd : Odd value
    · exact .inl (.odd isOdd)
    · exact .inr ⟨_, .odd isOdd⟩
  · by_cases isEven : Even value
    · exact .inl (.even isEven)
    · exact .inr ⟨_, .even isEven⟩

end Rule

namespace Access

variable {parameter : Parameter} {rule : Rule} {rules : List Rule} {value : Int}
  {message : String} {rest : List String}

theorem readLine?_parityThrow (parameter : Parameter) (plain : '"' ∉ message.toList) :
    readLine? ("throw runtime::WrongParameterValue(*" ++ parameter.argument.ident.member ++
      "Parameter, *this, \"" ++ message ++ "\");").toList =
        some (.throws "runtime::WrongParameterValue".toList message.toList) := by
  have opening : "throw runtime::WrongParameterValue(*".toList =
      "throw ".toList ++ ("runtime::WrongParameterValue".toList ++ '(' :: ['*']) := by decide
  have middle : "Parameter, *this, \"".toList = "Parameter, *this, ".toList ++ ['"'] := by decide
  have simple : '(' ∉ "runtime::WrongParameterValue".toList := by decide
  have read := readLine?_throw simple
    (['*'] ++ parameter.argument.ident.member.toList ++ "Parameter, *this, ".toList) plain
  simp only [String.toList_append, opening, middle]
  simpa only [List.append_assoc, List.cons_append, List.nil_append] using read

/-- A check throws its message where its test holds, and is passed by other values. -/
theorem execute_parityCheck {refused : String} {condition : RemainderTest}
    (read : readLine? ("if(int(castedValue) % 2 " ++ refused ++ ")").toList =
      some (.test condition)) (plain : '"' ∉ message.toList) :
    execute value false (lineTexts (parityCheck parameter refused message) ++ rest) =
      if condition.holds value then some (.refused message) else execute value false rest := by
  have lines : lineTexts (parityCheck parameter refused message) ++ rest =
      ("if(int(castedValue) % 2 " ++ refused ++ ")") ::
        ("throw runtime::WrongParameterValue(*" ++ parameter.argument.ident.member ++
          "Parameter, *this, \"" ++ message ++ "\");") :: rest := rfl
  rw [lines, execute, read]
  simp only [Bool.false_or]
  rw [execute, readLine?_parityThrow parameter plain]
  cases condition.holds value <;> rfl

theorem holds_odd_iff : RemainderTest.holds ⟨2, true, 0⟩ value = true ↔ ¬ Odd value := by
  rw [Int.not_odd_iff_even, ← tmod_two_eq_zero_iff]
  exact decide_eq_true_iff

theorem holds_even_iff : RemainderTest.holds ⟨2, false, 0⟩ value = true ↔ ¬ Even value := by
  rw [← tmod_two_eq_zero_iff]
  exact decide_eq_true_iff

theorem readLine?_oddTest :
    readLine? ("if(int(castedValue) % 2 " ++ "== 0" ++ ")").toList =
      some (.test ⟨2, true, 0⟩) := by decide +kernel

theorem readLine?_evenTest :
    readLine? ("if(int(castedValue) % 2 " ++ "!= 0" ++ ")").toList =
      some (.test ⟨2, false, 0⟩) := by decide +kernel

theorem execute_check_of_accepts (accepts : rule.Accepts value) :
    execute value false (lineTexts (rule.check parameter) ++ rest) = execute value false rest := by
  cases accepts with
  | odd isOdd =>
    rw [Rule.check, execute_parityCheck readLine?_oddTest (by decide),
      if_neg fun holds => holds_odd_iff.mp holds isOdd]
  | even isEven =>
    rw [Rule.check, execute_parityCheck readLine?_evenTest (by decide),
      if_neg fun holds => holds_even_iff.mp holds isEven]

theorem execute_check_of_refuses (refuses : rule.Refuses value message) :
    execute value false (lineTexts (rule.check parameter) ++ rest) =
      some (.refused message) := by
  cases refuses with
  | odd other =>
    rw [Rule.check, execute_parityCheck readLine?_oddTest (by decide),
      if_pos (holds_odd_iff.mpr other)]
  | even other =>
    rw [Rule.check, execute_parityCheck readLine?_evenTest (by decide),
      if_pos (holds_even_iff.mpr other)]

/-- Rules that all accept a value are passed one after another. -/
theorem execute_checks_of_accepts (all : ∀ rule ∈ rules, rule.Accepts value) :
    execute value false (lineTexts (rules.flatMap (Rule.check parameter)) ++ rest) =
      execute value false rest := by
  induction rules with
  | nil => rfl
  | cons rule others ih =>
    rw [List.forall_mem_cons] at all
    rw [List.flatMap_cons, lineTexts_append, List.append_assoc, execute_check_of_accepts all.1,
      ih all.2]

/-- The first rule that refuses a value throws its message. -/
theorem execute_checks_of_refuses (parities : ∀ rule ∈ rules, rule.IsParity)
    (first : First (Rule.Refuses value) rules message) :
    execute value false (lineTexts (rules.flatMap (Rule.check parameter)) ++ rest) =
      some (.refused message) := by
  induction first with
  | here refuses =>
    rw [List.flatMap_cons, lineTexts_append, List.append_assoc, execute_check_of_refuses refuses]
  | @later rule others message passed _ ih =>
    rw [List.forall_mem_cons] at parities
    have accepts : rule.Accepts value :=
      (Rule.accepts_or_refuses parities.1 value).resolve_right fun ⟨other, refuses⟩ =>
        passed other refuses
    rw [List.flatMap_cons, lineTexts_append, List.append_assoc, execute_check_of_accepts accepts,
      ih parities.2]

/-! ## Setter cases -/

/-- The case that sets a parameter up to the end of the check of its kind. -/
def caseFront (config : Config) (parameter : Parameter) (check : Option String) : List Step :=
  [.line ("case " ++ parameter.argument.ident.constant ++ ":"), .indent, .line "\x7b", .indent,
    .line ("const " ++ config.runtime parameter.argument.wrapperType ++ " & castedValue = " ++
      config.runtime "data_cast" ++ "<" ++ config.runtime parameter.argument.wrapperType ++
        ">(value);")] ++
    check.toList.map (kindCheckStep parameter.argument.ident)

/-- The end of a case that sets a parameter. -/
def caseBack : List Step :=
  [.dedent, .line "\x7d", .line "break;", .dedent]

def assignment (parameter : Parameter) : Step :=
  .line (parameter.argument.ident.member ++ " = castedValue;")

theorem execute_assignment (parameter : Parameter) (value : Int) :
    execute value false (lineTexts [assignment parameter]) =
      some (.stored parameter value) := by
  have begins : parameter.argument.ident.member.toList.head? = some 'm' := by
    have letters : "m_".toList = ['m', '_'] := by decide
    rw [Ident.member, String.toList_append, letters]
    rfl
  have lines : lineTexts [assignment parameter] =
      [parameter.argument.ident.member ++ " = castedValue;"] := rfl
  rw [lines, execute, String.toList_append, readLine?_assignment begins]
  rfl

/-- The code of a case behind the check of its kind: the fragments of all rules in order, and
    then the assignment. -/
def chain (parameter : Parameter) : List Step :=
  parameter.rules.flatMap (Rule.check parameter) ++ [assignment parameter]

theorem setNodeCase_eq (config : Config) {node : Node} {parameter : Parameter}
    (isParameter : node.parameter? = some parameter) :
    setNodeCase config node =
      caseFront config parameter (kindCheck? node) ++ chain parameter ++ caseBack := by
  rw [setNodeCase, isParameter]
  simp [setCase, caseFront, chain, caseBack, assignment, Parameter.checks, Step.nested, Step.scope]

/-- Behind the check of its kind, a case that sets a parameter has the fragments of all rules in
    order and then the assignment. If the rules are those of a definition file, this code assigns
    a value if and only if every rule accepts it, and otherwise throws the message of the first
    rule that refuses it, with nothing assigned. -/
theorem rules_enforced (config : Config) {node : Node} {parameter : Parameter}
    (isParameter : node.parameter? = some parameter) :
    setNodeCase config node =
        caseFront config parameter (kindCheck? node) ++ chain parameter ++ caseBack ∧
      ((∀ rule ∈ parameter.rules, rule.IsParity) → ∀ value : Int,
        (execute value false (lineTexts (chain parameter)) = some (.stored parameter value) ↔
          ∀ rule ∈ parameter.rules, rule.Accepts value) ∧
        ((¬ ∀ rule ∈ parameter.rules, rule.Accepts value) →
          ∃ message, First (Rule.Refuses value) parameter.rules message ∧
            execute value false (lineTexts (chain parameter)) = some (.refused message))) := by
  refine ⟨setNodeCase_eq config isParameter, fun parities value => ?_⟩
  rw [chain, lineTexts_append]
  have refused : (¬ ∀ rule ∈ parameter.rules, rule.Accepts value) →
      ∃ message, First (Rule.Refuses value) parameter.rules message := by
    intro notAll
    push Not at notAll
    obtain ⟨rule, member, refuses⟩ := notAll
    rw [First.exists_iff]
    have decided := Rule.accepts_or_refuses (parities rule member) value
    exact ⟨rule, member, decided.resolve_left refuses⟩
  refine ⟨⟨fun stores => ?_, fun all => ?_⟩, fun notAll => ?_⟩
  · by_contra notAll
    obtain ⟨message, first⟩ := refused notAll
    rw [execute_checks_of_refuses parities first] at stores
    cases stores
  · rw [execute_checks_of_accepts all, execute_assignment]
  · obtain ⟨message, first⟩ := refused notAll
    exact ⟨message, first, execute_checks_of_refuses parities first⟩

/-- A size with rules that no value satisfies together. -/
def oddSize : Parameter :=
  { argument := { ident := ⟨"ksize"⟩, wrapperType := "UInt32" }, rules := [.odd, .even] }

/-- A negative odd value passes the first rule and is refused by the second. -/
theorem oddSize_enforced :
    Node.parameter? (.numeric { parameter := oddSize }) = some oddSize ∧
      (∀ rule ∈ oddSize.rules, rule.IsParity) ∧
      execute (-3) false (lineTexts (chain oddSize)) =
        some (.refused "Only even values are allowed") := by
  have parities : ∀ rule ∈ oddSize.rules, rule.IsParity := by simp [oddSize, Rule.IsParity]
  have notAll : ¬ ∀ rule ∈ oddSize.rules, rule.Accepts (-3) := by
    intro all
    cases all .even (by simp [oddSize]) with
    | even isEven => exact absurd isEven (by decide)
  have isParameter : Node.parameter? (.numeric { parameter := oddSize }) = some oddSize := rfl
  obtain ⟨-, enforced⟩ := rules_enforced .standard isParameter
  obtain ⟨message, first, thrown⟩ := (enforced parities (-3)).2 notAll
  refine ⟨isParameter, parities, ?_⟩
  cases first with
  | here refuses =>
    cases refuses with
    | odd other => exact absurd (by decide) other
  | later _ next =>
    cases next with
    | here refuses =>
      cases refuses with
      | even => exact thrown
    | later _ none => cases none

end Access
end OperatorGen
