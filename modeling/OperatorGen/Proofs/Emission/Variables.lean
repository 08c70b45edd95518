import OperatorGen.Emission.Body

/-!
# Local variables of a body

A line of a body is a text with the names of local variables in it, some of which it
declares and some of which it uses. Statements are taken apart into such lines here
(`Statement.lines`), and the lines have the text of the code of the statements
(`lineTexts_code`). The fragments of the definition are texts without variables.
-/
namespace OperatorGen

/-- The texts of the lines among steps. -/
def lineTexts (steps : List Step) : List String :=
  steps.filterMap fun
    | .line text => some text
    | _ => none

theorem lineTexts_append (first second : List Step) :
    lineTexts (first ++ second) = lineTexts first ++ lineTexts second :=
  List.filterMap_append

namespace Body

/-- A local variable of a body. -/
inductive Variable where
  /-- Holds the container of an argument. -/
  | container (ident : Ident)
  /-- Holds the opened container of an argument. -/
  | opened (access : Access) (ident : Ident)
  /-- Holds the native value of an argument. -/
  | native (ident : Ident)
  deriving DecidableEq, Repr

def Variable.name (config : Config) : Variable → String
  | container ident => containerName ident
  | opened access ident => accessName access ident
  | native ident => config.dataName ident

/-- A piece of a line: a text, or the name of a variable that the line declares or uses. -/
inductive Piece where
  | text (content : String)
  | declares (v : Variable)
  | uses (v : Variable)
  deriving DecidableEq, Repr

/-- A line of code in pieces. -/
abbrev Line := List Piece

def Piece.code (config : Config) : Piece → String
  | text content => content
  | declares v => v.name config
  | uses v => v.name config

def lineText (config : Config) : Line → String
  | [] => ""
  | piece :: rest => piece.code config ++ lineText config rest

/-- The variables that a line declares. -/
def declared : Line → List Variable
  | [] => []
  | .declares v :: rest => v :: declared rest
  | _ :: rest => declared rest

/-- The variables that a line uses. -/
def used : Line → List Variable
  | [] => []
  | .uses v :: rest => v :: used rest
  | _ :: rest => used rest

@[simp] theorem declared_append (first second : Line) :
    declared (first ++ second) = declared first ++ declared second := by
  induction first with
  | nil => rfl
  | cons piece rest ih => cases piece <;> simp [declared, ih]

@[simp] theorem used_append (first second : Line) :
    used (first ++ second) = used first ++ used second := by
  induction first with
  | nil => rfl
  | cons piece rest ih => cases piece <;> simp [used, ih]

/-! ## Statements in pieces -/

/-- An expression with a variable in it, as it is converted to a native type. -/
def nativePieces (nativeType : String) (expression : Line) : Line :=
  if nativeType = "cv::Mat" then [.text "cvsupport::getOpenCvMat("] ++ expression ++ [.text ")"]
  else [.text (nativeType ++ "(")] ++ expression ++ [.text ")"]

def Initial.pieces (nativeType : String) (ident : Ident) : Initial → Line
  | opened access => nativePieces nativeType [.uses (.opened access ident), .text "()"]
  | member => nativePieces nativeType [.text ident.member]
  | converted => [.text (converterName ident ++ "(" ++ ident.member ++ ")")]
  | literal text => [.text text]

def Handed.pieces (config : Config) (ident : Ident) : Handed → Line
  | received => [.uses (.container ident)]
  | wrapped =>
    [.text (config.runtime "DataContainer" ++ "(cvsupport::wrap("), .uses (.native ident),
      .text "))"]

/-- Expressions with commas between them. -/
def commaPieces (expressions : List Line) : Line :=
  [Piece.text ", "].intercalate expressions

def compoundPieces (config : Config) (compound : Compound) : Line :=
  let name :=
    match compound.constructor with
    | .size => config.sizeType
    | .call name => name
  [.text (name ++ "(")] ++
    commaPieces (compound.arguments.map fun node => [.uses (.native node.ident)]) ++ [.text ")"]

def argumentPieces? (config : Config) : Item → Option Line
  | .node (.output _) => none
  | .node node => some [.uses (.native node.ident)]
  | .compound compound => some (compoundPieces config compound)

def resultPieces : Option Argument → Line
  | some argument =>
    [.text (argument.nativeType ++ " "), .declares (.native argument.ident), .text " = "]
  | none => []

/-- The lines of a statement. -/
def Statement.lines (config : Config) : Statement → List Line
  | receive ident =>
    [[.text (config.runtime "DataContainer" ++ " "), .declares (.container ident),
      .text (" = provider.receiveInputData(" ++ ident.constant ++ ");")]]
  | openAccess access ident =>
    [[.text (config.runtime access.name ++ " "), .declares (.opened access ident), .text "(",
      .uses (.container ident), .text ");"]]
  | guard ident source =>
    [[.text "if(", .uses (.container ident), .text " == ", .uses (.container source), .text ")"],
     [.text ("throw " ++ config.runtime "InputError" ++ "(" ++ source.constant ++
        ", *this, \"Can not operate in place.\");")]]
  | declare nativeType ident initial =>
    [[.text (nativeType ++ " "), .declares (.native ident), .text " = "] ++
      initial.pieces nativeType ident ++ [.text ";"]]
  | allocate nativeType ident =>
    [[.text (nativeType ++ " "), .declares (.native ident), .text ";"]]
  | fragment text => [[.text text]]
  | blank => [[]]
  | call result function items =>
    [resultPieces result ++ [.text (function ++ "(")] ++
      commaPieces (items.filterMap (argumentPieces? config)) ++ [.text ");"]]
  | send ident handed =>
    [[.text ("provider.sendOutputData(" ++ ident.constant ++ ", ")] ++
      handed.pieces config ident ++ [.text ");"]]

def lines (config : Config) (statements : List Statement) : List Line :=
  statements.flatMap (Statement.lines config)

@[simp] theorem lines_nil (config : Config) : lines config [] = [] := rfl

@[simp] theorem lines_cons (config : Config) (statement : Statement) (rest : List Statement) :
    lines config (statement :: rest) = statement.lines config ++ lines config rest := rfl

@[simp] theorem lines_append (config : Config) (first second : List Statement) :
    lines config (first ++ second) = lines config first ++ lines config second :=
  List.flatMap_append

/-! ## Variables of expressions -/

@[simp] theorem declared_nativePieces (nativeType : String) (expression : Line) :
    declared (nativePieces nativeType expression) = declared expression := by
  unfold nativePieces
  split
  · simp [declared]
  · simp [declared]

@[simp] theorem used_nativePieces (nativeType : String) (expression : Line) :
    used (nativePieces nativeType expression) = used expression := by
  unfold nativePieces
  split
  · simp [used]
  · simp [used]

@[simp] theorem declared_initial (nativeType : String) (ident : Ident) (initial : Initial) :
    declared (initial.pieces nativeType ident) = [] := by
  cases initial <;> simp [Initial.pieces, declared]

@[simp] theorem used_result (result : Option Argument) : used (resultPieces result) = [] := by
  cases result <;> rfl

theorem commaPieces_cons (first second : Line) (others : List Line) :
    commaPieces (first :: second :: others) =
      first ++ [.text ", "] ++ commaPieces (second :: others) := by
  simp [commaPieces]

@[simp] theorem used_commaPieces (expressions : List Line) :
    used (commaPieces expressions) = expressions.flatMap used := by
  induction expressions with
  | nil => rfl
  | cons first rest ih =>
    cases rest with
    | nil => simp [commaPieces]
    | cons second others =>
      rw [commaPieces_cons, used_append, used_append, ih]
      simp [used]

/-! ## The text of the lines -/

@[simp] theorem lineText_append (config : Config) (first second : Line) :
    lineText config (first ++ second) = lineText config first ++ lineText config second := by
  induction first with
  | nil => simp [lineText]
  | cons piece rest ih => simp [lineText, ih, String.append_assoc]

theorem lineText_nativePieces (config : Config) (nativeType : String) (expression : Line) :
    lineText config (nativePieces nativeType expression) =
      nativeFrom nativeType (lineText config expression) := by
  unfold nativePieces nativeFrom
  split
  · simp [lineText, Piece.code, String.append_assoc]
  · simp [lineText, Piece.code, String.append_assoc]

theorem lineText_initial (config : Config) (nativeType : String) (ident : Ident)
    (initial : Initial) :
    lineText config (initial.pieces nativeType ident) = initial.expression nativeType ident := by
  cases initial <;>
    simp [Initial.pieces, Initial.expression, lineText_nativePieces, lineText, Piece.code,
      Variable.name]

theorem lineText_handed (config : Config) (ident : Ident) (handed : Handed) :
    lineText config (handed.pieces config ident) = handed.expression config ident := by
  cases handed <;>
    simp [Handed.pieces, Handed.expression, lineText, Piece.code, Variable.name,
      String.append_assoc]

theorem lineText_commaPieces (config : Config) (expressions : List Line) :
    lineText config (commaPieces expressions) =
      ", ".intercalate (expressions.map (lineText config)) := by
  induction expressions with
  | nil => rfl
  | cons first rest ih =>
    cases rest with
    | nil => simp [commaPieces]
    | cons second others =>
      rw [commaPieces_cons, lineText_append, lineText_append, ih]
      simp [lineText, Piece.code, String.append_assoc]

theorem lineText_compoundPieces (config : Config) (compound : Compound) :
    lineText config (compoundPieces config compound) = compound.expression config := by
  obtain ⟨constructor, arguments⟩ := compound
  cases constructor <;>
    simp [compoundPieces, Compound.expression, lineText_commaPieces, lineText, Piece.code,
      Variable.name, Function.comp_def, String.append_assoc]

theorem lineText_arguments (config : Config) (items : List Item) :
    (items.filterMap (argumentPieces? config)).map (lineText config) =
      callArguments config items := by
  rw [callArguments, List.map_filterMap]
  congr 1
  funext item
  cases item with
  | node n => cases n <;> simp [argumentPieces?, callArgument?, lineText, Piece.code, Variable.name]
  | compound c => simp [argumentPieces?, callArgument?, lineText_compoundPieces]

theorem lineText_result (config : Config) (result : Option Argument) :
    lineText config (resultPieces result) = resultDeclaration config result := by
  cases result <;>
    simp [resultPieces, resultDeclaration, lineText, Piece.code, Variable.name,
      String.append_assoc]

/-- The lines of a statement have the text of its code. -/
theorem lineTexts_steps (config : Config) (statement : Statement) :
    lineTexts (statement.steps config) = (statement.lines config).map (lineText config) := by
  cases statement <;>
    simp [Statement.steps, Statement.lines, lineTexts, Step.nested, Step.blank, lineText,
      Piece.code, Variable.name, lineText_initial, lineText_handed, lineText_result,
      lineText_commaPieces, lineText_arguments, callExpression, String.append_assoc]

/-- The lines of statements have the text of their code. -/
theorem lineTexts_code (config : Config) (statements : List Statement) :
    lineTexts (code config statements) = (lines config statements).map (lineText config) := by
  induction statements with
  | nil => rfl
  | cons statement rest ih =>
    have split : code config (statement :: rest) =
        statement.steps config ++ code config rest := rfl
    rw [split, lineTexts_append, lineTexts_steps, ih, lines_cons, List.map_append]

end Body
end OperatorGen
