/-!
# Usage of the command line

The grammar of the arguments (`Usage.parse`). Flags may stand in front of the subcommand or
behind it; behind it they may be mixed with files, and everything behind `--` is a file.
The value of a setting is the next argument, or it is attached. A value is looked at when
the next flag begins or the arguments end, so an unknown flag right behind a bad value is
the error that is reported.
-/
namespace OperatorGen

/-- Why arguments are no command; the last two are requests for help. -/
inductive UsageError where
  | invalidValue
  | missingRequired
  | unknownArgument
  | badNumber
  | repeatedArgument
  | unneededValue
  | invalidSubcommand
  | missingSubcommand
  | helpWithoutArguments
  | help
  deriving DecidableEq, Repr, Inhabited

def UsageError.message : UsageError → String
  | invalidValue => "a value is missing or empty"
  | missingRequired => "a required argument is missing"
  | unknownArgument => "an argument is not known here"
  | badNumber => "a value is not a number of spaces"
  | repeatedArgument => "an argument is given more than once"
  | unneededValue => "a flag is given a value"
  | invalidSubcommand => "the subcommand is not known"
  | missingSubcommand => "the subcommand is missing"
  | helpWithoutArguments | help =>
    "usage: [-v] generate <file>... -o <directory> [--preset <name>] [--indent <spaces>] | " ++
      "check <file> | show <file>"

inductive Command where
  | generate (files : List String) (output preset : String) (indent : Option UInt64)
  | check (file : String)
  | show (file : String)
  deriving DecidableEq, Repr, Inhabited

namespace Usage

/-! ## Flags -/

/-- What can stand behind dashes. -/
inductive Flag where
  | verbose
  | help
  | output
  | preset
  | indent
  deriving DecidableEq, Repr, Inhabited

namespace Flag

/-- Whether a flag is a setting, which needs a value. -/
def isSetting : Flag → Bool
  | output | preset | indent => true
  | _ => false

def ofLong? (name : String) : Option Flag :=
  match name with
  | "verbose" => some verbose
  | "help" => some help
  | "output" => some output
  | "preset" => some preset
  | "indent" => some indent
  | _ => none

def ofShort? (name : Char) : Option Flag :=
  match name with
  | 'v' => some verbose
  | 'h' => some help
  | 'o' => some output
  | _ => none

end Flag

/-- What a level of the command line accepts. -/
structure Level where
  settings : Bool
  /-- The number of files, if it is limited. -/
  fileLimit : Option Nat
  deriving DecidableEq, Repr, Inhabited

namespace Level

/-- A flag, if the level accepts it. -/
def accept (level : Level) (flag : Option Flag) : Option Flag :=
  flag.filter fun flag => level.settings || !flag.isSetting

/-- In front of the subcommand. -/
def root : Level := ⟨false, some 0⟩

/-- Behind a subcommand for one file. -/
def oneFile : Level := ⟨false, some 1⟩

/-- Behind the subcommand that generates. -/
def generate : Level := ⟨true, none⟩

end Level

/-! ## Drafts -/

/-- Values that have been read but not looked at yet, and what they are for. -/
inductive Pending where
  | setting (flag : Flag) (value : Option String)
  | files (paths : List String)
  deriving DecidableEq, Repr, Inhabited

/-- What has been read of a level. -/
structure Draft where
  verbose : Bool := false
  output : Option String := none
  preset : Option String := none
  indent : Option UInt64 := none
  files : List String := []
  pending : Option Pending := none
  /-- The last argument was a setting whose value comes next. -/
  awaiting : Bool := false
  /-- The number of files read, those that are pending included. -/
  fileCount : Nat := 0
  deriving DecidableEq, Repr, Inhabited

/-- The number that digits write, if it has at most 64 bits; a plus may stand in front. -/
def readWidth? (text : String) : Option UInt64 :=
  let digits :=
    match text.toList with
    | '+' :: rest => rest
    | chars => chars
  let value := digits.foldl (fun total c => 10 * total + (c.toNat - '0'.toNat)) 0
  if !digits.isEmpty && digits.all Char.isDigit && value < UInt64.size then some (UInt64.ofNat value)
  else none

namespace Draft

def setFlag (draft : Draft) : Flag → Except UsageError Draft
  | .verbose =>
    if draft.verbose then .error .repeatedArgument else .ok { draft with verbose := true }
  | _ => .error .help

def setValue (draft : Draft) (value : String) : Flag → Except UsageError Draft
  | .output =>
    if draft.output.isSome then .error .repeatedArgument
    else if value.isEmpty then .error .invalidValue
    else .ok { draft with output := some value }
  | .preset =>
    if draft.preset.isSome then .error .repeatedArgument
    else .ok { draft with preset := some value }
  | .indent =>
    if draft.indent.isSome then .error .repeatedArgument
    else
      match readWidth? value with
      | some width => .ok { draft with indent := some width }
      | none => .error .badNumber
  | _ => .ok draft

/-- Looks at the pending values. -/
def settle (draft : Draft) : Except UsageError Draft :=
  let settled := { draft with pending := none }
  match draft.pending with
  | none => .ok draft
  | some (.setting _ none) => .error .invalidValue
  | some (.setting flag (some value)) => settled.setValue value flag
  | some (.files paths) =>
    if paths.any String.isEmpty then .error .invalidValue
    else .ok { settled with files := settled.files ++ paths }

/-- Takes in a flag, which settles what is pending. -/
def takeFlag (draft : Draft) (flag : Flag) : Except UsageError Draft := do
  let settled ← draft.settle
  settled.setFlag flag

/-- Takes in a setting with a value that may be attached. -/
def takeSetting (draft : Draft) (flag : Flag) (attached : Option String) :
    Except UsageError Draft := do
  let settled ← draft.settle
  match attached with
  | some value => settled.setValue value flag
  | none => .ok { settled with pending := some (.setting flag none), awaiting := true }

/-- Takes in a value or a file behind no dashes. -/
def takeFile (level : Level) (draft : Draft) (path : String) : Except UsageError Draft :=
  if level.fileLimit.all fun limit => draft.fileCount < limit then do
    let (settled, paths) ←
      match draft.pending with
      | some (.files paths) => .ok (draft, paths)
      | _ => draft.settle.map fun settled => (settled, [])
    .ok { settled with
      pending := some (.files (paths ++ [path]))
      awaiting := false
      fileCount := settled.fileCount + 1 }
  else .error .unknownArgument

/-! ## Arguments -/

/-- A long flag: its name and the value behind an equals sign. -/
def splitLong (chars : List Char) : String × Option String :=
  let (name, rest) := chars.span (· ≠ '=')
  (String.ofList name, if rest.isEmpty then none else some (String.ofList (rest.drop 1)))

/-- Takes in a long flag, given without its dashes. -/
def takeLong (level : Level) (draft : Draft) (chars : List Char) : Except UsageError Draft :=
  let (name, attached) := splitLong chars
  match level.accept (Flag.ofLong? name) with
  | none => .error .unknownArgument
  | some flag =>
    if flag.isSetting then takeSetting draft flag attached
    else if attached.isSome then .error .unneededValue
    else draft.takeFlag flag

/-- The value attached to a short flag, which may begin with an equals sign. -/
def attachedShort : List Char → Option String
  | [] => none
  | '=' :: rest => some (String.ofList rest)
  | rest => some (String.ofList rest)

/-- Takes in short flags, given without their dash. A setting takes the rest as its value. -/
def takeShort (level : Level) (draft : Draft) : List Char → Except UsageError Draft
  | [] => .ok draft
  | c :: rest =>
    match level.accept (Flag.ofShort? c) with
    | none => .error .unknownArgument
    | some flag =>
      if flag.isSetting then draft.takeSetting flag (attachedShort rest)
      else do
        let next ← draft.takeFlag flag
        next.takeShort level rest

/-- Takes in an argument in front of which no `--` stands. -/
def takeArgument (level : Level) (draft : Draft) (argument : String) : Except UsageError Draft :=
  let draft' := { draft with awaiting := false }
  match argument.toList with
  | '-' :: '-' :: chars => takeLong level draft' chars
  | '-' :: c :: chars => takeShort level draft' (c :: chars)
  | _ =>
    match draft.awaiting, draft.pending with
    | true, some (.setting flag _) =>
      .ok { draft' with pending := some (.setting flag (some argument)) }
    | _, _ => takeFile level draft' argument

def takeFiles (level : Level) : Draft → List String → Except UsageError Draft
  | draft, [] => .ok draft
  | draft, path :: rest => do
    let next ← takeFile level draft path
    takeFiles level next rest

def takeAll (level : Level) : Draft → List String → Except UsageError Draft
  | draft, [] => .ok draft
  | draft, argument :: rest =>
    if argument = "--" then takeFiles level { draft with awaiting := false } rest
    else do
      let next ← takeArgument level draft argument
      takeAll level next rest

end Draft

/-! ## Subcommands -/

def readLevel (level : Level) (arguments : List String) : Except UsageError Draft := do
  let draft ← Draft.takeAll level {} arguments
  draft.settle

def parseGenerate (arguments : List String) : Except UsageError Command := do
  let draft ← readLevel .generate arguments
  match draft.files, draft.output with
  | _ :: _, some output =>
    .ok (.generate draft.files output (draft.preset.getD "opencv") draft.indent)
  | _, _ => .error .missingRequired

def parseOneFile (command : String → Command) (arguments : List String) :
    Except UsageError Command := do
  let draft ← readLevel .oneFile arguments
  match draft.files with
  | file :: _ => .ok (command file)
  | [] => .error .missingRequired

def subcommands : List (String × (List String → Except UsageError Command)) :=
  [("generate", parseGenerate), ("check", parseOneFile .check), ("show", parseOneFile .show)]

def subcommand? (name : String) : Option (List String → Except UsageError Command) :=
  (subcommands.find? fun entry => entry.1 = name).map Prod.snd

/-- Whether a name is that of a subcommand or asks for help. -/
def isSubcommand (name : String) : Bool :=
  name = "help" || (subcommand? name).isSome

/-- The arguments behind the request for help: at most the name of a subcommand. -/
def parseHelp : List String → UsageError
  | [] => .help
  | [name] => if isSubcommand name then .help else .invalidSubcommand
  | _ => .invalidSubcommand

/-- The end of the arguments in front of a subcommand. -/
def withoutSubcommand (draft : Draft) : UsageError :=
  if draft.verbose then .missingSubcommand else .helpWithoutArguments

/-- An argument behind `--` where a subcommand is missing. -/
def escapedSubcommand (draft : Draft) : List String → UsageError
  | [] => withoutSubcommand draft
  | name :: _ => if isSubcommand name then .unknownArgument else .invalidSubcommand

/-- The arguments in front of the subcommand, and those behind it. -/
def parseFrom : Draft → List String → Except UsageError Command
  | draft, [] => .error (withoutSubcommand draft)
  | draft, argument :: rest =>
    match subcommand? argument with
    | some parseRest => parseRest rest
    | none =>
      if argument = "help" then .error (parseHelp rest)
      else if argument = "--" then .error (escapedSubcommand draft rest)
      else
        match Draft.takeArgument .root draft argument with
        | .ok next => parseFrom next rest
        | .error reason =>
          if argument.startsWith "-" && argument ≠ "-" then .error reason
          else .error .invalidSubcommand

def parse (arguments : List String) : Except UsageError Command :=
  parseFrom {} arguments

end Usage
end OperatorGen
