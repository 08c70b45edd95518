import OperatorGen.Ident

/-!
# Conventions of the emitted code

How wide an indentation level is, and how the names that the code shares with its libraries
are spelled. A preset is a named set of conventions.
-/
namespace OperatorGen

/-- Naming and layout of the emitted code. -/
structure Config where
  /-- Spaces per indentation level. -/
  indentWidth : UInt64
  /-- The native type that a size is built with. -/
  sizeType : String
  /-- What turns an argument into its native variable. -/
  dataSuffix : String
  /-- The namespace of the wrapper's runtime. -/
  runtimeNamespace : String
  deriving DecidableEq, Repr

namespace Config

/-- The conventions for the OpenCV library. -/
def opencv : Config :=
  ⟨4, "cv::Size", "CvData", "runtime"⟩

/-- The conventions for a library with sizes of its own. -/
def generic : Config :=
  { opencv with sizeType := "NativeSize" }

instance : Inhabited Config := ⟨opencv⟩

/-- The conventions where none are asked for. -/
def standard : Config := opencv

def presets : List (String × Config) :=
  [("opencv", opencv), ("generic", generic)]

def presetNames : List String :=
  presets.map Prod.fst

def preset? (name : String) : Option Config :=
  (presets.find? fun entry => entry.1 = name).map Prod.snd

/-- The native variable of an argument: `src` becomes `srcCvData`. -/
def dataName (config : Config) (ident : Ident) : String :=
  ident.text ++ config.dataSuffix

/-- A name of the runtime: `Enum` becomes `runtime::Enum`. -/
def runtime (config : Config) (name : String) : String :=
  config.runtimeNamespace ++ "::" ++ name

end Config
end OperatorGen
