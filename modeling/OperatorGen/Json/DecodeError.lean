import OperatorGen.Json.Value
import OperatorGen.Text.Diagnostic

/-!
# Errors of decoding

Why a text is not the record that a decoder wants: the text is faulty, or a value is not
what the decoder can take. Each constructor is one cause, and `message` puts it into words.
-/
namespace OperatorGen.Json

/-- What a decoder can take in the place of a value. -/
inductive Wanted where
  | text
  | boolean
  | list
  | word
  | unit
  | record (name : String)
  | tagged (name : String)
  | variantName
  | variantIndex (count : Nat)
  | textOrObject
  | singleMember
  | recordOf (name : String) (count : Nat)
  | listOf (count : Nat)
  deriving DecidableEq, Repr, Inhabited

def Wanted.message : Wanted → String
  | text => "a string"
  | boolean => "a boolean"
  | list => "a sequence"
  | word => "u32"
  | unit => "unit"
  | record name => "struct " ++ name
  | tagged name => "internally tagged enum " ++ name
  | variantName => "variant identifier"
  | variantIndex count => "variant index 0 <= i < " ++ toString count
  | textOrObject => "string or map"
  | singleMember => "map with a single key"
  | recordOf name count => "struct " ++ name ++ " with " ++ toString count ++ " elements"
  | listOf count => toString count ++ " elements in sequence"

def Found.message : Found → String
  | null => "null"
  | boolean value => "boolean `" ++ toString value ++ "`"
  | number (.integer value) => "integer `" ++ toString value ++ "`"
  | number (.real negative units) =>
    "floating point `" ++ Binary64.finiteText negative units ++ "`"
  | text value => "string " ++ Diagnostic.quote value
  | list => "sequence"
  | object => "map"

/-- Why a text is not what a decoder wants. -/
inductive DecodeError where
  | fault (fault : Fault)
  | wrongType (found : Found) (wanted : Wanted)
  | wrongValue (found : Found) (wanted : Wanted)
  | wrongLength (length : Nat) (wanted : Wanted)
  | missingField (name : String)
  | duplicateField (name : String)
  | unknownVariant (name : String) (known : List String)
  deriving DecidableEq, Repr, Inhabited

namespace DecodeError

/-- A name in backquotes. -/
def quoteName (name : String) : String :=
  "`" ++ name ++ "`"

/-- The known names, of which there are at least two. -/
def choiceMessage : List String → String
  | [first, second] => quoteName first ++ " or " ++ quoteName second
  | names => "one of " ++ ", ".intercalate (names.map quoteName)

def message : DecodeError → String
  | fault reason => reason.message
  | wrongType found wanted => "invalid type: " ++ found.message ++ ", expected " ++ wanted.message
  | wrongValue found wanted => "invalid value: " ++ found.message ++ ", expected " ++ wanted.message
  | wrongLength length wanted =>
    "invalid length " ++ toString length ++ ", expected " ++ wanted.message
  | missingField name => "missing field " ++ quoteName name
  | duplicateField name => "duplicate field " ++ quoteName name
  | unknownVariant name known =>
    "unknown variant " ++ quoteName name ++ ", expected " ++ choiceMessage known

end DecodeError
end OperatorGen.Json
