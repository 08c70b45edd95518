import OperatorGen.Unicode.Property

/-!
# Identifiers

An identifier is written once, in camel case, and every other spelling is derived from it:
the class name, the enumerator (`constant`), the member name (`member`). Case is changed
for ASCII letters only. `isValid` says whether the spelling can stand in a source of the C
family as it is.
-/
namespace OperatorGen

/-- The name of a package, a method, an option or an argument, as its author spelled it. -/
structure Ident where
  text : String
  deriving DecidableEq, Repr, Inhabited

namespace Ident

/-! ## ASCII letters -/

/-- The upper case form of an ASCII lower case letter; any other character is kept. -/
def upperChar (c : Char) : Char :=
  if 'a' ≤ c ∧ c ≤ 'z' then Char.ofNat (c.toNat - 32) else c

/-- The lower case form of an ASCII upper case letter; any other character is kept. -/
def lowerChar (c : Char) : Char :=
  if 'A' ≤ c ∧ c ≤ 'Z' then Char.ofNat (c.toNat + 32) else c

/-- An ASCII upper case letter or digit: the characters that open a word of their own. -/
def opensWord (c : Char) : Bool :=
  ('A' ≤ c && c ≤ 'Z') || ('0' ≤ c && c ≤ '9')

/-! ## Derived spellings -/

/-- The class form of a spelling: its first letter in upper case. -/
def classChars : List Char → List Char
  | [] => []
  | first :: rest => upperChar first :: rest

/-- `srcPos` becomes `SrcPos`. -/
def className (ident : Ident) : String :=
  String.ofList (classChars ident.text.toList)

/-- The upper case form of a character, set off by an underscore where a word begins. -/
def constantPiece (c : Char) : List Char :=
  if opensWord c then ['_', upperChar c] else [upperChar c]

/-- A spelling without the underscores it begins with. -/
def dropUnderscores (chars : List Char) : List Char :=
  chars.dropWhile (· == '_')

def trimUnderscores (chars : List Char) : List Char :=
  (dropUnderscores (dropUnderscores chars).reverse).reverse

def constantChars (chars : List Char) : List Char :=
  trimUnderscores (chars.flatMap constantPiece)

/-- Upper snake case: `srcPos` becomes `SRC_POS`. Every upper case letter and every digit
    is a word of its own, so `ksize12` becomes `KSIZE_1_2`. -/
def constant (ident : Ident) : String :=
  String.ofList (constantChars ident.text.toList)

/-- The function form, which is the spelling itself. -/
def method (ident : Ident) : String :=
  ident.text

/-- The member form: `srcPos` becomes `m_srcPos`. -/
def member (ident : Ident) : String :=
  "m_" ++ ident.method

/-- Every ASCII letter in upper case. -/
def upper (ident : Ident) : String :=
  String.ofList (ident.text.toList.map upperChar)

/-- Every ASCII letter in lower case. -/
def lower (ident : Ident) : String :=
  String.ofList (ident.text.toList.map lowerChar)

/-! ## Validity and order -/

/-- Whether characters form an identifier: XID_Start or an underscore, then XID_Continue. -/
def validChars : List Char → Bool
  | [] => false
  | first :: rest =>
    (first == '_' || Unicode.isIdentifierStart first) && rest.all Unicode.isIdentifierContinue

/-- Whether the spelling can stand in a source of the C family as it is. -/
def isValid (ident : Ident) : Bool :=
  validChars ident.text.toList

/-- The order of code points, which is also the order of the UTF-8 bytes. -/
def order (a b : Ident) : Ordering :=
  compareOfLessAndEq a.text b.text

instance : ToString Ident where
  toString ident := ident.text

end Ident
end OperatorGen
