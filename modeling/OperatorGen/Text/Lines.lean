/-!
# Lines of a text

A line ends at a line feed, and one carriage return right before it belongs to the line
end. A text that ends with a line feed has no empty line after it.
-/
namespace OperatorGen.Lines

/-- A line, given backwards, without the carriage return that belongs to its end. -/
def dropReturn : List Char → List Char
  | '\r' :: line => line
  | line => line

/-- The lines of characters, the first of which has begun with others, given backwards. -/
def splitFrom (begun : List Char) : List Char → List (List Char)
  | [] => if begun.isEmpty then [] else [begun.reverse]
  | '\n' :: rest => (dropReturn begun).reverse :: splitFrom [] rest
  | c :: rest => splitFrom (c :: begun) rest

def split (text : String) : List String :=
  (splitFrom [] text.toList).map String.ofList

end OperatorGen.Lines
