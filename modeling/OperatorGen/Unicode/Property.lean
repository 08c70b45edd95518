import OperatorGen.Unicode.IdentifierStart
import OperatorGen.Unicode.IdentifierContinue
import OperatorGen.Unicode.GraphemeExtend
import OperatorGen.Unicode.Unprintable

/-!
# Character properties

The questions asked of the tables: may a character begin or continue an identifier
(XID_Start and XID_Continue), and does it have a glyph that can be shown by itself.
Every character that may begin an identifier may also continue one, because the
second table only holds what the first leaves out (`isIdentifierContinue_of_start`).

The tables for identifiers follow a later edition of the standard than those for glyphs:
a letter of that edition alone, such as U+0558, may begin an identifier and has no glyph yet.
-/
namespace OperatorGen.Unicode

/-- Whether a code point lies in one of the inclusive ranges. -/
def inRanges (ranges : List (Nat × Nat)) (code : Nat) : Bool :=
  ranges.any fun range => range.1 ≤ code && code ≤ range.2

/-- XID_Start. -/
def isIdentifierStart (c : Char) : Bool :=
  inRanges startRanges c.toNat

/-- XID_Continue. -/
def isIdentifierContinue (c : Char) : Bool :=
  inRanges startRanges c.toNat || inRanges continueRanges c.toNat

/-- The Hangul fillers, which are letters that take up room and show nothing. -/
def fillerRanges : List (Nat × Nat) :=
  [(0x115F, 0x1160), (0x3164, 0x3164), (0xFFA0, 0xFFA0)]

/-- The halfwidth sound marks of Katakana, which extend a grapheme and yet have a width of
    their own. -/
def soundMarkRanges : List (Nat × Nat) :=
  [(0xFF9E, 0xFF9F)]

/-- A character that attaches to the one before it and so does not stand by itself. -/
def isAttached (c : Char) : Bool :=
  inRanges extendRanges c.toNat && !inRanges soundMarkRanges c.toNat

/-- A character that can be shown by itself: it has a glyph, which is not empty, and it does
    not attach to the character before it. -/
def isVisible (c : Char) : Bool :=
  !(isAttached c || inRanges fillerRanges c.toNat || inRanges unprintableRanges c.toNat)

theorem isIdentifierContinue_of_start {c : Char} (start : isIdentifierStart c = true) :
    isIdentifierContinue c = true := by
  unfold isIdentifierStart at start
  simp [isIdentifierContinue, start]

end OperatorGen.Unicode
