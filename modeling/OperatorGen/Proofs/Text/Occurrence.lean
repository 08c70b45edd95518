import Mathlib.Data.List.Infix
import OperatorGen.Proofs.Document

/-!
# Words in texts

A word occurs in a text if its characters stand there in a row (`Occurs`). In a text that is
put together from pieces a word may begin in one piece and end in another. A piece keeps
its neighbours apart (`Separates`) if no end of the word begins it, no beginning of the word
ends it, and it is no part of the word; then a word that is in none of the pieces is not in
the whole text either. Lines are kept apart by their ends: a word occurs in a document if
it occurs in a line of it (`occurs_render_iff`).
-/
namespace OperatorGen

/-- A word stands somewhere in a text. -/
def Occurs (word text : String) : Prop :=
  word.toList <:+: text.toList

instance (word text : String) : Decidable (Occurs word text) :=
  inferInstanceAs (Decidable (_ <:+: _))

def Lacks (word text : String) : Prop :=
  ¬ Occurs word text

instance (word text : String) : Decidable (Lacks word text) :=
  inferInstanceAs (Decidable (¬ _))

theorem lacks_ofList {word : String} {chars : List Char} :
    Lacks word (String.ofList chars) ↔ ¬ word.toList <:+: chars := by
  rw [Lacks, Occurs, String.toList_ofList]

/-! ## Pieces -/

section Pieces

variable {word text first second : List Char}

/-- No end of a word, but for the whole word, begins a text. -/
def ClosedFront (word text : List Char) : Prop :=
  ∀ n < word.length, 0 < n → ¬ word.drop n <+: text

instance : Decidable (ClosedFront word text) :=
  inferInstanceAs (Decidable (∀ n < word.length, 0 < n → ¬ word.drop n <+: text))

/-- No beginning of a word, but for the whole word, ends a text. -/
def ClosedBack (word text : List Char) : Prop :=
  ∀ n < word.length, 0 < n → ¬ word.take n <:+ text

instance : Decidable (ClosedBack word text) :=
  inferInstanceAs (Decidable (∀ n < word.length, 0 < n → ¬ word.take n <:+ text))

/-- A text that a word is not in, and that no word can cross or share with its neighbours. -/
def Separates (word text : List Char) : Prop :=
  ¬ word <:+: text ∧ ClosedFront word text ∧ ClosedBack word text ∧ ¬ text <:+: word

instance : Decidable (Separates word text) :=
  inferInstanceAs (Decidable (_ ∧ _))

/-- The two pieces of a word are not empty, or one of them is the whole word. -/
theorem proper_or_whole {front back : List Char} (same : word = front ++ back) :
    word = front ∨ word = back ∨
      (0 < front.length ∧ front.length < word.length ∧ word.take front.length = front ∧
        word.drop front.length = back) := by
  subst same
  by_cases noFront : front = []
  · exact .inr (.inl (by rw [noFront, List.nil_append]))
  · by_cases noBack : back = []
    · exact .inl (by rw [noBack, List.append_nil])
    · have longer := List.length_pos_iff.mpr noBack
      refine .inr (.inr ⟨List.length_pos_iff.mpr noFront, ?_, List.take_left, List.drop_left⟩)
      rw [List.length_append]
      omega

theorem infix_append_of_closedFront (closed : ClosedFront word second) :
    word <:+: first ++ second ↔ word <:+: first ∨ word <:+: second := by
  rw [List.infix_append_iff, ← or_assoc]
  refine or_iff_left_of_imp ?_
  rintro ⟨front, back, same, ends, begins⟩
  rcases proper_or_whole same with rfl | rfl | ⟨some, short, -, rest⟩
  · exact .inl ends.isInfix
  · exact .inr begins.isInfix
  · exact absurd (rest.symm ▸ begins) (closed _ short some)

theorem infix_append_of_closedBack (closed : ClosedBack word first) :
    word <:+: first ++ second ↔ word <:+: first ∨ word <:+: second := by
  rw [List.infix_append_iff, ← or_assoc]
  refine or_iff_left_of_imp ?_
  rintro ⟨front, back, same, ends, begins⟩
  rcases proper_or_whole same with rfl | rfl | ⟨some, short, start, -⟩
  · exact .inl ends.isInfix
  · exact .inr begins.isInfix
  · exact absurd (start.symm ▸ ends) (closed _ short some)

theorem infix_separated (separates : Separates word text) :
    word <:+: first ++ text ++ second ↔ word <:+: first ∨ word <:+: second := by
  obtain ⟨lacks, closedFront, closedBack, outside⟩ := separates
  rw [List.infix_append_iff, infix_append_of_closedFront closedFront, or_iff_left lacks,
    ← or_assoc]
  refine or_iff_left_of_imp ?_
  rintro ⟨front, back, same, ends, begins⟩
  rcases List.suffix_or_suffix_of_suffix ends (List.suffix_append first text) with inText | around
  · -- The word begins in the piece between.
    rcases proper_or_whole same with rfl | rfl | ⟨some, short, start, -⟩
    · exact absurd inText.isInfix lacks
    · exact .inr begins.isInfix
    · exact absurd (start.symm ▸ inText) (closedBack _ short some)
  · -- The word begins in front of the piece between and ends behind it.
    have inWord : text <:+: word := same ▸ around.isInfix.trans (List.prefix_append _ _).isInfix
    exact absurd inWord outside

/-- A character that is not in a word keeps two texts apart. -/
theorem infix_append_cons_iff {c : Char} (foreign : c ∉ word) :
    word <:+: first ++ c :: second ↔ word <:+: first ∨ word <:+: second := by
  rw [List.infix_append_iff, List.infix_cons_iff]
  constructor
  · rintro (inFirst | (begins | inSecond) | ⟨front, back, same, ends, begins⟩)
    · exact .inl inFirst
    · rcases List.prefix_cons_iff.mp begins with rfl | ⟨rest, rfl, -⟩
      · exact .inl List.nil_infix
      · exact absurd List.mem_cons_self foreign
    · exact .inr inSecond
    · rcases List.prefix_cons_iff.mp begins with rfl | ⟨rest, rfl, -⟩
      · rw [List.append_nil] at same
        exact .inl (same ▸ ends.isInfix)
      · exact absurd (same ▸ List.mem_append_right _ List.mem_cons_self) foreign
  · rintro (inFirst | inSecond)
    · exact .inl inFirst
    · exact .inr (.inl (.inr inSecond))

end Pieces

namespace Lacks

variable {word piece : List Char} {first second : String}

theorem literal (check : decide (¬ word <:+: piece) = true) :
    Lacks (String.ofList word) (String.ofList piece) := by
  rw [Lacks, Occurs, String.toList_ofList, String.toList_ofList]
  exact of_decide_eq_true check

/-- A literal in front of a text. -/
theorem behind (check : decide (¬ word <:+: piece ∧ ClosedBack word piece) = true)
    (lacks : Lacks (String.ofList word) second) :
    Lacks (String.ofList word) (String.ofList piece ++ second) := by
  obtain ⟨none, closed⟩ := of_decide_eq_true check
  rw [Lacks, Occurs, String.toList_ofList] at lacks ⊢
  rw [String.toList_append, String.toList_ofList, infix_append_of_closedBack closed, not_or]
  exact ⟨none, lacks⟩

/-- A text in front of a literal. -/
theorem before (lacks : Lacks (String.ofList word) first)
    (check : decide (¬ word <:+: piece ∧ ClosedFront word piece) = true) :
    Lacks (String.ofList word) (first ++ String.ofList piece) := by
  obtain ⟨none, closed⟩ := of_decide_eq_true check
  rw [Lacks, Occurs, String.toList_ofList] at lacks ⊢
  rw [String.toList_append, String.toList_ofList, infix_append_of_closedFront closed, not_or]
  exact ⟨lacks, none⟩

/-- Two texts with a literal between them. -/
theorem around (lacks : Lacks (String.ofList word) first)
    (check : decide (Separates word piece) = true)
    (others : Lacks (String.ofList word) second) :
    Lacks (String.ofList word) (first ++ String.ofList piece ++ second) := by
  rw [Lacks, Occurs, String.toList_ofList] at lacks others ⊢
  rw [String.toList_append, String.toList_append, String.toList_ofList,
    infix_separated (of_decide_eq_true check), not_or]
  exact ⟨lacks, others⟩

end Lacks

/-- A text without a character of a word lacks the word. -/
theorem lacks_of_not_mem {word text : String} {c : Char} (inWord : c ∈ word.toList)
    (none : c ∉ text.toList) : Lacks word text :=
  fun occurs => none (occurs.subset inWord)

/-- A text that lacks a part of a word lacks the word. -/
theorem Lacks.of_part {part word text : String} (isPart : Occurs part word)
    (lacks : Lacks part text) : Lacks word text :=
  fun occurs => lacks (isPart.trans occurs)

theorem Lacks.of_subtext {word : String} {part text : List Char} (isPart : part <:+: text)
    (lacks : Lacks word (String.ofList text)) : Lacks word (String.ofList part) := by
  rw [lacks_ofList] at lacks ⊢
  exact fun occurs => lacks (occurs.trans isPart)

/-- Texts with a separator between them that keeps them apart. -/
theorem Lacks.intercalate {word piece : List Char} {texts : List String}
    (check : decide (Separates word piece) = true)
    (lacks : ∀ text ∈ texts, Lacks (String.ofList word) text) (some : word ≠ []) :
    Lacks (String.ofList word) ((String.ofList piece).intercalate texts) := by
  have separates : Separates word piece := of_decide_eq_true check
  rw [Lacks, Occurs, String.toList_ofList, String.toList_intercalate, String.toList_ofList]
  induction texts with
  | nil => simpa using some
  | cons first rest ih =>
    rw [List.forall_mem_cons, Lacks, Occurs, String.toList_ofList] at lacks
    cases rest with
    | nil => simpa using lacks.1
    | cons second others =>
      rw [List.map_cons, List.map_cons, List.intercalate_cons_cons, infix_separated separates,
        not_or]
      exact ⟨lacks.1, ih lacks.2⟩

theorem Occurs.intercalate {word separator text : String} {texts : List String}
    (occurs : Occurs word text) (member : text ∈ texts) :
    Occurs word (separator.intercalate texts) := by
  rw [Occurs, String.toList_intercalate]
  induction texts with
  | nil => cases member
  | cons first rest ih =>
    cases rest with
    | nil =>
      obtain rfl := List.mem_singleton.mp member
      simpa [Occurs] using occurs
    | cons second others =>
      rw [List.map_cons, List.map_cons, List.intercalate_cons_cons]
      rcases List.mem_cons.mp member with rfl | later
      · exact occurs.trans (List.append_assoc .. ▸ (List.prefix_append _ _).isInfix)
      · exact (ih later).trans (List.suffix_append _ _).isInfix

theorem Occurs.before {word first : String} (occurs : Occurs word first) (second : String) :
    Occurs word (first ++ second) := by
  rw [Occurs, String.toList_append]
  exact occurs.trans (List.prefix_append _ _).isInfix

theorem Occurs.behind {word second : String} (first : String) (occurs : Occurs word second) :
    Occurs word (first ++ second) := by
  rw [Occurs, String.toList_append]
  exact occurs.trans (List.suffix_append _ _).isInfix

/-! ## Escapes -/

section Escapes

variable {escape : Char → List Char} (escaped : ∀ c, escape c = [c] ∨ escape c = ['\\', c])
  {word : List Char}
include escaped

/-- A word without backslashes that begins an escaped text begins the text itself. -/
theorem prefix_of_prefix_escaped {part text : List Char} (plain : '\\' ∉ part)
    (begins : part <+: text.flatMap escape) : part <+: text := by
  induction text generalizing part with
  | nil => exact begins
  | cons c rest ih =>
    rw [List.flatMap_cons] at begins
    rcases part with _ | ⟨d, others⟩
    · exact List.nil_prefix
    · rw [List.mem_cons, not_or] at plain
      rcases escaped c with same | same
      · rw [same, List.singleton_append, List.cons_prefix_cons] at begins
        exact List.cons_prefix_cons.mpr ⟨begins.1, ih plain.2 begins.2⟩
      · rw [same, List.cons_append, List.cons_prefix_cons] at begins
        exact absurd begins.1.symm plain.1

theorem infix_of_infix_escaped {text : List Char} (plain : '\\' ∉ word)
    (inside : word <:+: text.flatMap escape) : word <:+: text := by
  induction text with
  | nil => exact inside
  | cons c rest ih =>
    -- The word has no backslash, so it begins at an escaped character itself or behind it.
    have begins (starts : word <+: c :: rest.flatMap escape) : word <+: c :: rest := by
      rcases word with _ | ⟨d, others⟩
      · exact List.nil_prefix
      · rw [List.cons_prefix_cons] at starts
        rw [List.mem_cons, not_or] at plain
        exact List.cons_prefix_cons.mpr
          ⟨starts.1, prefix_of_prefix_escaped escaped plain.2 starts.2⟩
    have step (within : word <:+: c :: rest.flatMap escape) : word <:+: c :: rest := by
      rcases List.infix_cons_iff.mp within with starts | later
      · exact (begins starts).isInfix
      · exact List.infix_cons (ih later)
    rw [List.flatMap_cons] at inside
    rcases escaped c with same | same
    · rw [same] at inside
      exact step inside
    · rw [same, List.cons_append] at inside
      rcases List.infix_cons_iff.mp inside with starts | later
      · rcases word with _ | ⟨d, others⟩
        · exact List.nil_infix
        · rw [List.cons_prefix_cons] at starts
          exact absurd (starts.1 ▸ List.mem_cons_self) plain
      · exact step later

end Escapes

/-! ## Lines -/

/-- The characters that a document puts between and around its lines. -/
def layoutChars : List Char :=
  [' ', '\n', '\x7b', '\x7d']

/-- Characters in a row that neither end a line nor are blanks or braces. -/
def IsWord (word : String) : Prop :=
  word ≠ "" ∧ word.toList.all (fun c => !layoutChars.contains c) = true

instance (word : String) : Decidable (IsWord word) :=
  inferInstanceAs (Decidable (_ ∧ _))

namespace IsWord

variable {word : String}

theorem toList_ne_nil (isWord : IsWord word) : word.toList ≠ [] :=
  fun empty => isWord.1 (String.toList_eq_nil_iff.mp empty)

theorem not_mem (isWord : IsWord word) {c : Char} (layout : layoutChars.contains c = true) :
    c ∉ word.toList := by
  intro member
  have other := List.all_eq_true.mp isWord.2 c member
  rw [layout] at other
  cases other

end IsWord

/-- No line of the steps has the word in it. -/
def Omits (word : String) (steps : List Step) : Prop :=
  ∀ text, .line text ∈ steps → Lacks word text

namespace Omits

variable {word : String} {steps others : List Step}

theorem nil : Omits word [] := by
  intro text member
  cases member

theorem append (omits : Omits word steps) (behind : Omits word others) :
    Omits word (steps ++ others) := by
  intro text member
  rcases List.mem_append.mp member with front | back
  · exact omits text front
  · exact behind text back

theorem line {text : String} (lacks : Lacks word text) : Omits word [.line text] := by
  intro other member
  rw [Step.line.inj (List.mem_singleton.mp member)]
  exact lacks

theorem cons {text : String} (lacks : Lacks word text) (omits : Omits word steps) :
    Omits word (.line text :: steps) :=
  .append (.line lacks) omits

theorem nested (omits : Omits word steps) : Omits word (Step.nested steps) := by
  intro text member
  simp only [Step.nested, List.mem_append, List.mem_singleton, reduceCtorEq, false_or,
    or_false] at member
  exact omits text member

theorem flatMap {α : Type} {list : List α} {make : α → List Step}
    (each : ∀ x ∈ list, Omits word (make x)) : Omits word (list.flatMap make) := by
  intro text member
  obtain ⟨x, inList, inSteps⟩ := List.mem_flatMap.mp member
  exact each x inList text inSteps

theorem map {α : Type} {list : List α} {make : α → String}
    (each : ∀ x ∈ list, Lacks word (make x)) : Omits word (list.map fun x => .line (make x)) := by
  intro text member
  obtain ⟨x, inList, same⟩ := List.mem_map.mp member
  rw [← Step.line.inj same]
  exact each x inList

theorem of_part {part : String} (isPart : Occurs part word) (omits : Omits part steps) :
    Omits word steps := fun text member =>
  (omits text member).of_part isPart

theorem scope (isWord : IsWord word) (omits : Omits word steps) :
    Omits word (Step.scope steps) := by
  have brace {c : Char} (layout : layoutChars.contains c = true) :
      Lacks word (String.ofList [c]) := by
    rw [lacks_ofList]
    intro inside
    obtain ⟨d, member⟩ := List.exists_mem_of_ne_nil _ isWord.toList_ne_nil
    obtain rfl := List.mem_singleton.mp (inside.subset member)
    exact isWord.not_mem layout member
  exact .append (.append (.line (brace (by decide))) (.nested omits)) (.line (brace (by decide)))

end Omits

/-! ## Bytes -/

/-- The bytes of a text. Unlike its characters they can be evaluated for the lines of a whole
    file. -/
def bytes (text : String) : List UInt8 :=
  text.toByteArray.data.toList

theorem bytes_eq (text : String) : bytes text = text.toList.flatMap String.utf8EncodeChar := by
  obtain ⟨chars, rfl⟩ : ∃ chars, text = String.ofList chars := ⟨text.toList, by simp⟩
  simp [bytes, List.utf8Encode]

/-- Where a word occurs, its bytes stand in a row too. -/
theorem Occurs.bytes_infix {word text : String} (occurs : Occurs word text) :
    bytes word <:+: bytes text := by
  obtain ⟨front, behind, same⟩ := occurs
  rw [bytes_eq, bytes_eq, ← same, List.flatMap_append, List.flatMap_append]
  exact List.infix_append _ _ _

/-- Whether no line of the steps has the bytes of the word in it. -/
def omitsBytes (word : String) (steps : List Step) : Bool :=
  steps.all fun
    | .line text => ¬ bytes word <:+: bytes text
    | _ => true

theorem omits_of_bytes {word : String} {steps : List Step}
    (check : omitsBytes word steps = true) : Omits word steps := by
  intro text member occurs
  have none := List.all_eq_true.mp check _ member
  exact of_decide_eq_true none occurs.bytes_infix

/-! ## Documents -/

/-- A word occurs in a document exactly if it occurs in a line. -/
theorem occurs_render_iff {word : String} (isWord : IsWord word) {indentWidth : UInt64}
    {steps : List Step} :
    Occurs word (Document.render indentWidth steps) ↔
      ∃ text, .line text ∈ steps ∧ Occurs word text := by
  -- The blanks that indent a line are in no word.
  have blanks (count : Nat) (text : List Char) :
      word.toList <:+: List.replicate count ' ' ++ text ↔ word.toList <:+: text := by
    induction count with
    | zero => rfl
    | succ n ih =>
      have front := @infix_append_cons_iff word.toList [] (List.replicate n ' ' ++ text) ' '
        (isWord.not_mem (by decide))
      rw [List.nil_append, List.infix_nil, or_iff_right isWord.toList_ne_nil] at front
      rw [List.replicate_succ, List.cons_append, front, ih]
  rw [Document.render_eq]
  generalize 0 = level
  induction steps generalizing level with
  | nil => simpa [Occurs, Step.layOut] using isWord.toList_ne_nil
  | cons step rest ih =>
    have later := ih (step.levelAfter level)
    cases step with
    | line text =>
      rw [Occurs, Step.layOut, String.toList_append, Step.toList_text_line, List.append_assoc,
        List.singleton_append, infix_append_cons_iff (isWord.not_mem (by decide)), blanks]
      refine (or_congr_right later).trans ?_
      simp only [List.mem_cons, Step.line.injEq, or_and_right, exists_or, exists_eq_left]
      rfl
    | indent => simpa [Step.layOut, Step.text] using later
    | dedent => simpa [Step.layOut, Step.text] using later

end OperatorGen
