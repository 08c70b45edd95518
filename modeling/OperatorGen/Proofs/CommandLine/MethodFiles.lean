import OperatorGen.Proofs.CommandLine.Generation
import OperatorGen.Proofs.Emission.Files
import OperatorGen.Proofs.Ident
import OperatorGen.Proofs.Validation.Validity

/-!
# The files of methods

The file of a method is named for its package and its class. Methods may share a file:
validation compares neither the idents of packages nor those of methods, and a class name
forgets the case of the first letter (`shared_file_accepted`). The last of the methods that
share a file is in it in the end, so every method has a file of its own text exactly if
methods that share a file have the same text (`emit_files`).
-/
namespace OperatorGen

/-! ## Names of files -/

namespace Ident

theorem isName_of_isValid {ident : Ident} (valid : ident.isValid = true) :
    Path.IsName ident.text where
  plain := not_mem_of_isValid valid (by decide +kernel)
  some := by
    intro empty
    simp [isValid, empty, validChars] at valid
  point := by
    intro same
    exact not_mem_of_isValid valid (c := '.') (by decide +kernel) (by simp [same])
  forward := by
    intro same
    exact not_mem_of_isValid valid (c := '.') (by decide +kernel) (by simp [same])

theorem isName_sourceFile {ident : Ident} (valid : ident.isValid = true) :
    Path.IsName (ident.className ++ ".cpp") := by
  have long : ∀ other : String, other.length < 4 → ident.className ++ ".cpp" ≠ other := by
    intro other short same
    have lengths := congrArg String.length same
    have ending : ".cpp".length = 4 := rfl
    rw [String.length_append] at lengths
    omega
  refine ⟨?_, long _ (by decide), long _ (by decide), long _ (by decide)⟩
  rw [String.toList_append, List.mem_append, not_or]
  exact ⟨not_mem_className (isName_of_isValid valid).plain (by decide), by decide⟩

end Ident

namespace Generation

/-! ## Shared files -/

/-- The path of the file of a method. -/
def sourcePath (output : String) (operator : Package × Method) : String :=
  Path.join output
    (operator.1.ident.text ++ "/" ++ (operator.2.ident.className ++ ".cpp"))

/-- The file of a method holds the text of the method. -/
def HoldsText (config : Config) (output : String) (tree : FileTree)
    (operator : Package × Method) : Prop :=
  ∃ text, Emission.renderMethod config operator.1 operator.2 = .ok text ∧
    tree.read (sourcePath output operator) = .ok text

/-- Two methods have the same file. -/
def SharesFile (first second : Package × Method) : Prop :=
  first.1.ident = second.1.ident ∧ first.2.ident.className = second.2.ident.className

/-- The idents that the path of a file is made of are valid. -/
def Named (operator : Package × Method) : Prop :=
  operator.1.ident.isValid = true ∧ operator.2.ident.isValid = true

variable {operator other : Package × Method} {config : Config} {output : String}
  {tree after : FileTree} {packages : List Package}

theorem named_of_valid (valid : ∀ package ∈ packages, Validation.problems package = [])
    (member : operator ∈ Emission.operators packages) : Named operator := by
  obtain ⟨inPackages, inMethods⟩ := Emission.mem_operators.mp member
  have whole := Validation.problems_eq_nil_iff.mp (valid operator.1 inPackages)
  exact ⟨whole.ident, (whole.methods operator.2 inMethods).ident⟩

theorem sourcePath_eq_of_shares (shared : SharesFile operator other) :
    sourcePath output operator = sourcePath output other := by
  rw [sourcePath, sourcePath, shared.1, shared.2]

theorem path_of_renders {file : Emission.File} (named : Named operator)
    (renders : Emission.Renders config operator file) :
    (file.under output).path = sourcePath output operator := by
  rw [Emission.File.under, renders.1, Emission.filePath,
    Path.join_names (Ident.isName_of_isValid named.1) (Ident.isName_sourceFile named.2), sourcePath]

/-- Files of methods lie at the same place only if they are the same file. -/
theorem shares_of_placeOf (named : Named operator) (named' : Named other)
    (same : tree.placeOf (sourcePath output operator) = tree.placeOf (sourcePath output other)) :
    SharesFile operator other := by
  rw [sourcePath, sourcePath,
    FileTree.placeOf_join_names (Ident.isName_of_isValid named.1) (Ident.isName_sourceFile named.2),
    FileTree.placeOf_join_names (Ident.isName_of_isValid named'.1)
      (Ident.isName_sourceFile named'.2)] at same
  have names := List.append_cancel_left same
  simp only [List.cons.injEq, and_true] at names
  refine ⟨congrArg Ident.mk names.1, ?_⟩
  have chars := congrArg String.toList names.2
  rw [String.toList_append, String.toList_append] at chars
  exact String.toList_inj.mp (List.append_cancel_right chars)

theorem wantsDirectory_sourcePath (named : Named operator) :
    Path.wantsDirectory (sourcePath output operator) = false := by
  rw [sourcePath, Path.wantsDirectory_join (Path.isAbsolute_names (Ident.isName_of_isValid named.1)),
    Path.wantsDirectory_append_slash]
  exact (Ident.isName_sourceFile named.2).wantsDirectory

/-! ## The last file -/

section
variable {α β : Type} {related : α → β → Prop} {list : List α} {images : List β}

theorem exists_related (all : List.Forall₂ related list images) {image : β}
    (member : image ∈ images) : ∃ x ∈ list, related x image := by
  induction all with
  | nil => cases member
  | cons head tail ih =>
    rcases List.mem_cons.mp member with rfl | later
    · exact ⟨_, .head _, head⟩
    · obtain ⟨x, member, belongs⟩ := ih later
      exact ⟨x, .tail _ member, belongs⟩

/-- The last element of a kind, with its image. -/
theorem exists_last {kind : α → Prop} (all : List.Forall₂ related list images)
    (some : ∃ x ∈ list, kind x) :
    ∃ front x rest front' image rest', list = front ++ x :: rest ∧ kind x ∧
      (∀ other ∈ rest, ¬ kind other) ∧ images = front' ++ image :: rest' ∧ related x image ∧
        List.Forall₂ related rest rest' := by
  induction all with
  | nil => simp at some
  | @cons first firstImage list images head tail ih =>
    by_cases later : ∃ x ∈ list, kind x
    · obtain ⟨front, x, rest, front', image, rest', split, isKind, others, split', belongs, below⟩ :=
        ih later
      exact ⟨first :: front, x, rest, firstImage :: front', image, rest', by rw [split]; rfl, isKind,
        others, by rw [split']; rfl, belongs, below⟩
    · -- All other elements are of another kind.
      have others : ∀ other ∈ list, ¬ kind other := fun other member isKind =>
        later ⟨other, member, isKind⟩
      obtain ⟨x, member, isKind⟩ := some
      rcases List.mem_cons.mp member with rfl | member
      · exact ⟨[], x, list, [], firstImage, images, rfl, isKind, others, rfl, head, tail⟩
      · exact absurd isKind (others x member)

end

/-- The last of the methods that have the file of a method. -/
def LastOf (packages : List Package) (operator last : Package × Method) : Prop :=
  ∃ front rest, Emission.operators packages = front ++ last :: rest ∧
    SharesFile operator last ∧ ∀ other ∈ rest, ¬ SharesFile operator other

theorem emit_ok (emitted : (emit FileTree.disk config output packages).run tree = (.ok (), after)) :
    ∃ files, List.Forall₂ (Emission.Renders config) (Emission.operators packages) files ∧
      FileTree.Changes (files.map (.under output)) (files.map (.under output)) tree after := by
  rcases rendered : Emission.renderPackages config packages with reason | files
  · rw [emit, rendered] at emitted
    cases congrArg Prod.fst emitted
  · have writes := writes_run output files tree
    rw [emit, rendered] at emitted
    simp only at emitted
    rw [emitted] at writes
    cases writes with
    | all changes => exact ⟨files, Emission.renderPackages_files rendered, changes⟩

/-- In the end a file holds the text of the last method that has it. -/
theorem read_last (valid : ∀ package ∈ packages, Validation.problems package = [])
    (emitted : (emit FileTree.disk config output packages).run tree = (.ok (), after))
    (member : operator ∈ Emission.operators packages) :
    ∃ last, LastOf packages operator last ∧ HoldsText config output after last := by
  obtain ⟨files, rendered, changes⟩ := emit_ok emitted
  have some : ∃ x ∈ Emission.operators packages, SharesFile operator x :=
    ⟨operator, member, rfl, rfl⟩
  obtain ⟨front, last, rest, front', file, rest', split, shared, others, split', renders, below⟩ :=
    exists_last rendered some
  refine ⟨last, ⟨front, rest, split, shared, others⟩, file.contents, renders.2, ?_⟩
  have named : ∀ other ∈ Emission.operators packages, Named other := fun other =>
    named_of_valid valid
  have ofLast : Named last := named last (by simp [split])
  have path : (file.under output).path = sourcePath output last := path_of_renders ofLast renders
  have written : files.map (Emission.File.under output) =
      front'.map (.under output) ++ file.under output :: rest'.map (.under output) := by
    rw [split', List.map_append, List.map_cons]
  have elsewhere : ∀ other ∈ rest'.map (Emission.File.under output),
      tree.placeOf other.path ≠ tree.placeOf (file.under output).path := by
    -- A later file at the same place would be one that a later method shares.
    intro other inRest same
    obtain ⟨later, member', rfl⟩ := List.mem_map.mp inRest
    obtain ⟨x, member, ofLater⟩ := exists_related below member'
    have ofX : Named x := named x (by simp [split, member])
    rw [path_of_renders ofX ofLater, path] at same
    have back : SharesFile x last := shares_of_placeOf ofX ofLast same
    exact others x member ⟨shared.1.trans back.1.symm, shared.2.trans back.2.symm⟩
  have resolved := changes.reached (file.under output) (by simp [written])
  have stored := changes.texts _ _ _ written elsewhere
  rw [path] at resolved stored
  exact FileTree.read_of_text resolved stored (wantsDirectory_sourcePath ofLast)

/-- A method without options that is shown under its ident. -/
def shownMethod (ident : String) : Method :=
  { ident := ⟨ident⟩, name := ident }

def pairPackage (first second : String) : Package where
  ident := ⟨"vision"⟩
  version := ⟨1, 0, 0⟩
  methods := [shownMethod first, shownMethod second]

theorem emitted_of_isOk (run : Except Error Unit × FileTree) (ok : run.1.isOk = true) :
    run = (.ok (), run.2) := by
  rcases run with ⟨reason | _, after⟩
  · cases ok
  · rfl

/-- A method need not keep its file: two methods of a valid package may have one class name,
    and the file of the first then holds the text of the second. -/
theorem shared_file_accepted :
    ¬ ∀ (config : Config) (output : String) (packages : List Package) (tree after : FileTree),
      (∀ package ∈ packages, Validation.problems package = []) →
        (emit FileTree.disk config output packages).run tree = (.ok (), after) →
          ∀ package ∈ packages, ∀ method ∈ package.methods,
            HoldsText config output after (package, method) := by
  intro kept
  have valid : ∀ package ∈ [pairPackage "blur" "Blur"], Validation.problems package = [] := by decide
  have emitted := emitted_of_isOk
    ((emit FileTree.disk .standard "out" [pairPackage "blur" "Blur"]).run ⟨[], []⟩) (by decide +kernel)
  have holds := kept .standard "out" _ _ _ valid emitted _ List.mem_cons_self
  obtain ⟨text, rendered, stored⟩ := holds (shownMethod "blur") List.mem_cons_self
  obtain ⟨text', rendered', stored'⟩ := holds (shownMethod "Blur") (.tail _ List.mem_cons_self)
  have shared : SharesFile (pairPackage "blur" "Blur", shownMethod "blur")
      (pairPackage "blur" "Blur", shownMethod "Blur") := ⟨rfl, by decide⟩
  rw [sourcePath_eq_of_shares shared, stored'] at stored
  obtain rfl : text' = text := Except.ok.inj stored
  have differ : Emission.renderMethod .standard (pairPackage "blur" "Blur") (shownMethod "blur") ≠
      Emission.renderMethod .standard (pairPackage "blur" "Blur") (shownMethod "Blur") := by
    decide +kernel
  exact differ (rendered.trans rendered'.symm)

/-- After packages have been emitted, the file of a method holds the text of the last method
    that has this file. So the files of all methods hold their own texts exactly if methods
    that share a file have the same text. -/
theorem emit_files (valid : ∀ package ∈ packages, Validation.problems package = [])
    (emitted : (emit FileTree.disk config output packages).run tree = (.ok (), after)) :
    (∀ operator ∈ Emission.operators packages, ∃ last text,
        LastOf packages operator last ∧
          Emission.renderMethod config last.1 last.2 = .ok text ∧
          after.read (sourcePath output operator) = .ok text) ∧
      ((∀ operator ∈ Emission.operators packages, HoldsText config output after operator) ↔
        ∀ first ∈ Emission.operators packages, ∀ second ∈ Emission.operators packages,
          SharesFile first second →
            Emission.renderMethod config first.1 first.2 =
              Emission.renderMethod config second.1 second.2) := by
  have texts : ∀ operator ∈ Emission.operators packages, ∃ last text,
      LastOf packages operator last ∧ Emission.renderMethod config last.1 last.2 = .ok text ∧
        after.read (sourcePath output operator) = .ok text := by
    intro operator member
    obtain ⟨last, isLast, text, rendered, stored⟩ := read_last valid emitted member
    obtain ⟨_, _, _, shared, _⟩ := id isLast
    exact ⟨last, text, isLast, rendered, by rw [sourcePath_eq_of_shares shared, stored]⟩
  refine ⟨texts, fun holds first member second member' shared => ?_, fun agree operator member => ?_⟩
  · obtain ⟨text, rendered, stored⟩ := holds first member
    obtain ⟨text', rendered', stored'⟩ := holds second member'
    rw [sourcePath_eq_of_shares shared] at stored
    obtain rfl : text = text' := Except.ok.inj (stored.symm.trans stored')
    rw [rendered, rendered']
  · obtain ⟨last, text, ⟨front, rest, split, shared, -⟩, rendered, stored⟩ := texts operator member
    refine ⟨text, ?_, stored⟩
    rw [agree operator member last (by simp [split]) shared, rendered]

/-- Methods of different classes keep their files. -/
theorem distinct_files :
    (∀ package ∈ [pairPackage "blur" "median"], Validation.problems package = []) ∧
      ∃ after, (emit FileTree.disk .standard "out" [pairPackage "blur" "median"]).run ⟨[], []⟩ =
          (.ok (), after) ∧
        ∀ operator ∈ Emission.operators [pairPackage "blur" "median"],
          HoldsText .standard "out" after operator := by
  have valid : ∀ package ∈ [pairPackage "blur" "median"], Validation.problems package = [] := by
    decide
  have emitted := emitted_of_isOk
    ((emit FileTree.disk .standard "out" [pairPackage "blur" "median"]).run ⟨[], []⟩)
    (by decide +kernel)
  refine ⟨valid, _, emitted, (emit_files valid emitted).2.mpr ?_⟩
  have apart : ¬ (⟨"blur"⟩ : Ident).className = (⟨"median"⟩ : Ident).className := by decide
  intro first member second member' shared
  simp only [Emission.operators, pairPackage, List.flatMap_cons, List.flatMap_nil, List.map_cons,
    List.map_nil, List.append_nil, List.mem_cons, List.not_mem_nil, or_false] at member member'
  rcases member with rfl | rfl <;> rcases member' with rfl | rfl
  · rfl
  · exact absurd shared.2 apart
  · exact absurd shared.2.symm apart
  · rfl

end Generation

end OperatorGen
