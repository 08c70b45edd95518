import OperatorGen.Proofs.Definition.Nodes

/-!
# Packages that are written

Options, methods and packages are records that are read where they stand in a text, so they
are read back from the objects as which they are written. The functions of a method are not
looked into; they can be read back if they are sorted and nest within the room that a text has
for them (`Package.Definable`).
-/
namespace OperatorGen

open Json (Decodes Decoder Fields Number Offers Tree Value)
open Json.Value (names Within)
open Json.Fields (reads_field)

/-- The room that a definition file has for a function of a method: inside of the package, the
    list of its methods, the method and the list of its functions. -/
def roomInFunctions : Nat := Tree.roomInText - 4

/-- A value that stands as it is read among the functions of a method. -/
structure IsFunction (kind : Number → Prop) (function : Value) : Prop where
  within : Within kind roomInFunctions function
  sorted : function.sorted = function

/-- A method as definition files have it, with numbers of some kind in its functions. -/
structure Method.Definable (kind : Number → Prop) (method : Method) : Prop where
  items : ∀ option ∈ method.options, ∀ item ∈ option.items, item.Definable
  functions : ∀ function ∈ method.functions, IsFunction kind function

/-- A package as definition files have it. -/
def Package.Definable (kind : Number → Prop) (package : Package) : Prop :=
  ∀ method ∈ package.methods, method.Definable kind

theorem offers_self {members : List (String × Value)} (distinct : (names members).Nodup) :
    Offers members members :=
  ⟨distinct, List.Subset.refl _⟩

/-! ## Versions -/

theorem decodes_word (word : UInt32) : Decodes Decoder.word (wordValue word) word := by
  intro source shows
  have small : word.toNat < UInt32.size := word.toNat_lt_size
  have fits : 0 ≤ (word.toNat : Int) ∧ (word.toNat : Int) < UInt32.size := by omega
  have found : source.found = .ok (.number (.integer word.toNat)) := shows.found
  simp only [Decoder.word, found, bind, Except.bind]
  rw [if_pos fits, Int.toNat_natCast, UInt32.ofNat_toNat]

theorem within_wordValue {room : Nat} (word : UInt32) :
    Within Number.IsWord room (wordValue word) := by
  have small : word.toNat < 2 ^ 32 := word.toNat_lt
  exact .number ⟨word.toNat, rfl, by omega, by omega⟩

theorem Version.decodes (version : Version) : Decodes decoder version.toValue version := by
  have offers := offers_self (show (names [("major", wordValue version.major),
    ("minor", wordValue version.minor), ("patch", wordValue version.patch)]).Nodup by
    simp [names])
  have major : (Fields.required "major" Decoder.word).Reads ["major"] _ version.major :=
    reads_field offers.distinct (offers.present (by simp)) (decodes_word _)
  have minor : (Fields.required "minor" Decoder.word).Reads ["minor"] _ version.minor :=
    reads_field offers.distinct (offers.present (by simp)) (decodes_word _)
  have patch : (Fields.required "patch" Decoder.word).Reads ["patch"] _ version.patch :=
    reads_field offers.distinct (offers.present (by simp)) (decodes_word _)
  exact ((major.and (minor.and patch (by decide)) (by decide)).map _).record "Version"

theorem Version.within {room : Nat} (version : Version) :
    Within Number.IsWord (room + 2) version.toValue := by
  refine .object ?_
  simp only [List.forall_mem_cons]
  exact ⟨within_wordValue _, within_wordValue _, within_wordValue _, nofun⟩

/-! ## Options and methods -/

/-- An option is written as a value from which it is read back. -/
theorem MethodOption.exists_written {option : MethodOption}
    (items : ∀ item ∈ option.items, item.Definable) :
    ∃ written, option.toValue = .ok written ∧ Within Number.IsWord 8 written ∧
      Decodes decoder written option := by
  obtain ⟨values, wroteAll, within, reads⟩ :=
    exists_writeAll fun item member => Item.exists_written (items item member)
  have offers := offers_self (show (names [("ident", .text option.ident.text),
    ("name", .text option.name), ("args", .list values)]).Nodup by
    simp [names])
  have ident : identField.Reads ["ident"] _ option.ident := reads_ident offers (by simp)
  have name : (textField "name").Reads ["name"] _ option.name := reads_text offers (by simp)
  have args : (listField "args" Item.decoder).Reads ["args"] _ option.items :=
    reads_field offers.distinct (offers.present (by simp)) (.list reads)
  refine ⟨_, ?_, ?_, ((ident.and (name.and args (by decide)) (by decide)).map _).record "OptionDef"⟩
  · rw [toValue, wroteAll]
    rfl
  · refine .object ?_
    simp only [List.forall_mem_cons]
    exact ⟨.text _, .text _, .list within, List.forall_mem_nil _⟩

/-- A method is written as a value from which it is read back. -/
theorem Method.exists_written {method : Method} (definable : method.Definable Number.IsWord) :
    ∃ written, method.toValue = .ok written ∧ Within Number.IsWord 126 written ∧
      Decodes decoder written method := by
  obtain ⟨values, wroteAll, within, reads⟩ :=
    exists_writeAll fun option member => MethodOption.exists_written (definable.items option member)
  have offers := offers_self (show (names [("ident", .text method.ident.text),
    ("name", .text method.name), ("doc", .text method.doc), ("functions", .list method.functions),
    ("options", .list values)]).Nodup by
    simp [names])
  have ident : identField.Reads ["ident"] _ method.ident := reads_ident offers (by simp)
  have name : (textField "name").Reads ["name"] _ method.name := reads_text offers (by simp)
  have doc : (textField "doc").Reads ["doc"] _ method.doc := reads_text offers (by simp)
  have each : List.Forall₂ (Decodes Decoder.value) method.functions method.functions := by
    rw [List.forall₂_same]
    intro function member
    have decodes := Decodes.value function
    rwa [(definable.functions function member).sorted] at decodes
  have functions : (listField "functions" Decoder.value).Reads ["functions"] _ method.functions :=
    reads_field offers.distinct (offers.present (by simp)) (.list each)
  have options : (listField "options" MethodOption.decoder).Reads ["options"] _ method.options :=
    reads_field offers.distinct (offers.present (by simp)) (.list reads)
  refine ⟨_, ?_, ?_, ((ident.and (name.and (doc.and (functions.and options (by decide)) (by decide))
    (by decide)) (by decide)).map _).record "Method"⟩
  · rw [toValue, wroteAll]
    rfl
  · refine .object ?_
    simp only [List.forall_mem_cons]
    refine ⟨.text _, .text _, .text _, .list fun function member => ?_, .list fun option member => ?_,
      List.forall_mem_nil _⟩
    · exact (definable.functions function member).within
    · exact (within option member).mono (by omega)

/-! ## Packages -/

/-- A package is written as a value from which it is read back. -/
theorem Package.exists_written {package : Package} (definable : package.Definable Number.IsWord) :
    ∃ written, package.toValue = .ok written ∧
      Within Number.IsWord Tree.roomInText written ∧ Decodes decoder written package := by
  obtain ⟨values, wroteAll, within, reads⟩ :=
    exists_writeAll fun method member => Method.exists_written (definable method member)
  have offers := offers_self (show (names [("ident", .text package.ident.text),
    ("name", .text package.name), ("description", .text package.description),
    ("version", package.version.toValue), ("methods", .list values)]).Nodup by
    simp [names])
  have ident : identField.Reads ["ident"] _ package.ident := reads_ident offers (by simp)
  have name : (textField "name").Reads ["name"] _ package.name := reads_text offers (by simp)
  have description : (textField "description").Reads ["description"] _ package.description :=
    reads_text offers (by simp)
  have version : (Fields.required "version" Version.decoder).Reads ["version"] _ package.version :=
    reads_field offers.distinct (offers.present (by simp)) package.version.decodes
  have methods : (listField "methods" Method.decoder).Reads ["methods"] _ package.methods :=
    reads_field offers.distinct (offers.present (by simp)) (.list reads)
  refine ⟨_, ?_, ?_, ((ident.and (name.and (description.and (version.and methods (by decide))
    (by decide)) (by decide)) (by decide)).map _).record "Package"⟩
  · rw [toValue, wroteAll]
    rfl
  · refine .object ?_
    simp only [List.forall_mem_cons]
    exact ⟨.text _, .text _, .text _, package.version.within, .list within, List.forall_mem_nil _⟩

/-- A package is read back from the text as which it is written. -/
theorem Package.exists_write {package : Package} (definable : package.Definable Number.IsWord) :
    ∃ text, package.write = .ok text ∧ parse text = .ok package := by
  obtain ⟨written, wrote, within, decodes⟩ := Package.exists_written definable
  refine ⟨written.write, map_ok_iff.mpr ⟨written, wrote, rfl⟩, ?_⟩
  rw [parse, Decoder.decode, Tree.ofText_write within]
  simp only [bind, Except.bind, decodes _ (.text within)]
  rfl

end OperatorGen
