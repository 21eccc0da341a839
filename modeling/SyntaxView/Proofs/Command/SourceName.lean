import SyntaxView.Proofs.Command.Arguments
import SyntaxView.Proofs.Database.Loading
import SyntaxView.Proofs.FileSystem
import SyntaxView.Proofs.Path

/-!
# The name of the source file that a parser library is given

A command is loaded with its file seen from its directory. `sourceName` takes the directory off again, by components,
and puts the rest behind the place that the directory leads to. Whatever slashes and dots the texts have, that names the
file as one who works in this place would name it (`Locates`).

- a relative file is below its directory, and what is taken off is what was put there (`below?_join`);
- main result: `sourceName_locates`.
-/

namespace SyntaxView

variable {w : FileSystem.Place} {base d : Path} {e : Database.Entry} {c : Command}

/-- The path names `file` for one who works in `d`, where `directory` leads to. -/
structure Locates (d directory file name : Path) : Prop where
  absolute : name.isAbsolute = true
  /-- A relative file is seen from `d`. -/
  relative : file.isAbsolute = false → name.components = (d.join file).components
  /-- An absolute file below `directory` is the same below `d`. -/
  inside : file.isAbsolute = true → ∀ rest, file.components = directory.components ++ rest →
    name.components = d.components ++ rest
  /-- Any other absolute file is taken as it stands. -/
  outside : file.isAbsolute = true → ¬ directory.components <+: file.components → name = file

namespace Path

variable {directory file : Path}

/-- Taking a directory off a file that was joined to it and putting `d` in its place locates the file from `d`. -/
theorem locates_join_below (hd : d.isAbsolute = true) (hdirectory : directory.text ≠ "") (file : Path) :
    Locates d directory file
      (d.join (((directory.join file).below? directory).getD (directory.join file))) := by
  have hne := ne_empty_of_isAbsolute hd
  refine ⟨isAbsolute_join hd _, ?_, ?_, ?_⟩
  · intro hfile
    obtain ⟨rest, hrest, hrelative, hnames⟩ := below?_join hdirectory hfile
    rw [hrest, Option.getD_some, components_join hne hrelative, components_join hne hfile, hnames]
  · intro hfile more hmore
    rw [join_of_isAbsolute directory hfile]
    have hsome : (file.below? directory).isSome = true := by
      rw [below?_isSome, hmore]
      exact List.prefix_append _ _
    obtain ⟨rest, hrest⟩ := Option.isSome_iff_exists.1 hsome
    obtain ⟨hrelative, hcomponents⟩ := below?_some hdirectory hrest
    rw [hmore] at hcomponents
    rw [hrest, Option.getD_some, components_join hne hrelative, ← List.append_cancel_left hcomponents]
  · intro hfile hnotBelow
    rw [← below?_isSome, Bool.not_eq_true, Option.isSome_eq_false_iff, Option.isNone_iff_eq_none] at hnotBelow
    rw [join_of_isAbsolute directory hfile, hnotBelow, Option.getD_none, join_of_isAbsolute d hfile]

end Path

namespace Command

theorem sourceName_of_canonical (hd : w.canonical c.directory = .ok d) :
    Path.mk (c.sourceName w) = d.join ((c.file.below? c.directory).getD c.file) := by
  rw [sourceName, hd]

theorem workingDirectoryOption_injective : Function.Injective workingDirectoryOption := by
  intro d d' h
  have htext : d.text = d'.text := (String.append_right_inj _).1 h
  cases d
  cases d'
  exact congrArg Path.mk htext

/-- Only a directory that leads somewhere is pinned. -/
theorem canonical_of_pinned (h : c.parserArguments w = c.keptWords c.arguments.tail ++ [workingDirectoryOption d]) :
    w.canonical c.directory = .ok d := by
  rw [parserArguments, keptWords_eq_dropDriverWords, List.append_cancel_left_eq] at h
  cases hcanonical : w.canonical c.directory with
  | error err =>
    rw [hcanonical] at h
    cases h
  | ok d' =>
    rw [hcanonical] at h
    rw [workingDirectoryOption_injective (List.cons.inj h).1]

/-- **The source of a loaded command is located from its directory**, if that leads somewhere, and taking the directory
off does not fail for a relative file; otherwise the name is the file joined to the directory as a text. So a name that
is given beside a pinned directory is absolute, and seen from that directory it is itself. -/
theorem sourceName_locates (h : e.toCommand base = .ok c) :
    (∀ d, w.canonical c.directory = .ok d → Locates d c.directory ⟨e.file⟩ ⟨c.sourceName w⟩ ∧
      ((Path.mk e.file).isAbsolute = false → (c.file.below? c.directory).isSome = true)) ∧
    (∀ err, w.canonical c.directory = .error err → c.sourceName w = (c.directory.join ⟨e.file⟩).text) ∧
    ∀ d, c.parserArguments w = c.keptWords c.arguments.tail ++ [workingDirectoryOption d] →
      (Path.mk (c.sourceName w)).isAbsolute = true ∧ d.join ⟨c.sourceName w⟩ = ⟨c.sourceName w⟩ := by
  have hfile : c.file = c.directory.join ⟨e.file⟩ := (Database.toCommand_ok_iff.1 h).file
  have hlocates : ∀ d, w.canonical c.directory = .ok d → Locates d c.directory ⟨e.file⟩ ⟨c.sourceName w⟩ := by
    intro d hd
    obtain ⟨habsolute, hne⟩ := FileSystem.Place.canonical_ok hd
    rw [sourceName_of_canonical hd, hfile]
    exact Path.locates_join_below habsolute hne ⟨e.file⟩
  refine ⟨?_, ?_, ?_⟩
  · intro d hd
    refine ⟨hlocates d hd, fun hrelative => ?_⟩
    obtain ⟨rest, hrest, -⟩ := Path.below?_join (FileSystem.Place.canonical_ok hd).2 hrelative
    rw [hfile, hrest]
    rfl
  · intro err herr
    rw [sourceName, herr, hfile]
  · intro d hpinned
    have habsolute := (hlocates d (canonical_of_pinned hpinned)).absolute
    exact ⟨habsolute, Path.join_of_isAbsolute d habsolute⟩

/-- A directory `/w/build`, to which a link leads. -/
def linkedPlace : FileSystem.Place :=
  ⟨((FileSystem.bare.set ["w"] .directory).set ["w", "build"] .directory).set ["p"] (.link "/w"), []⟩

def linkedEntry : Database.Entry := ⟨"./build/", "..//src/./a.c", some ["cc"], none, none⟩

theorem linkedEntry_located : ∃ c, linkedEntry.toCommand ⟨"/p"⟩ = .ok c ∧
    linkedPlace.canonical c.directory = .ok ⟨"/w/build"⟩ ∧ c.sourceName linkedPlace = "/w/build/..//src/./a.c" ∧
    Locates ⟨"/w/build"⟩ c.directory ⟨linkedEntry.file⟩ ⟨c.sourceName linkedPlace⟩ := by
  have hload : linkedEntry.toCommand ⟨"/p"⟩ =
      .ok ⟨⟨"/p/./build/"⟩, ⟨"/p/./build/..//src/./a.c"⟩, ["cc"], none⟩ := by decide +kernel
  have hcanonical : linkedPlace.canonical ⟨"/p/./build/"⟩ = .ok ⟨"/w/build"⟩ := by decide +kernel
  exact ⟨_, hload, hcanonical, by decide +kernel, ((sourceName_locates hload).1 _ hcanonical).1⟩

end Command

end SyntaxView
