import SyntaxView.FileSystem

/-!
# Compile commands

A compile command says in which directory a compiler was run, on which file, and with which words. A parser library is
given fewer words (`parserArguments`): not the compiler, not the source file under any spelling that names it, neither
`-c` nor an output option with its value; and it is told the directory, if that exists. Beside them goes the name of the
source file (`sourceName`), absolute if the directory exists.
-/

namespace SyntaxView

structure Command where
  directory : Path
  file : Path
  /-- The whole command line, compiler first. -/
  arguments : List String
  output : Option String
  deriving DecidableEq, Repr

namespace Command

/-- The argument names the source file, from the directory or as it stands. -/
def isSource (c : Command) (argument : String) : Bool :=
  Path.same ⟨argument⟩ c.file || (c.directory.join ⟨argument⟩).same c.file

/-- The argument means something to the compiler's driver only. -/
def isDriverWord (c : Command) (argument : String) : Bool :=
  argument == "-c" || "-o".toList.isPrefixOf argument.toList || c.isSource argument

/-- Drop what is for the driver; `-o` takes the word after it along. -/
def dropDriverWords (c : Command) : List String → List String
  | [] => []
  | [a] => if c.isDriverWord a then [] else [a]
  | a :: b :: rest =>
    if a = "-o" then dropDriverWords c rest
    else if c.isDriverWord a then dropDriverWords c (b :: rest)
    else a :: dropDriverWords c (b :: rest)

/-- The option that tells a parser library its working directory. -/
def workingDirectoryOption (d : Path) : String := "-working-directory=" ++ d.text

/-- The arguments for a parser library, in a file system with a current directory. -/
def parserArguments (w : FileSystem.Place) (c : Command) : List String :=
  c.dropDriverWords c.arguments.tail ++
    match w.canonical c.directory with
    | .ok d => [workingDirectoryOption d]
    | .error _ => []

/-- The name of the source file for a parser library. -/
def sourceName (w : FileSystem.Place) (c : Command) : String :=
  match w.canonical c.directory with
  | .ok d => (d.join ((c.file.below? c.directory).getD c.file)).text
  | .error _ => c.file.text

end Command

end SyntaxView
