import SyntaxView.CommandLine.Run

/-!
# The program

Takes a picture of those places of the file system that a command line can concern, runs the command line on it, writes
back the files and directories that the run has made or changed, and shows its output. No parser library is linked into
the program, so a run that needs one ends as if none were found.
-/

namespace SyntaxView.CommandLine

open FileSystem (Place)

/-- The location of the names of a path from a location on. -/
def locate (here : Location) (names : List String) : Location :=
  names.foldl
    (fun l name => if FileSystem.isIdleName name then l else if name = ".." then l.dropLast else l ++ [name])
    here

def namesOf (text : String) : List String := (Path.cut text.toList).map String.ofList

/-- What a word may name: itself, or the value attached to an option. -/
def readings (word : String) : List String :=
  [word, String.ofList (word.toList.drop 2), String.ofList ((word.toList.dropWhile (· != '=')).drop 1)]

/-- A location and those above it, the root first. -/
def prefixesOf (l : Location) : List Location := (List.range (l.length + 1)).map l.take

/-- The locations that a command line can concern, each after those above it. -/
def concerns (here : Location) (words : List String) : List Location :=
  let names := [Settings.directoryName, Settings.relativeFile.text] ++ words.flatMap readings
  (prefixesOf here).flatMap fun up =>
    names.flatMap fun name =>
      prefixesOf (locate (if (Path.mk name).isAbsolute then [] else up) (namesOf name))

/-- What stands at a location. -/
def look (l : Location) : IO (Option FileSystem.Entry) := do
  try
    let real ← IO.FS.realPath (Place.locationPath l).text
    if ← real.isDir then return some .directory
    else return some (.file (← IO.FS.readFile real))
  catch _ => return none

/-- A picture of some locations. -/
def picture : List Location → IO FileSystem
  | [] => return .bare
  | l :: rest => do
    let fs ← picture rest
    match ← look l with
    | some e => return if (fs.lookup l).isSome then fs else fs.set l e
    | none => return fs

/-- Write back what has changed at a location. -/
def writeBack (before after : FileSystem) (l : Location) : IO Unit := do
  if before.lookup l != after.lookup l then
    match after.lookup l with
    | some .directory => IO.FS.createDirAll (Place.locationPath l).text
    | some (.file text) => IO.FS.writeFile (Place.locationPath l).text text
    | _ => return ()

/-- The variables of the process. -/
def readEnvironment : IO Settings.Environment := do
  try
    let bytes ← IO.FS.readBinFile "/proc/self/environ"
    let entries := (Text.ofBytes bytes.toList).splitOn (String.ofList [Char.ofNat 0])
    return entries.map fun e =>
      (String.ofList (e.toList.takeWhile (· != '=')), String.ofList ((e.toList.dropWhile (· != '=')).drop 1))
  catch _ => return []

end SyntaxView.CommandLine

open SyntaxView SyntaxView.CommandLine in
def main (words : List String) : IO UInt32 := do
  let here := locate [] (namesOf (← IO.FS.realPath ".").toString)
  let locations := concerns here words
  let before ← picture locations
  let outcome := run ⟨⟨before, here⟩, ← readEnvironment, .error Library.notFoundReason⟩ words
  for l in locations do
    writeBack before outcome.fs l
  (← IO.getStdout).putStr outcome.stdout
  (← IO.getStderr).putStr outcome.stderr
  return UInt32.ofNat outcome.exit
