import SyntaxView.OsError
import SyntaxView.Path

/-!
# A file system

A location is the list of names that lead from the root to an entry, with no link on the way. A `FileSystem` gives the
entry at each location. A path is resolved name by name from the root or from the current directory: `..` leads to the
parent, a link is replaced by its target, at most forty links are followed, and every name but the last must lead to a
directory. What the path is resolved for (`Purpose`) decides how its last name is taken. Names and paths have a greatest
length. Contents of files are texts.

Operations that fail leave the system as it was, except that `makeDirectories` keeps the directories it has made.
-/

namespace SyntaxView

abbrev Location := List String

/-- What stands at a location. -/
inductive FileSystem.Entry where
  | directory
  | file (text : String)
  | link (target : String)
  /-- A device that takes no data. -/
  | fullDevice
  /-- A device that holds nothing and forgets what it is given. -/
  | nullDevice
  deriving DecidableEq, Repr

structure FileSystem where
  lookup : Location → Option FileSystem.Entry

namespace FileSystem

/-- The root directory alone. -/
def empty : FileSystem := ⟨fun l => if l = [] then some .directory else none⟩

def set (fs : FileSystem) (l : Location) (e : Entry) : FileSystem :=
  ⟨fun q => if q = l then some e else fs.lookup q⟩

@[simp] theorem lookup_set_self (fs : FileSystem) (l : Location) (e : Entry) : (fs.set l e).lookup l = some e := by
  simp [set]

theorem lookup_set_of_ne (fs : FileSystem) {l q : Location} (e : Entry) (h : q ≠ l) :
    (fs.set l e).lookup q = fs.lookup q := by
  simp [set, h]

/-- A bare system: the root and two devices. -/
def bare : FileSystem :=
  ((empty.set ["dev"] .directory).set ["dev", "full"] .fullDevice).set ["dev", "null"] .nullDevice

/-! ## Resolving paths -/

/-- Where a path leads. -/
inductive Target where
  | found (location : Location) (entry : Entry)
  /-- Only the last name is missing; `slash` says that a slash follows it. -/
  | vacant (location : Location) (slash : Bool)
  | failed (error : OsError)
  deriving Repr

/-- What is found where a path leads. -/
def Target.toExcept : Target → Except IoError (Location × Entry)
  | .found l e => .ok (l, e)
  | .vacant _ _ => .error (.os .notFound)
  | .failed e => .error (.os e)

/-- What a path is resolved for. -/
inductive Purpose where
  /-- To find what is there: a last link is followed, and a slash at the end asks for a directory. -/
  | find
  /-- To open a file for writing: a last link is followed, and no slash may follow the last name. -/
  | write
  /-- To make a new entry: a last link is not followed, and a slash at the end does not matter. -/
  | make
  deriving DecidableEq, Repr

/-- A name that leads nowhere else. -/
def isIdleName (name : String) : Bool := name == "" || name == "."

/-- The most bytes of a name. -/
def nameLimit : Nat := 255

/-- The least number of bytes that is too long for a path. -/
def pathLimit : Nat := 4096

/-- Resolve `names` from the directory `here`; `onLink` resolves what a link leads to. A name is the last one if only
slashes follow it. -/
def walk (fs : FileSystem) (purpose : Purpose) (onLink : Location → List String → Target) :
    Location → List String → Target
  | here, [] => .found here .directory
  | here, name :: names =>
    let last := names.all (· == "")
    if isIdleName name then walk fs purpose onLink here names
    else if name = ".." then walk fs purpose onLink here.dropLast names
    else if purpose = .write ∧ last ∧ !names.isEmpty then .failed .isDirectory
    else if nameLimit < name.utf8ByteSize then .failed .nameTooLong
    else
      match fs.lookup (here ++ [name]) with
      | none => if last then .vacant (here ++ [name]) (!names.isEmpty) else .failed .notFound
      | some .directory => walk fs purpose onLink (here ++ [name]) names
      | some (.link target) =>
        if purpose = .make ∧ last then .found (here ++ [name]) (.link target)
        else if target = "" then .failed .notFound
        else onLink (if (Path.mk target).isAbsolute then [] else here) ((Path.cut target.toList).map String.ofList ++ names)
      | some e =>
        if names.isEmpty ∨ (purpose = .make ∧ last) then .found (here ++ [name]) e else .failed .notDirectory

/-- Resolve with at most `n` links. -/
def walkLinks (fs : FileSystem) (purpose : Purpose) : Nat → Location → List String → Target
  | 0 => walk fs purpose fun _ _ => .failed .tooManyLinks
  | n + 1 => walk fs purpose (walkLinks fs purpose n)

/-- A place in a file system from which relative paths start. -/
structure Place where
  fs : FileSystem
  /-- The current directory. -/
  here : Location

namespace Place

/-- Where a path of any length leads. -/
def resolve (w : Place) (purpose : Purpose) (p : Path) : Target :=
  if p.text = "" then .failed .notFound
  else walkLinks w.fs purpose 40 (if p.isAbsolute then [] else w.here) ((Path.cut p.text.toList).map String.ofList)

/-- Where a path leads. -/
def target (w : Place) (purpose : Purpose) (p : Path) : Target :=
  if pathLimit ≤ p.text.utf8ByteSize then .failed .nameTooLong else w.resolve purpose p

/-- The system takes no path with the character of code zero. -/
def nulMessage : String := "file name contained an unexpected NUL byte"

def hasNul (p : Path) : Bool := p.text.toList.contains (Char.ofNat 0)

/-- The location and entry that a path leads to through all links. -/
def find (w : Place) (p : Path) : Except IoError (Location × Entry) :=
  if hasNul p then .error (.worded .invalidInput nulMessage) else (w.target .find p).toExcept

def found? (w : Place) (p : Path) : Option Entry :=
  match w.find p with
  | .ok r => some r.2
  | .error _ => none

def doesExist (w : Place) (p : Path) : Bool := (w.found? p).isSome

def isDirectory (w : Place) (p : Path) : Bool := w.found? p == some .directory

def isFile (w : Place) (p : Path) : Bool :=
  match w.found? p with
  | some (.file _) => true
  | _ => false

/-- The path of a location. -/
def locationPath (l : Location) : Path := ⟨"/" ++ "/".intercalate l⟩

/-- The absolute path without links, `.` and `..` of something that exists. It is found name by name, so the path may
have any length. -/
def canonical (w : Place) (p : Path) : Except IoError Path :=
  if hasNul p then .error (.worded .invalidInput nulMessage)
  else (w.resolve .find p).toExcept.map fun r => locationPath r.1

/-! ## Reading and writing -/

/-- The text of a file. -/
def read (w : Place) (p : Path) : Except IoError String :=
  match w.find p with
  | .error e => .error e
  | .ok (_, .file text) => .ok text
  | .ok (_, .directory) => .error (.os .isDirectory)
  | .ok (_, .link _) => .error (.os .tooManyLinks)
  | .ok (_, .fullDevice) => .error (.os .inputOutput)
  | .ok (_, .nullDevice) => .ok ""

/-- What a path opened for writing leads to. -/
inductive Opened where
  /-- A file, new or emptied. -/
  | file (location : Location)
  | fullDevice
  | nullDevice
  deriving DecidableEq, Repr

/-- Open a path for writing: the file is created or emptied. -/
def create (w : Place) (p : Path) : Except IoError (Opened × FileSystem) :=
  if hasNul p then .error (.worded .invalidInput nulMessage)
  else
    match w.target .write p with
    | .failed e => .error (.os e)
    | .vacant l _ => .ok (.file l, w.fs.set l (.file ""))
    | .found _ .directory => .error (.os .isDirectory)
    | .found _ .fullDevice => .ok (.fullDevice, w.fs)
    | .found _ .nullDevice => .ok (.nullDevice, w.fs)
    | .found l _ => .ok (.file l, w.fs.set l (.file ""))

/-- Open a path for writing and write a text. A file that is open is assumed to take the whole text: no write breaks off
midway. -/
def write (w : Place) (p : Path) (text : String) : Except IoError FileSystem :=
  match w.create p with
  | .error e => .error e
  | .ok (.file l, fs) => .ok (fs.set l (.file text))
  | .ok (.fullDevice, fs) => if text.isEmpty then .ok fs else .error (.os .noSpace)
  | .ok (.nullDevice, fs) => .ok fs

/-! ## Directories and links -/

def makeDirectory (w : Place) (p : Path) : Except IoError FileSystem :=
  if hasNul p then .error (.worded .invalidInput nulMessage)
  else
    match w.target .make p with
    | .failed e => .error (.os e)
    | .found _ _ => .error (.os .alreadyExists)
    | .vacant l _ => .ok (w.fs.set l .directory)

/-- Make the first directory of a list of ancestors, nearest first, and those of the others that it needs. -/
def makeAncestors (here : Location) : List Path → FileSystem → Except IoError Unit × FileSystem
  | [], fs => (.error (.worded .other "failed to create whole tree"), fs)
  | p :: up, fs =>
    if p.text = "" then (.ok (), fs)
    else
      match makeDirectory ⟨fs, here⟩ p with
      | .ok fs => (.ok (), fs)
      | .error e =>
        if e.isNotFound then
          match makeAncestors here up fs with
          | (.error e, fs) => (.error e, fs)
          | (.ok (), fs) =>
            match makeDirectory ⟨fs, here⟩ p with
            | .ok fs => (.ok (), fs)
            | .error e => if isDirectory ⟨fs, here⟩ p then (.ok (), fs) else (.error e, fs)
        else if isDirectory ⟨fs, here⟩ p then (.ok (), fs)
        else (.error e, fs)

/-- Make a directory and the directories above it; one that exists is kept. -/
def makeDirectories (w : Place) (p : Path) : Except IoError Unit × FileSystem :=
  makeAncestors w.here p.ancestors w.fs

def makeLink (w : Place) (p : Path) (linkTarget : String) : Except IoError FileSystem :=
  match w.target .make p with
  | .failed e => .error (.os e)
  | .found _ _ => .error (.os .alreadyExists)
  | .vacant l slash => if slash then .error (.os .notFound) else .ok (w.fs.set l (.link linkTarget))

end Place

end FileSystem

end SyntaxView
