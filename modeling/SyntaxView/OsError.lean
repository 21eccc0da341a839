/-!
# Errors of the operating system

An `OsError` is a numbered error of the system with what the system says of it; the message is that text with the number
behind it. An `IoError` is what an input or output operation fails with: such an error, or one that the operation words
itself.
-/

namespace SyntaxView

structure OsError where
  code : Int
  /-- What the system says of the number. -/
  description : String
  deriving DecidableEq, Repr

namespace OsError

def notFound : OsError := ⟨2, "No such file or directory"⟩

def inputOutput : OsError := ⟨5, "Input/output error"⟩

def alreadyExists : OsError := ⟨17, "File exists"⟩

def notDirectory : OsError := ⟨20, "Not a directory"⟩

def isDirectory : OsError := ⟨21, "Is a directory"⟩

def noSpace : OsError := ⟨28, "No space left on device"⟩

def nameTooLong : OsError := ⟨36, "File name too long"⟩

def tooManyLinks : OsError := ⟨40, "Too many levels of symbolic links"⟩

def message (e : OsError) : String := s!"{e.description} (os error {e.code})"

end OsError

/-- The kind of an error that an operation words itself. -/
inductive IoKind where
  | notFound
  | permissionDenied
  | invalidData
  | invalidInput
  | other
  deriving DecidableEq, Repr

inductive IoError where
  | os (error : OsError)
  | worded (kind : IoKind) (message : String)
  deriving DecidableEq, Repr

namespace IoError

def message : IoError → String
  | .os e => e.message
  | .worded _ m => m

/-- The thing operated on does not exist. -/
def isNotFound : IoError → Bool
  | .os e => e.code == OsError.notFound.code
  | .worded k _ => k == .notFound

end IoError

end SyntaxView
