import SyntaxView.ExitCode

/-!
# Errors of parsing

What can go wrong between a file name and a syntax tree: a text that the parser library cannot be given, a library that
cannot be loaded, an index that it does not create, and each way in which it refuses a file.
-/

namespace SyntaxView

inductive ParseError where
  /-- The name holds the character of code zero. -/
  | fileName (file : String)
  | argument (file word : String)
  | unsavedContents (file : String)
  | libraryLoad (reason : String)
  | indexCreation
  | failure (file : String)
  | crash (file : String)
  | invalidArguments (file : String)
  | treeRead (file : String)
  /-- A code without a meaning here. -/
  | unknown (code : Int32) (file : String)
  deriving DecidableEq, Repr

namespace ParseError

/-- A stable name of the kind of error. -/
def status : ParseError → String
  | .fileName _ => "FILE_NAME_CONVERSION"
  | .argument .. => "ARGUMENT_CONVERSION"
  | .unsavedContents _ => "UNSAVED_FILE_CONVERSION"
  | .libraryLoad _ => "LIBRARY_LOAD_ERROR"
  | .indexCreation => "INDEX_CREATION_FAILURE"
  | .failure _ => "PARSE_FAILURE"
  | .crash _ => "PARSER_CRASHED"
  | .invalidArguments _ => "INVALID_ARGUMENTS"
  | .treeRead _ => "AST_READ_ERROR"
  | .unknown .. => "UNKNOWN_ERROR"

def message : ParseError → String
  | .fileName file => s!"File name '{file}' cannot be converted to a C string"
  | .argument file word => s!"Compiler argument '{word}' for '{file}' cannot be converted to a C string"
  | .unsavedContents file => s!"Unsaved contents for '{file}' cannot be converted to a C string"
  | .libraryLoad reason => s!"Failed to load libclang: {reason}"
  | .indexCreation => "libclang could not create an index"
  | .failure file => s!"libclang failed to parse '{file}'"
  | .crash file => s!"libclang crashed while parsing '{file}'"
  | .invalidArguments file => s!"libclang rejected the arguments for '{file}'"
  | .treeRead file => s!"libclang could not read the AST for '{file}'"
  | .unknown code file => s!"libclang returned unknown error code {code.toInt} for '{file}'"

/-- The file that the error is about. -/
def file? : ParseError → Option String
  | .fileName file | .argument file _ | .unsavedContents file | .failure file | .crash file | .invalidArguments file
  | .treeRead file | .unknown _ file => some file
  | .libraryLoad _ | .indexCreation => none

/-- What may help. -/
def suggestions : ParseError → List String
  | .libraryLoad _ =>
    ["Install libclang (e.g. the libclang-dev package)", "Set LIBCLANG_PATH to the directory containing libclang.so"]
  | .failure _ => ["Check that the file exists and is readable", "Pass '-x c++' when parsing C++ headers"]
  | .invalidArguments _ | .argument .. =>
    ["Check the compiler arguments passed after '--'", "Remove arguments libclang does not understand"]
  | .treeRead _ => ["The precompiled AST may have been built by another clang version"]
  | .crash _ => ["Retry with fewer options, or report the input to LLVM"]
  | _ => []

/-- Trouble with the library is a general error, since no file was looked at. -/
def exitCode : ParseError → ExitCode
  | .libraryLoad _ | .indexCreation => .general
  | _ => .parse

end ParseError

end SyntaxView
