import SyntaxView.Labelled

/-!
# Parse options

Eight options of the parser library, each with one bit of a word. A set of options is its word; `ofList` collects one,
and repeating an option or changing the order makes no difference. A set is also built step by step (`OptionSet.Step`):
by methods that add one option each, by adding an option, or by collecting a list anew.
-/

namespace SyntaxView

inductive ParseOption where
  | detailedPreprocessorRecord
  | incomplete
  | precompiledPreamble
  | cacheCompletionResults
  | forSerialization
  | chainedPch
  | skipFunctionBodies
  | includeBriefCommentsInCodeCompletion
  deriving DecidableEq, Repr

instance : Labelled ParseOption where
  all :=
    [.detailedPreprocessorRecord, .incomplete, .precompiledPreamble, .cacheCompletionResults, .forSerialization,
     .chainedPch, .skipFunctionBodies, .includeBriefCommentsInCodeCompletion]
  label
    | .detailedPreprocessorRecord => "detailed_preprocessor_record"
    | .incomplete => "incomplete"
    | .precompiledPreamble => "precompiled_preamble"
    | .cacheCompletionResults => "cache_completion_results"
    | .forSerialization => "for_serialization"
    | .chainedPch => "chained_pch"
    | .skipFunctionBodies => "skip_function_bodies"
    | .includeBriefCommentsInCodeCompletion => "include_brief_comments_in_code_completion"

namespace ParseOption

/-- The bit of an option. -/
def bit : ParseOption → Int32
  | .detailedPreprocessorRecord => 1
  | .incomplete => 2
  | .precompiledPreamble => 4
  | .cacheCompletionResults => 8
  | .forSerialization => 16
  | .chainedPch => 32
  | .skipFunctionBodies => 64
  | .includeBriefCommentsInCodeCompletion => 128

/-- The name of the bit in the parser library. -/
def flagName : ParseOption → String
  | .detailedPreprocessorRecord => "DETAILED_PREPROCESSING_RECORD"
  | .incomplete => "INCOMPLETE"
  | .precompiledPreamble => "PRECOMPILED_PREAMBLE"
  | .cacheCompletionResults => "CACHE_COMPLETION_RESULTS"
  | .forSerialization => "FOR_SERIALIZATION"
  | .chainedPch => "CXX_CHAINED_PCH"
  | .skipFunctionBodies => "SKIP_FUNCTION_BODIES"
  | .includeBriefCommentsInCodeCompletion => "INCLUDE_BRIEF_COMMENTS_IN_CODE_COMPLETION"

end ParseOption

/-- A set of options as the word of their bits. -/
structure OptionSet where
  bits : Int32
  deriving DecidableEq, Repr

namespace OptionSet

def empty : OptionSet := ⟨0⟩

def insert (s : OptionSet) (o : ParseOption) : OptionSet := ⟨s.bits ||| o.bit⟩

def ofList (l : List ParseOption) : OptionSet := l.foldl insert empty

def contains (s : OptionSet) (o : ParseOption) : Bool := s.bits &&& o.bit == o.bit

/-- The options in the set, in the order of their bits. -/
def toList (s : OptionSet) : List ParseOption := (Labelled.all : List ParseOption).filter s.contains

/-! ## Building -/

/-- The methods that add one option each, by their names. -/
def methods : List (String × ParseOption) :=
  [("detailed_preprocessor_record", .detailedPreprocessorRecord),
   ("incomplete", .incomplete),
   ("precompiled_preamble", .precompiledPreamble),
   ("cache_completion_results", .cacheCompletionResults),
   ("for_serialization", .forSerialization),
   ("chained_pch", .chainedPch),
   ("skip_function_bodies", .skipFunctionBodies),
   ("include_brief_comments_in_code_completion", .includeBriefCommentsInCodeCompletion)]

/-- A step of building a set. -/
inductive Step where
  /-- Call the method of a name; a name of no method adds nothing. -/
  | named (name : String)
  | insert (o : ParseOption)
  /-- Start anew with the options of a list. -/
  | collect (l : List ParseOption)
  deriving DecidableEq, Repr

def apply (s : OptionSet) : Step → OptionSet
  | .named name => (methods.lookup name).elim s s.insert
  | .insert o => s.insert o
  | .collect l => ofList l

/-- The set that steps from the empty set lead to. -/
def build (steps : List Step) : OptionSet := steps.foldl apply empty

end OptionSet

end SyntaxView
