import SyntaxView.OutputError
import SyntaxView.Tree.Json

/-!
# Trees as lines of JSON

Each node is written as one line, before its children, and the line is flushed before the next. A line says what the
node is, where it stands, how deep, under which number, and under which number its parent was written. Numbers go on
over all trees written to one stream, and a number is used up even if its line fails. The first failure ends the tree.

A `Sink` takes all text; its flushes may fail.
-/

namespace SyntaxView

/-! ## Sinks -/

structure Sink where
  written : String
  /-- How many flushes there have been. -/
  flushes : Nat
  /-- The fault of a flush, by its number. -/
  fault : Nat → Option IoError

namespace Sink

/-- A fresh sink with these faults. -/
def fresh (fault : Nat → Option IoError) : Sink := ⟨"", 0, fault⟩

/-- A fresh sink that never fails. -/
def reliable : Sink := fresh fun _ => none

def put (s : Sink) (text : String) : Sink := { s with written := s.written ++ text }

def flush (s : Sink) : Except OutputError Unit × Sink :=
  (match s.fault s.flushes with | some e => .error (.write e) | none => .ok (), { s with flushes := s.flushes + 1 })

end Sink

/-! ## Lines -/

/-- What the line of a node says. -/
structure NodeLine where
  kind : String
  name : Option String
  start : Option Position
  stop : Option Position
  depth : Nat
  id : Nat
  parent : Option Nat
  deriving DecidableEq, Repr

namespace NodeLine

def ofNode (n : Node) (depth id : Nat) (parent : Option Nat) : NodeLine :=
  ⟨n.label, n.name?, n.span.map Span.start, n.span.map Span.stop, depth, id, parent⟩

def toJson (l : NodeLine) : Json :=
  .obj (("kind", .str l.kind) :: Json.optional "name" (l.name.map .str) ++
    Json.optional "start" (l.start.map Position.toJson) ++ Json.optional "end" (l.stop.map Position.toJson) ++
    ("depth", .ofNat l.depth) :: ("id", .ofNat l.id) :: Json.optional "parent" (l.parent.map .ofNat))

def text (l : NodeLine) : String := l.toJson.compact ++ "\n"

end NodeLine

/-! ## Streams -/

structure LineStream where
  sink : Sink
  nextId : Nat

namespace LineStream

def ofSink (sink : Sink) : LineStream := ⟨sink, 0⟩

/-- Write one line. -/
def writeLine (s : LineStream) (line : NodeLine) : Except OutputError Unit × LineStream :=
  let (result, sink) := (s.sink.put line.text).flush
  (result, { s with sink })

/-- Use up a number for the line of a node and write it. -/
def writeNode (s : LineStream) (n : Node) (depth : Nat) (parent : Option Nat) : Except OutputError Unit × LineStream :=
  { s with nextId := s.nextId + 1 }.writeLine (.ofNode n depth s.nextId parent)

/-- The children of a node at this depth are left out. -/
def isDeepest (limit : Option Nat) (depth : Nat) : Bool :=
  match limit with
  | none => false
  | some most => most ≤ depth

mutual
/-- Write a node at a depth and what is below it. -/
def writeFrom (limit : Option Nat) (depth : Nat) (parent : Option Nat) :
    Node → LineStream → Except OutputError Unit × LineStream
  | .mk kind span children, s =>
    match s.writeNode (.mk kind span children) depth parent with
    | (.error e, s') => (.error e, s')
    | (.ok (), s') => if isDeepest limit depth then (.ok (), s') else writeAll limit (depth + 1) (some s.nextId) children s'
termination_by structural n => n

/-- Write sibling nodes, until one fails. -/
def writeAll (limit : Option Nat) (depth : Nat) (parent : Option Nat) :
    List Node → LineStream → Except OutputError Unit × LineStream
  | [], s => (.ok (), s)
  | n :: ns, s =>
    match writeFrom limit depth parent n s with
    | (.error e, s) => (.error e, s)
    | (.ok (), s) => writeAll limit depth parent ns s
termination_by structural l => l
end

/-- Write a tree down to the depth limit. -/
def write (s : LineStream) (limit : Option Nat) (n : Node) : Except OutputError Unit × LineStream :=
  writeFrom limit 0 none n s

end LineStream

end SyntaxView
