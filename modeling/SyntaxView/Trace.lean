import SyntaxView.Library.Request

/-!
# What a run shows

While the program runs it writes to two streams, logs and calls a parser library. Each of these is an `Event`. A
`Traced` value is a result together with the events on the way to it, in order.
-/

namespace SyntaxView

/-- Levels of log messages, from the gravest on. -/
inductive Level where
  | error
  | warn
  | info
  | debug
  | trace
  deriving DecidableEq, Repr

namespace Level

def rank : Level → Nat
  | .error => 1
  | .warn => 2
  | .info => 3
  | .debug => 4
  | .trace => 5

def name : Level → String
  | .error => "ERROR"
  | .warn => "WARN"
  | .info => "INFO"
  | .debug => "DEBUG"
  | .trace => "TRACE"

def all : List Level := [.error, .warn, .info, .debug, .trace]

/-- The number that decimal digits spell, which a plus sign may precede. -/
def number? (cs : List Char) : Option Nat :=
  let ds :=
    match cs with
    | '+' :: ds => ds
    | ds => ds
  if ds.isEmpty || !ds.all Char.isDigit then none
  else some (ds.foldl (fun n d => n * 10 + (d.toNat - '0'.toNat)) 0)

/-- The level that a name in any case or a rank spells. -/
def ofText? (s : String) : Option Level :=
  match number? s.toList with
  | some n => all.find? fun l => l.rank == n
  | none => all.find? fun l => l.name.toList == s.toList.map Char.toUpper

/-- A message of this level is shown when `most` is the least grave level shown. -/
def isShown (l most : Level) : Bool := l.rank ≤ most.rank

end Level

inductive Event where
  | log (level : Level) (message : String)
  /-- Text for the standard output. -/
  | out (text : String)
  /-- Text for the standard error output. -/
  | err (text : String)
  /-- The library is asked for an index. -/
  | createIndex (pch diagnostics : Int32)
  /-- The library is asked to parse a file. -/
  | parse (request : Library.Request)
  deriving DecidableEq, Repr

structure Traced (α : Type) where
  value : α
  events : List Event

namespace Traced

variable {α β : Type}

def pure (a : α) : Traced α := ⟨a, []⟩

def bind (x : Traced α) (f : α → Traced β) : Traced β := ⟨(f x.value).value, x.events ++ (f x.value).events⟩

instance : Monad Traced where
  pure := Traced.pure
  bind := Traced.bind

@[simp] theorem value_pure (a : α) : (Pure.pure a : Traced α).value = a := rfl

@[simp] theorem value_bind (x : Traced α) (f : α → Traced β) : (x >>= f).value = (f x.value).value := rfl

@[simp] theorem events_pure (a : α) : (Pure.pure a : Traced α).events = [] := rfl

@[simp] theorem events_bind (x : Traced α) (f : α → Traced β) :
    (x >>= f).events = x.events ++ (f x.value).events := rfl

/-- Show one event. -/
def emit (e : Event) : Traced Unit := ⟨(), [e]⟩

def log (level : Level) (message : String) : Traced Unit := emit (.log level message)

/-- Do something for each item in order. -/
def each (act : α → Traced Unit) : List α → Traced Unit
  | [] => Traced.pure ()
  | a :: rest => Traced.bind (act a) fun _ => each act rest

end Traced

end SyntaxView
