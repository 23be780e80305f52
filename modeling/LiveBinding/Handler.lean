import LiveBinding.Value

/-! Operators and the handlers they install.

| operator | symbol | read | write |
|----------|--------|------|-------|
| simple | `=` | standard | none |
| notify | `::` | none | standard |
| subscribe | `<<` | traced | none |
| update | `>>` | none | inverted |
| delegate | `:=` | traced | inverted | -/
namespace LiveBinding

/-! ### Handlers -/

inductive HandlerKind where
  | standardRead
  | standardWrite
  | tracedRead
  | invertedWrite
deriving DecidableEq, Repr, Inhabited

namespace HandlerKind

def text : HandlerKind → String
  | standardRead => "standard read"
  | standardWrite => "standard write"
  | tracedRead => "traced read"
  | invertedWrite => "inverted write"

def isRead : HandlerKind → Bool
  | standardRead | tracedRead => true
  | standardWrite | invertedWrite => false

def all : List HandlerKind := [standardRead, standardWrite, tracedRead, invertedWrite]

def ofText? (s : String) : Option HandlerKind := all.find? fun k => k.text = s

theorem ofText?_text (k : HandlerKind) : ofText? k.text = some k := by cases k <;> decide

end HandlerKind

/-- What a handler is asked for. -/
inductive Service where
  | read
  | write
  | tracedRead
deriving DecidableEq, Repr, Inhabited

def Service.text : Service → String
  | read => "read"
  | write => "write"
  | tracedRead => "traced read"

/-- A function attached to an attribute in one role, with the key of its locals. -/
structure Handler where
  kind : HandlerKind
  function : FunctionRef
  key : ScopeKey
deriving DecidableEq, Inhabited

/-- One call into a handler. -/
inductive Invocation where
  | read (owner : ObjectId) (name : String)
  | write (owner : ObjectId) (name : String) (change : ObjectId)
deriving DecidableEq, Inhabited

def Invocation.service : Invocation → Service
  | read .. => .read
  | write .. => .write

/-- What a handler call produced. -/
inductive Outcome where
  | value (v : Value)
  | traced (v : Value) (tracer : TracerRef)
  | written
deriving DecidableEq, Inhabited

def Outcome.value? : Outcome → Option Value
  | value v | traced v _ => some v
  | written => none

/-! ### Operators -/

inductive Operator where
  | simple
  | notify
  | subscribe
  | update
  | delegate
deriving DecidableEq, Repr, Inhabited

namespace Operator

def symbol : Operator → String
  | simple => "="
  | notify => "::"
  | subscribe => "<<"
  | update => ">>"
  | delegate => ":="

def all : List Operator := [simple, notify, subscribe, update, delegate]

def ofSymbol? (s : String) : Option Operator := all.find? fun op => op.symbol = s

theorem ofSymbol?_symbol (op : Operator) : ofSymbol? op.symbol = some op := by cases op <;> decide

def readKind : Operator → Option HandlerKind
  | simple => some .standardRead
  | subscribe | delegate => some .tracedRead
  | notify | update => none

def writeKind : Operator → Option HandlerKind
  | notify => some .standardWrite
  | update | delegate => some .invertedWrite
  | simple | subscribe => none

theorem readKind_isRead {op : Operator} {k : HandlerKind} (h : op.readKind = some k) :
    k.isRead = true := by
  cases op <;> simp_all [readKind] <;> subst h <;> rfl

theorem writeKind_isRead {op : Operator} {k : HandlerKind} (h : op.writeKind = some k) :
    k.isRead = false := by
  cases op <;> simp_all [writeKind] <;> subst h <;> rfl

end Operator

/-! ### Bindings -/

/-- The handlers one operator installs on an attribute. -/
structure Binding where
  operator : Operator
  read : Option Handler
  write : Option Handler
deriving DecidableEq, Inhabited

/-- The same function serves both roles of a two-way operator. -/
def Operator.bind (op : Operator) (f : FunctionRef) (key : ScopeKey) : Binding where
  operator := op
  read := op.readKind.map fun kind => ⟨kind, f, key⟩
  write := op.writeKind.map fun kind => ⟨kind, f, key⟩

/-- Whether reads keep the attribute subscribed to what they consult. -/
def Binding.isTraced (b : Binding) : Bool :=
  match b.read with
  | some h => decide (h.kind = .tracedRead)
  | none => false

end LiveBinding
