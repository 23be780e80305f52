import LiveBinding.Number.Numeral
import LiveBinding.World

/-! The default builtins: three constants and eleven native functions.

A builtin is a program like any other native function; what it does to the world it
does by asking. -/
namespace LiveBinding.Builtin

def typeName (v : Value) : Program String := .query (.typeName v)

def refuse {α : Type} (message : String) : Program α := .fail (.evaluation message)

/-! ### Arguments -/

/-- Refuses a number of arguments outside `least` to `most`. -/
def arity (name : String) (args : List Value) (least most : Nat) : Program Unit :=
  if least ≤ args.length ∧ args.length ≤ most then pure ()
  else if least = most then
    refuse s!"{name}() takes exactly {least} argument(s) ({args.length} given)"
  else refuse s!"{name}() takes {least} to {most} arguments ({args.length} given)"

/-- The argument at a place that the arity promises. -/
def argument (args : List Value) (n : Nat) : Value := args[n]?.getD .null

def attributeName (function : String) (v : Value) : Program String :=
  match v with
  | .str s => pure s
  | other => do
    refuse s!"{function}(): attribute name must be str, not {← typeName other}"

/-! ### Attributes -/

/-- With a default, a refused access gives the default. -/
def getattr (args : List Value) : Program Value := do
  arity "getattr" args 2 3
  let name ← attributeName "getattr" (argument args 1)
  match ← (Program.request (.getAttr (argument args 0) name)).attempt with
  | .ok v => return v
  | .error (.access cause) =>
    match args[2]? with
    | some v => return v
    | none => .fail (.access cause)
  | .error e => .fail e

def setattr (args : List Value) : Program Value := do
  arity "setattr" args 3 3
  let name ← attributeName "setattr" (argument args 1)
  Program.request (.setAttr (argument args 0) name (argument args 2))
  return .null

def hasattr (args : List Value) : Program Value := do
  arity "hasattr" args 2 2
  let name ← attributeName "hasattr" (argument args 1)
  match argument args 0 with
  | .object o => return .bool (← .query (.hasAttribute o name))
  | _ => return .bool false

/-! ### Conversions -/

def length (args : List Value) : Program Value := do
  arity "len" args 1 1
  match argument args 0 with
  | .str s => return .int (.ofNat s.toList.length)
  | .list r => return .int (.ofNat (← Program.query (.items r)).length)
  | .map r => return .int (.ofNat (← Program.query (.entries r)).size)
  | other => refuse s!"object of type '{← typeName other}' has no len()"

/-- Text stays as it is, truth values are written in capitals, anything else as people
who debug see it. -/
def toText (args : List Value) : Program Value := do
  arity "str" args 0 1
  match args.head? with
  | none => return .str ""
  | some (.str s) => return .str s
  | some (.bool true) => return .str "True"
  | some (.bool false) => return .str "False"
  | some other => return .str (← .query (.text other))

def toInt (args : List Value) : Program Value := do
  arity "int" args 0 1
  match args.head? with
  | none => return .int 0
  | some (.float x) => return .int x.truncate
  | some (.str s) =>
    match Numeral.int64? (Text.trim s.toList) with
    | some i => return .int i
    | none => refuse s!"invalid literal for int(): {← Program.query (.text (.str s))}"
  | some other =>
    match other.asInt with
    | some i => return .int i
    | none => refuse s!"int() argument must be a string or a number, not '{← typeName other}'"

def toFloat (args : List Value) : Program Value := do
  arity "float" args 0 1
  match args.head? with
  | none => return .float .zero
  | some (.str s) =>
    match Numeral.float? (Text.trim s.toList) with
    | some x => return .float x
    | none => refuse s!"could not convert string to float: {← Program.query (.text (.str s))}"
  | some (.bool b) => return .float (if b then .one else .zero)
  | some other =>
    match other.asFloat with
    | some x => return .float x
    | none => refuse s!"float() argument must be a string or a number, not '{← typeName other}'"

def toBool (args : List Value) : Program Value := do
  arity "bool" args 0 1
  match args.head? with
  | none => return .bool false
  | some v => return .bool (← .query (.isTrue v))

/-! ### Numbers -/

/-- The most negative integer has no absolute value. -/
def absolute (args : List Value) : Program Value := do
  arity "abs" args 1 1
  match argument args 0 with
  | .int i =>
    if i = Int64.minValue then refuse "integer overflow in abs()"
    else return .int (if i < 0 then -i else i)
  | .float x => return .float x.abs
  | other => refuse s!"bad operand type for abs(): '{← typeName other}'"

/-- The first item that no later item is better than, comparing items as floating-point
numbers. -/
def best (name : String) (better : Binary64 → Binary64 → Bool) :
    Option (Binary64 × Value) → List Value → Program (Option (Binary64 × Value))
  | found, [] => pure found
  | found, v :: rest =>
    match v.asFloat with
    | none => do refuse s!"{name}() arguments must be numbers, not '{← typeName v}'"
    | some key =>
      match found with
      | none => best name better (some (key, v)) rest
      | some (least, u) =>
        best name better (some (if better key least then (key, v) else (least, u))) rest

/-- The extreme of the arguments, or of the items of a single list. -/
def extreme (name : String) (better : Binary64 → Binary64 → Bool) (args : List Value) :
    Program Value := do
  let items ← match args with
    | [.list r] => Program.query (.items r)
    | _ => pure args
  match ← best name better none items with
  | some (_, v) => return v
  | none => refuse s!"{name}() arg is an empty sequence"

def minimum : List Value → Program Value := extreme "min" Binary64.less

def maximum : List Value → Program Value := extreme "max" fun x y => Binary64.less y x

/-! ### The layer -/

/-- The native functions, in the order of their references. -/
def natives : List Native :=
  [⟨"getattr", [], getattr⟩, ⟨"setattr", [], setattr⟩, ⟨"hasattr", [], hasattr⟩,
    ⟨"len", [], length⟩, ⟨"str", [], toText⟩, ⟨"int", [], toInt⟩, ⟨"float", [], toFloat⟩,
    ⟨"bool", [], toBool⟩, ⟨"abs", [], absolute⟩, ⟨"min", [], minimum⟩, ⟨"max", [], maximum⟩]

/-- Names and values of the builtins. -/
def layer : Dict String Value :=
  Dict.ofList ([("None", .null), ("True", .bool true), ("False", .bool false)] ++
    natives.mapIdx fun i n => (n.name, .native ⟨i⟩))

/-- Globals over the default builtins. -/
def environment (globals : Dict String Value) : Environment := ⟨globals, layer⟩

/-- The world in which nothing has happened yet. -/
def world : World := .initial natives.toArray

end LiveBinding.Builtin
