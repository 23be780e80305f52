import LiveBinding.Number.Decimal
import LiveBinding.Text.Quoted
import LiveBinding.World.Equality

/-! Text of values and of the things around them. -/
namespace LiveBinding

/-- Numbers from `0.0001` up to `10 ^ 16` are written with a point. -/
def Value.floatLayout : Decimal.Layout := ⟨-3, 16, "NaN", "inf"⟩

namespace World

/-! ### Layouts -/

def commas (items : List String) : String := String.intercalate ", " items

def bracketed (items : List String) : String := "[" ++ commas items ++ "]"

def braced (items : List String) : String := "\x7b" ++ commas items ++ "\x7d"

/-- A name and its labelled fields. -/
def record (name : String) (fields : List (String × String)) : String :=
  name ++ " \x7b " ++ commas (fields.map fun f => f.1 ++ ": " ++ f.2) ++ " \x7d"

def truth (b : Bool) : String := if b then "true" else "false"

def integer (i : Int64) : String := toString i.toInt

def float (x : Binary64) : String := x.text Value.floatLayout

/-! ### Values -/

/-- Text of a value that is not looked into. -/
def scalarText (w : World) : Value → String
  | .null => "None"
  | .bool b => truth b
  | .int i => integer i
  | .float x => float x
  | .str s => Text.quote s
  | .list _ => "[]"
  | .map _ => braced []
  | .object o => s!"<{w.typeName o} #{o.number}>"
  | .native f => s!"<built-in function {w.nativeName f}>"
  | .tracer _ => "<Tracer>"

def textWithin (w : World) : Nat → Value → String
  | fuel + 1, .list r => bracketed ((w.items r).map (textWithin w fuel))
  | fuel + 1, .map r =>
    braced ((w.entries r).entries.map fun e => Text.quote e.1 ++ ": " ++ textWithin w fuel e.2)
  | _, v => w.scalarText v

/-- Text of a value for people who debug. -/
def text (w : World) (v : Value) : String := w.textWithin w.containers v

/-- A value that is not looked into, cut loose from the world. -/
def scalarSnapshot (w : World) : Value → Snapshot
  | .null => .null
  | .bool b => .bool b
  | .int i => .int i
  | .float x => .float x
  | .str s => .str s
  | .list _ => .list []
  | .map _ => .map []
  | .object o => .object (w.describe o)
  | .native f => .native (w.nativeName f)
  | .tracer _ => .tracer

def snapshotWithin (w : World) : Nat → Value → Snapshot
  | fuel + 1, .list r => .list ((w.items r).map (snapshotWithin w fuel))
  | fuel + 1, .map r => .map ((w.entries r).entries.map fun e => (e.1, snapshotWithin w fuel e.2))
  | _, v => w.scalarSnapshot v

def snapshot (w : World) (v : Value) : Snapshot := w.snapshotWithin w.containers v

/-! ### Targets -/

def names (ns : List String) : String := bracketed (ns.map Text.quote)

def pathText (p : Path) : String :=
  record "TargetBase" [("root", Text.quote p.root), ("hops", names p.hops)]

def targetText (w : World) : Target → String
  | .name n => record "Name" [("name", Text.quote n)]
  | .attr base n => record "Attribute" [("base", pathText base), ("attr", Text.quote n)]
  | .item base key => record "Item" [("base", pathText base), ("key", w.text key)]
  | .call f args =>
    record "Call" [("func", Text.quote f), ("args", bracketed (args.map w.text))]
  | .unsupported shape => record "Unsupported" [("shape", Text.quote shape)]

/-! ### Everything else -/

def scopeText (w : World) (s : Scope) : String :=
  record "DynamicScope"
    [("owner", Text.quote (w.describe s.owner)), ("locals", toString (w.layer s.locals).size),
      ("change", truth s.change.isSome), ("tracer", truth s.tracer.isSome)]

def inverterText (w : World) (s : Scope) : String := record "Inverter" [("scope", w.scopeText s)]

def tracerText (w : World) (t : Tracer) : String :=
  record "Tracer"
    [("owner", Text.quote (w.describe t.owner)), ("name", Text.quote t.name),
      ("dependencies", bracketed (t.dependencies.map fun d =>
        "(" ++ w.describe d.object ++ ", " ++ Text.quote d.name ++ ")"))]

def environmentText (e : Environment) : String :=
  record "ModuleEnv"
    [("globals", toString e.globals.size), ("builtins", toString e.builtins.size)]

def functionText (name : String) (e : Environment) : String :=
  record "ExprFunction" [("name", Text.quote name), ("env", environmentText e)]

def changeText (w : World) (c : Change) : String :=
  record "ChangeRecord"
    [("type", c.kind.text.capitalize), ("object", Text.quote (w.describe c.owner)),
      ("name", Text.quote c.name), ("oldvalue", w.text c.old), ("value", w.text c.new)]

def registryText (attributes : Nat) : String :=
  record "Observers" [("attributes", toString attributes)]

def subscriptionText (s : Subscription) : String :=
  record "Subscription" [("name", Text.quote s.name)]

def bundleText (ss : List Subscription) : String :=
  record "SubscriptionSet" [("names", names (ss.map Subscription.name))]

def policyText : FailurePolicy → String
  | .propagate => "Propagate"
  | .logAndContinue => "LogAndContinue"

def configText (c : Config) : String :=
  record "EngineConfig"
    [("failure_policy", policyText c.policy), ("max_depth", toString c.maxDepth),
      ("trace_subscriptions", truth c.traceSubscriptions)]

def engineText (e : Engine) : String :=
  record "ExpressionEngine" [("config", configText e.config), ("bindings", names e.names)]

def nativeText (name : String) : String := record "NativeFn" [("name", Text.quote name)]

def handlerText (kind : HandlerKind) (function : String) : String :=
  s!"{kind.text} handler for {function}"

end World

end LiveBinding
