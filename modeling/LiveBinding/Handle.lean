import LiveBinding.Scope
import LiveBinding.Target

/-! Handles: what can be held, and what a value or a context holds. -/
namespace LiveBinding

/-- Something that can be held. -/
inductive Handle where
  | object (o : ObjectId)
  | list (r : ListRef)
  | map (r : MapRef)
  | layer (l : LayerRef)
  | native (f : NativeRef)
  | function (f : FunctionRef)
  | tracer (t : TracerRef)
  | engine (e : EngineRef)
  | watcher (c : WatcherRef)
  | link (l : LinkRef)
deriving DecidableEq, Inhabited

def Value.handles : Value → List Handle
  | .list r => [.list r]
  | .map r => [.map r]
  | .object o => [.object o]
  | .native f => [.native f]
  | .tracer t => [.tracer t]
  | _ => []

def Dict.handles {κ : Type} (d : Dict κ Value) : List Handle :=
  d.entries.flatMap fun e => e.2.handles

def Environment.handles (e : Environment) : List Handle := e.globals.handles ++ e.builtins.handles

def Scope.handles (s : Scope) : List Handle :=
  .object s.owner :: .layer s.locals :: s.environment.handles ++
    s.change.toList.map .object ++ s.tracer.toList.map .tracer

def Arguments.handles : Arguments → List Handle
  | .none => []
  | .traced t => [.tracer t]
  | .inverted s v => s.handles ++ v.handles

def Target.handles : Target → List Handle
  | .item _ key => key.handles
  | .call _ args => args.flatMap Value.handles
  | .name _ | .attr .. | .unsupported _ => []

end LiveBinding
