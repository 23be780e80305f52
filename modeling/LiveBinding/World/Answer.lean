import LiveBinding.World.Rendering
import LiveBinding.World.Resolution

/-! The answers to queries. A query reads the world and leaves it as it is. -/
namespace LiveBinding

def Query.answer (w : World) : {α : Type} → Query α → α
  | _, .typeName v => w.typeNameOf v
  | _, .isTrue v => w.isTrue v
  | _, .equal a b => w.equal a b
  | _, .text v => w.text v
  | _, .snapshot v => w.snapshot v
  | _, .items r => w.items r
  | _, .entries r => w.entries r
  | _, .nativeName f => w.nativeName f
  | _, .describe o => w.describe o
  | _, .hasAttribute o name => w.hasAttribute o name
  | _, .stored o name => w.stored? o name
  | _, .parent o => w.parent? o
  | _, .localStorage o key => w.localStorage? o key
  | _, .layer l => w.layer l
  | _, .registryOf o => w.registryOf? o
  | _, .engineOf o => w.engineOf? o
  | _, .change o => w.change? o
  | _, .visible s name => w.visible s name
  | _, .functionName f => w.functionName f
  | _, .functionEnvironment f => w.functionEnvironment f
  | _, .tracer t => w.tracer t
  | _, .observerCount r name =>
    ((w.registry r).observers name).countP fun x => w.isLive x.handle
  | _, .observedNames r => (w.registry r).slots.size
  | _, .engine e => w.engine e
  | _, .variablesConfig => Config.ofVariables w.hostVariables
  | _, .kept drawer label => w.desk.kept.get? (drawer, label)
  | _, .scopeText s => w.scopeText s
  | _, .inverterText s => w.inverterText s
  | _, .tracerText t => w.tracerText (w.tracer t)
  | _, .changeText o => (w.change? o).elim "" w.changeText

end LiveBinding
