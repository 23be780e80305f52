import LiveBinding.Action.Invert

/-! Answering requests.

`respond` says how each request is answered by someone who has a performer for the
requests that come up on the way. `perform` ties the knot: with `n + 1` steps it
answers by responding with `n`, and with none it does not finish. -/
namespace LiveBinding

def spend : Action Bool := fun w =>
  match w.desk.allowance with
  | 0 => some (.ok false, w)
  | n + 1 => some (.ok true, w.modifyDesk fun d => {d with allowance := n})

def respond (self : Performer) : Performer
  | _, .query q => Action.read fun w => q.answer w
  | _, .holding hs p => Action.holding hs (p.run self)
  | _, .newList items => do return .list (← Action.add (·.addList items))
  | _, .newMap entries => do return .map (← Action.add (·.addMap entries))
  | _, .newNative name captured code => fun w =>
    let (w, f) := w.addNative ⟨name, captured, code⟩
    some (.ok (.native f), w)
  | _, .getAttr v name => getAttr self v name
  | _, .setAttr v name x => setAttr self v name x
  | _, .getItem v key => fun w => some (w.getItem v key, w)
  | _, .setItem v key x => setItem v key x
  | _, .call f args => callValue self f args
  | _, .newObject b => newObject b
  | _, .newChange c => Action.add (·.addObject (.change c))
  | _, .readAttr o name => readAttr self o name
  | _, .emit o name v => emit self o name v
  | _, .clear o name => clear self o name
  | _, .populate o => populate self o
  | _, .bind o name op f key => bindAttribute o name op f key
  | _, .localSlot o key => localSlot o key
  | _, .newLayer locals => Action.add (·.addLayer locals)
  | _, .storeLocal l name v => storeLocal l name v
  | _, .getName s name => getName self s name
  | _, .setName s name v => setName self s name v
  | _, .delName s name => delName s name
  | _, .invert s target v => invert self s target v
  | _, .newFunction name environment code => fun w =>
    let (w, f) := w.addFunction ⟨name, environment, code⟩
    some (.ok f, w)
  | _, .callFunction f args s => callFunction self f args s
  | _, .freshKey =>
    Action.add fun w => ({w with freshKeys := w.freshKeys + 1}, .fresh w.freshKeys)
  | _, .newRegistry => Action.add (·.addRegistry .empty)
  | _, .subscribe r name code => do
    let c ← Action.add (·.addWatcher ⟨code⟩)
    Engine.observe r name (.watcher c)
    return ⟨name, c⟩
  | _, .notify r change => notify self r change
  | _, .newTracer owner name => Action.add (·.addTracer (.start owner name))
  | _, .trace t o name => record t o name
  | _, .loadAttr t v name => loadAttr self t v name
  | _, .callTraced t f args => callTraced self t f args
  | _, .finalize t => finalize t
  | _, .invoke h i => h.invoke self i
  | _, .readWith h owner name => h.read self owner name
  | _, .readTraced h owner name => h.readTraced self owner name
  | _, .writeWith h owner name change => h.write self owner name change
  | _, .newEngine config => newEngine config
  | _, .addBinding e name op f key =>
    Action.update (·.modifyEngine e (·.addBinding name (op.bind f key)))
  | _, .readBinding e owner name =>
    Action.holding [.engine e, .object owner] (Engine.read self e owner name)
  | _, .writeBinding e owner name change =>
    Action.holding [.engine e, .object owner, .object change]
      (Engine.write self e owner name change)
  | _, .updateBinding e owner name => Engine.update self e owner name
  | _, .clearSubscriptions e =>
    Action.update (·.modifyEngine e Engine.clear)
  | _, .globalConfig => globalConfig
  | _, .setGlobalConfig c => do
    let _ ← globalConfig
    Action.update fun w => {w with config := some c}
  | _, .setVariables v =>
    Action.update fun w =>
      { w with
        hostVariables :=
          { policy := v.policy.or w.hostVariables.policy
            depth := v.depth.or w.hostVariables.depth } }
  | _, .keep label k => Action.update (·.modifyDesk (·.keep label k))
  | _, .release drawer label => Action.update (·.modifyDesk (·.release drawer label))
  | _, .record e => Action.update (·.modifyDesk (·.record e))
  | _, .spend => spend

/-- Answers requests within so many nested steps. -/
def perform : Nat → Performer
  | 0 => fun _ _ _ => none
  | n + 1 => respond (perform n)

end LiveBinding
