import LiveBinding.Proofs.LedgerFrame
import LiveBinding.Proofs.Persistence

/-! Tables that only grow.

Registries and tracers are referred to by their place in a table. No request makes a table smaller,
so a reference that is good remains good, and what is added is not what was there before. -/
namespace LiveBinding.World
variable {w w' : World}

/-- The tables of registries and of tracers have not become smaller. -/
structure Grows (w w' : World) : Prop where
  registries : w.registries.size ≤ w'.registries.size
  tracers : w.tracers.size ≤ w'.tracers.size

namespace Grows

theorem still (registries : w'.registries.size = w.registries.size)
    (tracers : w'.tracers.size = w.tracers.size) : w.Grows w' :=
  ⟨Nat.le_of_eq registries.symm, Nat.le_of_eq tracers.symm⟩

theorem steady : Steady World.Grows where
  trans first next :=
    ⟨Nat.le_trans first.registries next.registries, Nat.le_trans first.tracers next.tracers⟩
  quiet quiet := still (congrArg Array.size quiet.registries) (congrArg Array.size quiet.tracers)

theorem addRegistry (x : Registry) : w.Grows (w.addRegistry x).1 where
  registries := by
    show _ ≤ (w.registries.push x).size
    rw [Array.size_push]
    exact Nat.le_succ _
  tracers := Nat.le_refl _

theorem addTracer (x : Tracer) : w.Grows (w.addTracer x).1 where
  registries := Nat.le_refl _
  tracers := by
    show _ ≤ (w.tracers.push x).size
    rw [Array.size_push]
    exact Nat.le_succ _

theorem modifyRegistry (r : RegistryRef) (f : Registry → Registry) :
    w.Grows (w.modifyRegistry r f) := still Array.size_modify rfl

theorem modifyTracer (t : TracerRef) (f : Tracer → Tracer) : w.Grows (w.modifyTracer t f) :=
  still rfl Array.size_modify

end Grows

/-- Nothing is held on to that was not. -/
theorem steady_held : Steady fun w w' : World => w'.held = w.held :=
  ⟨fun first next => next.trans first, fun quiet => quiet.held⟩

/-- What requests do to tables, and what they hold on to. -/
structure Spans (w w' : World) : Prop extends w.Persists w', w.Grows w' where
  held : w'.held = w.held

theorem frame_spans : Frame World.Spans where
  trans first next :=
    { toPersists := first.toPersists.trans next.toPersists
      toGrows := Grows.steady.trans first.toGrows next.toGrows
      held := next.held.trans first.held }
  quiet quiet := ⟨.quiet quiet, Grows.steady.quiet quiet, quiet.held⟩
  hold inside := ⟨frame_persists.hold inside.toPersists, {inside.toGrows with}, rfl⟩
  limited inside := ⟨frame_persists.limited inside.toPersists, {inside.toGrows with}, inside.held⟩
  nested inside := ⟨frame_persists.nested inside.toPersists, {inside.toGrows with}, inside.held⟩
  guarded {w w' e name} inside := by
    have up : w.Grows (w.guard e name) ∧ (w.guard e name).held = w.held := by
      unfold guard
      split <;> exact ⟨.still rfl rfl, rfl⟩
    have down : w'.Grows (w.unguard w' e name) ∧ (w.unguard w' e name).held = w'.held := by
      unfold unguard
      split <;> exact ⟨.still rfl rfl, rfl⟩
    exact {
      toPersists := frame_persists.guarded inside.toPersists
      toGrows := Grows.steady.trans (Grows.steady.trans up.1 inside.toGrows) down.1
      held := (down.2.trans inside.held).trans up.2 }
  change w c := ⟨frame_persists.change w c, .still rfl rfl, rfl⟩
  view w o t there := ⟨frame_persists.view w o t there, .still rfl rfl, rfl⟩
  object b w r w' run :=
    ⟨frame_persists.object b w r w' run,
      Grows.steady.newObject b (fun _ => .addRegistry _) (fun _ _ => .still rfl rfl) w r w' run,
      steady_held.newObject b (fun _ => rfl) (fun _ _ => rfl) w r w' run⟩
  store w o d name v known free has :=
    ⟨frame_persists.store w o d name v known free has, .still rfl rfl, rfl⟩
  unset w o d name old known free stored :=
    ⟨frame_persists.unset w o d name old known free stored, .still rfl rfl, rfl⟩
  slot w o key free := ⟨frame_persists.slot w o key free, .still rfl rfl, rfl⟩
  bind o name op f key w r w' run :=
    ⟨frame_persists.bind o name op f key w r w' run,
      Grows.steady.bindAttribute o name op f key (fun _ => .still rfl rfl)
        (fun _ _ => .still rfl rfl) (fun _ _ => .still rfl rfl) (fun _ _ => .still rfl rfl)
        w r w' run,
      steady_held.bindAttribute o name op f key (fun _ => rfl) (fun _ _ => rfl) (fun _ _ => rfl)
        (fun _ _ => rfl) w r w' run⟩
  registry w := ⟨frame_persists.registry w, .addRegistry _, rfl⟩
  observe w r name c := ⟨frame_persists.observe w r name c, .modifyRegistry r _, rfl⟩
  prune w r name xs found := ⟨frame_persists.prune w r name xs found, .modifyRegistry r _, rfl⟩
  tell w x change := ⟨frame_persists.tell w x change, .still rfl rfl, rfl⟩
  tracer w owner name := ⟨frame_persists.tracer w owner name, .addTracer _, rfl⟩
  trace w t o name := ⟨frame_persists.trace w t o name, .modifyTracer t _, rfl⟩
  drain w t := ⟨frame_persists.drain w t, .modifyTracer t _, rfl⟩
  engine w config := ⟨frame_persists.engine w config, .still rfl rfl, rfl⟩
  addBinding w e name b := ⟨frame_persists.addBinding w e name b, .still rfl rfl, rfl⟩
  clear w e := ⟨frame_persists.clear w e, .still rfl rfl, rfl⟩
  bound spans := frame_persists.bound spans.toPersists
  relink w e owner name t bound r w' run :=
    ⟨frame_persists.relink w e owner name t bound r w' run,
      Grows.steady.relink e owner name t (fun _ _ => .still rfl rfl) (fun _ => .modifyTracer t _)
        (fun _ _ => .still rfl rfl) (fun _ r _ _ => .modifyRegistry r _)
        (fun _ _ => .still rfl rfl) w r w' run,
      steady_held.relink e owner name t (fun _ _ => rfl) (fun _ => rfl) (fun _ _ => rfl)
        (fun _ _ _ _ => rfl) (fun _ _ => rfl) w r w' run⟩

/-- References to watchers stay good. -/
theorem Persists.watchers_size (persists : w.Persists w') :
    w.watchers.size ≤ w'.watchers.size := by
  by_contra smaller
  have inside : w'.watchers.size < w.watchers.size := Nat.lt_of_not_le smaller
  have there := persists.watchers (Array.getElem?_eq_getElem inside)
  rw [Array.getElem?_eq_none (Nat.le_refl _)] at there
  cases there

end LiveBinding.World
