import LiveBinding.Proofs.Calm

/-! The chronicle of an attribute.

A chronicle goes through the changes of an attribute that are made between two worlds, one after
the other: each was sent by a move on the attribute as it was by then, and before anything else
happened to the attribute, its observers and its write handler had seen it. So the changes can
be replayed, and each tells what the ones before it have come to. -/
namespace LiveBinding

/-! ### What is done about a change -/

/-- A function has been run on a change of an attribute that it is bound to by `::`. The write
handler has been called once; it has run the body unless there were too many bodies running. -/
inductive Answered (self : Performer) (a : Dependency) (f : FunctionRef) (i : ObjectId)
    (w w' : World) : Prop where
  | once {e : EngineRef} {key : ScopeKey} {r r' : Except BindError Unit} {w₁ w₂ : World}
      (engine : w.engineOf? a.object = some e)
      (bound : (w.engine e).bindings.get? a.name = some (Operator.notify.bind f key))
      (wrote : (Handler.mk .standardWrite f key).write self a.object a.name i (w.engaged e) =
        some (r, w₁))
      (settled : Engine.settle (w.engine e).config.policy () a.object a.name r w₁ = some (r', w₂))
      (leave : w₂.Around w')
      (ran : w.depth < (w.engine e).config.maxDepth →
        let h : Handler := ⟨.standardWrite, f, key⟩
        ∃ r u, ((w.engaged e).code f (h.scopeOn a.object i (w.engaged e)) .none).run self
          (h.writing a.object i (w.engaged e)) = some (r, u) ∧ u.Around w₁)

/-- What the engine of an object does about a change, if the object has one, has been done. -/
inductive Written (self : Performer) (a : Dependency) (i : ObjectId) (w w' : World) : Prop where
  | nothing (none : w.engineOf? a.object = none) (leave : w.Around w')
  | write {e : EngineRef} {r : Except BindError Unit} {u : World}
      (engine : w.engineOf? a.object = some e)
      (wrote : Engine.write self e a.object a.name i (w.hold [.engine e]) = some (r, u))
      (leave : u.Around w')

/-- A change has been made known. The observers that were held when it was announced have been told
one after the other, the watcher once among them, and then the engine of the object. The function
that is bound by `::`, if there is one, has been run on the change by that. -/
inductive Delivered (self : Performer) (a : Dependency) (x : WatcherRef) (f : Option FunctionRef)
    (c : Change) (w w' : World) : Prop where
  | told {r : RegistryRef} {last : World} (observable : w.registryOf? a.object = some r)
      (once : ((w.announce c).liveObservers (w.observersOf a)).count (.watcher x) = 1)
      (told : Told self ⟨w.objects.size⟩ ((w.announce c).liveObservers (w.observersOf a))
        ((w.announce c).notifying r ⟨w.objects.size⟩ c) last)
      (written : Written self a ⟨w.objects.size⟩ {last with held := (w.announce c).held} w')
      (answered : ∀ g, f = some g →
        Answered self a g ⟨w.objects.size⟩ {last with held := (w.announce c).held} w')

/-- What has become known of an attribute between two worlds, in order: to a watcher, and to the
function that is bound to the attribute by `::`. -/
inductive Chronicle (a : Dependency) (x : WatcherRef) (f : Option FunctionRef) :
    World → List Change → World → Prop where
  | still {w w' : World} (changes : w'.changes a = w.changes a)
      (heard : w'.heard a x = w.heard a x) (stored : w'.valueOf? a = w.valueOf? a) :
      Chronicle a x f w [] w'
  | change {n : Nat} {move : Move} {c : Change} {w u w' : World}
      (sends : move.sends a.object a.name w = some (c, u))
      (delivered : Delivered (performCalm a n) a x f c u w')
      (changes : w'.changes a = w.changes a ++ [c]) (heard : w'.heard a x = w.heard a x ++ [c])
      (stored : w'.valueOf? a = c.replay (w.valueOf? a)) : Chronicle a x f w [c] w'
  | append {cs cs' : List Change} {w v w' : World} (first : Chronicle a x f w cs v)
      (next : Chronicle a x f v cs' w') : Chronicle a x f w (cs ++ cs') w'

namespace Chronicle
variable {a : Dependency} {x : WatcherRef} {f : Option FunctionRef} {w w' : World}
  {cs : List Change}

/-- The chronicle tells of all changes that have been made. -/
theorem changes (chronicle : Chronicle a x f w cs w') : w'.changes a = w.changes a ++ cs := by
  induction chronicle with
  | still changes => rw [changes, List.append_nil]
  | change _ _ changes => exact changes
  | append _ _ ih ih' => rw [ih', ih, List.append_assoc]

/-- The watcher has heard of them all, in order. -/
theorem heard (chronicle : Chronicle a x f w cs w') : w'.heard a x = w.heard a x ++ cs := by
  induction chronicle with
  | still _ heard => rw [heard, List.append_nil]
  | change _ _ _ heard => exact heard
  | append _ _ ih ih' => rw [ih', ih, List.append_assoc]

/-- Whoever replays the changes comes to what is stored. -/
theorem replay (chronicle : Chronicle a x f w cs w') :
    cs.foldl Change.replay (w.valueOf? a) = w'.valueOf? a := by
  induction chronicle with
  | still _ _ stored => exact stored.symm
  | change _ _ _ _ stored => exact stored.symm
  | append _ _ ih ih' => rw [List.foldl_append, ih, ih']

/-- What is around a chronicle may do anything else. -/
theorem around {v v' : World} (enter : Chronicle a x f w [] v) (chronicle : Chronicle a x f v cs v')
    (leave : Chronicle a x f v' [] w') : Chronicle a x f w cs w' := by
  have all := enter.append (chronicle.append leave)
  rwa [List.nil_append, List.append_nil] at all

/-- What is in progress does not matter. -/
theorem of_tables (objects : w'.objects = w.objects) (told : w'.told = w.told) :
    Chronicle a x f w [] w' := by
  refine .still (World.changes_of_objects objects a) (World.heard_of_told told a x) ?_
  simp only [World.valueOf?, World.stored?, World.declared?, World.entity?, objects]

/-- Each change tells what was stored, which is what the changes before it come to. -/
theorem tells (chronicle : Chronicle a x f w cs w') {before after : List Change} {c : Change}
    (split : cs = before ++ c :: after) :
    ∃ v, v.valueOf? a = before.foldl Change.replay (w.valueOf? a) ∧ c.Tells v ∧ c.About a := by
  induction chronicle generalizing before after with
  | still => simp at split
  | @change _ _ c' w u w' sends =>
    have sent := Move.sent_of_sends sends
    rw [eq_comm, List.append_eq_singleton_iff] at split
    rcases split with ⟨rfl, same⟩ | ⟨_, same⟩
    · cases same
      exact ⟨w, rfl, sent.tells, sent.about⟩
    · cases same
  | @append first next w v w' earlier later ih ih' =>
    rw [List.append_eq_append_iff] at split
    rcases split with ⟨rest, rfl, split⟩ | ⟨rest, rfl, split⟩
    · obtain ⟨u, value, told⟩ := ih' split
      exact ⟨u, by rw [value, List.foldl_append, earlier.replay], told⟩
    · cases rest with
      | nil =>
        have begins : next = [] ++ c :: after := split.symm
        obtain ⟨u, value, told⟩ := ih' begins
        refine ⟨u, ?_, told⟩
        rw [value, ← earlier.replay, List.append_nil]
        rfl
      | cons c' rest =>
        cases split
        exact ih rfl

end Chronicle

end LiveBinding
