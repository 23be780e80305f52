import LiveBinding.Proofs.Frame

/-! What changes an attribute.

Attributes are assigned, emitted and cleared. Five requests come to that, some of them after they
have found the object that is meant. -/
namespace LiveBinding

/-- The ways of changing an attribute of an object. -/
inductive Move where
  | assign (x : Value)
  | emit (x : Value)
  | clear

def Move.run (self : Performer) (o : ObjectId) (name : String) : Move → Action Unit
  | .assign x => LiveBinding.assign self o name x
  | .emit x => LiveBinding.emit self o name x
  | .clear => LiveBinding.clear self o name

/-- The request, asked in one world, comes to changing an attribute, in another. Only what finds
the object that is meant comes in between. -/
inductive Moves (self : Performer) (o : ObjectId) (name : String) :
    {α : Type} → Request α → World → Move → World → Prop where
  | setAttr {x : Value} {w : World} :
      Moves self o name (.setAttr (.object o) name x) w (.assign x) w
  | emit {x : Value} {w : World} : Moves self o name (.emit o name x) w (.emit x) w
  | clear {w : World} : Moves self o name (.clear o name) w .clear w
  | setName {s : Scope} {x : Value} {w : World} (free : isReserved name = false)
      (nearest : w.nearest? s.owner name = some o) :
      Moves self o name (.setName s name x) w (.assign x) w
  | invertName {s : Scope} {x : Value} {w : World} (free : isReserved name = false)
      (nearest : w.nearest? s.owner name = some o) :
      Moves self o name (.invert s (.name name) x) w (.assign x) (w.hold ([] ++ x.handles))
  | invertAttr {s : Scope} {base : Path} {x : Value} {w v : World}
      (resolved : resolve self s base (w.hold ([] ++ x.handles)) = some (.ok (.object o), v)) :
      Moves self o name (.invert s (.attr base name) x) w (.assign x) v
  | invertCall {s : Scope} {function : String} {f : NativeRef} {x : Value} {w v : World}
      (called : getName self s function (w.hold
        ((Target.call function [.object o, .str name]).handles ++ x.handles)) =
          some (.ok (.native f), v))
      (reads : v.nativeName f = getattrName) :
      Moves self o name (.invert s (.call function [.object o, .str name]) x) w (.assign x) v

/-- The request looks for the attribute that a name means while it holds a value. -/
def Request.InvertsName : {α : Type} → Request α → Prop
  | _, .invert _ (.name _) _ => True
  | _, _ => False

/-- The request, asked in one world, makes a move in another. A value that is assigned through a
name may keep a parent alive that has the attribute, so the attribute is the nearest one then. -/
inductive Makes (self : Performer) (o : ObjectId) (name : String) :
    {α : Type} → Request α → World → Move → World → Prop where
  | moves {α : Type} {q : Request α} {w v : World} {move : Move} (plain : ¬ q.InvertsName)
      (moves : Moves self o name q w move v) : Makes self o name q w move v
  | invertName {s : Scope} {x : Value} {w : World} (free : isReserved name = false)
      (nearest : (w.hold ([] ++ x.handles)).nearest? s.owner name = some o) :
      Makes self o name (.invert s (.name name) x) w (.assign x) (w.hold ([] ++ x.handles))

end LiveBinding
