import LiveBinding.Value

/-! The shapes an assignment can be pushed through. -/
namespace LiveBinding

/-- A root name and the attributes to follow from it. -/
structure Path where
  root : String
  hops : List String
deriving DecidableEq, Inhabited

def Path.text (p : Path) : String := String.join (p.root :: p.hops.map fun h => "." ++ h)

/-- What an expression looks like to someone who wants to assign to it. -/
inductive Target where
  | name (name : String)
  | attr (base : Path) (name : String)
  | item (base : Path) (key : Value)
  | call (function : String) (arguments : List Value)
  | unsupported (shape : String)
deriving Inhabited

end LiveBinding
