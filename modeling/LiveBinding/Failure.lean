import LiveBinding.Handler
import LiveBinding.Target

/-! Why a binding fails.

Each constructor is a cause and carries what the cause is about; the wording is in the
`message` functions and nowhere else. -/
namespace LiveBinding

/-- An object or container refuses an access. -/
inductive AccessError where
  | noSuchAttribute (typeName name : String)
  | readOnly (typeName name : String)
  | notSubscriptable (typeName : String)
  | badKey (typeName key : String)
deriving DecidableEq, Inhabited

def AccessError.message : AccessError → String
  | noSuchAttribute typeName name => s!"'{typeName}' object has no attribute '{name}'"
  | readOnly typeName name => s!"attribute '{name}' of '{typeName}' object is read-only"
  | notSubscriptable typeName => s!"'{typeName}' object does not support item assignment"
  | badKey typeName key => s!"invalid key {key} for '{typeName}' object"

/-- Why no assignment follows from a target. -/
inductive Obstacle where
  | reserved (name : String)
  | refused (cause : AccessError)
  | noInverse (shape : String)
  | notInvertible (function : String)
  | badArguments
  | unresolvedBase (name : String)
  | missingHop (typeName hop : String) (path : Path)
deriving DecidableEq, Inhabited

def Obstacle.message : Obstacle → String
  | reserved name => s!"cannot assign to reserved name '{name}'"
  | refused cause => cause.message
  | noInverse shape => s!"no inverse for expression '{shape}'"
  | notInvertible function => s!"no inverse for call to '{function}'"
  | badArguments => "getattr target must be (object, attribute name)"
  | unresolvedBase name => s!"base name '{name}' does not resolve"
  | missingHop typeName hop path =>
    s!"'{typeName}' has no attribute '{hop}' while resolving '{path.text}'"

inductive BindError where
  | nameResolution (name : String)
  | evaluation (message : String)
  | access (cause : AccessError)
  | inversion (obstacle : Obstacle)
  | operatorMismatch (handler : HandlerKind) (service : Service)
  | recursionLimit (object name : String) (depth : Nat)
deriving DecidableEq, Inhabited

namespace BindError

def message : BindError → String
  | nameResolution name => s!"name '{name}' is not defined"
  | evaluation message => message
  | access cause => cause.message
  | inversion obstacle => s!"can't assign to expression: {obstacle.message}"
  | operatorMismatch handler service =>
    s!"{handler.text} handler cannot service a {service.text} invocation"
  | recursionLimit object name depth =>
    s!"maximum binding depth {depth} exceeded evaluating '{name}' on {object}"

def noSuchAttribute (typeName name : String) : BindError :=
  .access (.noSuchAttribute typeName name)

def readOnly (typeName name : String) : BindError := .access (.readOnly typeName name)

def isInversion : BindError → Bool
  | inversion _ => true
  | _ => false

def unresolvedName : BindError → Option String
  | nameResolution name => some name
  | _ => none

end BindError

end LiveBinding
