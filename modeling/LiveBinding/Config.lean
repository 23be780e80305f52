import LiveBinding.Number.Numeral

/-! Configuration of engines.

A configuration is a policy for failures, a limit on nested bodies and a switch for
subscriptions. The host's variables can override the first two. -/
namespace LiveBinding

inductive FailurePolicy where
  | propagate
  | logAndContinue
deriving DecidableEq, Repr, Inhabited

/-- Reads a policy's name; blanks around it and its case do not matter. -/
def FailurePolicy.ofText? (s : String) : Option FailurePolicy :=
  let name := String.ofList ((Text.trim s.toList).map Char.toLower)
  if name = "propagate" ∨ name = "raise" then some .propagate
  else if name = "log" ∨ name = "log-and-continue" ∨ name = "continue" then some .logAndContinue
  else none

structure Config where
  policy : FailurePolicy := .propagate
  /-- Bodies that may run at once. -/
  maxDepth : Nat := 64
  /-- Whether traced reads subscribe to what they consulted. -/
  traceSubscriptions : Bool := true
deriving DecidableEq, Repr, Inhabited

namespace Config

def default : Config := {}

/-- At least one body may always run. -/
def withMaxDepth (c : Config) (depth : Nat) : Config := {c with maxDepth := max depth 1}

/-- A limit is a positive count; anything else leaves the default. -/
def depthOfText? (s : String) : Option Nat :=
  (Numeral.count? (Text.trim s.toList)).filter (0 < ·)

end Config

/-- The host's variables that concern engines. -/
structure Variables where
  policy : Option String := none
  depth : Option String := none
deriving Inhabited

/-- The defaults, overridden by the variables that can be read. -/
def Config.ofVariables (v : Variables) : Config where
  policy := (v.policy.bind FailurePolicy.ofText?).getD default.policy
  maxDepth := (v.depth.bind depthOfText?).getD default.maxDepth
  traceSubscriptions := default.traceSubscriptions

end LiveBinding
