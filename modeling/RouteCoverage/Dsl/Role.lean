/-!
# The vocabulary of route builders

Which calls of a fluent chain are steps of the route, and how they nest.  A leaf is a step of
its own; a block takes the steps after it as children until it is closed; a branch opens inside
its owner, a block of one fixed name.  Names are compared exactly.
-/

namespace RouteCoverage

/-- What a call does to the route that is being built. -/
inductive Role where
  /-- gives the route its id -/
  | routeId
  /-- a step without children -/
  | leaf
  /-- a step that takes the following steps as children -/
  | block
  /-- a step that takes children and belongs into the block named `owner` -/
  | branch (owner : String)
  /-- closes the innermost open block -/
  | close
  /-- goes back to the innermost open block named `owner` -/
  | backTo (owner : String)
  /-- an option or an expression: no step -/
  | other
deriving DecidableEq, Repr

namespace Role

/-- The steps that take no children. -/
def leaves : List String :=
  ["to", "toD", "toF", "log", "setBody", "setHeader", "setProperty", "removeHeader",
    "removeHeaders", "removeProperty", "removeProperties", "transform", "process", "bean",
    "marshal", "unmarshal", "convertBodyTo", "recipientList", "routingSlip", "dynamicRouter",
    "wireTap", "enrich", "pollEnrich", "delay", "throttle", "throwException", "stop",
    "rollback", "markRollbackOnly", "validate", "script", "sort", "inOnly", "inOut",
    "setExchangePattern", "claimCheck", "sample", "kamelet", "serviceCall", "setFaultBody"]

/-- The steps that take the following steps as children. -/
def blocks : List String :=
  ["choice", "filter", "split", "aggregate", "loop", "loopDoWhile", "multicast", "doTry",
    "idempotentConsumer", "loadBalance", "resequence", "threads", "transacted",
    "circuitBreaker", "pipeline", "step", "saga", "policy", "onCompletion"]

/-- The branch steps, each with the block that owns it. -/
def branches : List (String × String) :=
  [("when", "choice"), ("otherwise", "choice"), ("doCatch", "doTry"), ("doFinally", "doTry"),
    ("onFallback", "circuitBreaker")]

/-- The calls that close the innermost block. -/
def closers : List String := ["end", "endParent", "endCircuitBreaker"]

/-- The calls that go back to a block, each with the block's name. -/
def returns : List (String × String) := [("endChoice", "choice"), ("endDoTry", "doTry")]

/-- The role of the call named `name`. -/
def ofName (name : String) : Role :=
  if name = "routeId" then .routeId
  else if name ∈ closers then .close
  else if let some owner := returns.lookup name then .backTo owner
  else if let some owner := branches.lookup name then .branch owner
  else if name ∈ blocks then .block
  else if name ∈ leaves then .leaf
  else .other

/-- A call is a step when it is a leaf, a block or a branch. -/
def isStep : Role → Bool
  | leaf | block | branch _ => true
  | _ => false

end Role

/-- The steps that belong into an owner. -/
def isBranch (name : String) : Bool := (Role.branches.lookup name).isSome

end RouteCoverage
