import RouteCoverage.Dsl.Replay
import RouteCoverage.Source.Node

/-!
# Chains in a tree

Every invocation of `from` without an object, at any depth in the body of a method `configure`,
starts a chain.  The chain goes on outwards as long as the invocation read last is the object
of another one.  The bodies are visited in pre-order, and so are the starts in each body; a
body inside another one is visited again on its own.
-/

namespace RouteCoverage

open Source (Node)

namespace Call

/-- The text of a literal without the quotes around it. -/
def unquoted (text : String) : String :=
  let inner := text.toList.dropWhile (· == '"')
  String.ofList (inner.reverse.dropWhile (· == '"')).reverse

/-- The first argument of an invocation, if it is a string literal. -/
def literal? (invocation : Node) : Option String := do
  let arguments ← invocation.child? .arguments
  let first ← arguments.children.head?
  if first.kind = .stringLiteral then some (unquoted first.text) else none

def ofNode (invocation : Node) : Call :=
  match invocation.child? .name with
  | some name => ⟨name.text, name.line, literal? invocation⟩
  | none => ⟨"", invocation.line, literal? invocation⟩

end Call

namespace Chain

/-- The name of the invocation that starts a route. -/
def startName : String := "from"

/-- The name of the methods that build routes. -/
def builderName : String := "configure"

def isStart (n : Node) : Bool :=
  n.kind = .methodInvocation && (n.child? .object).isNone &&
    (n.child? .name).any (·.text == startName)

mutual

/-- The chains that start in a tree.  `outward` holds the invocations that are made on the root
of the tree, from the inside out. -/
def inNode (outward : List Call) : Node → List Chain
  | n@(.node kind _ _ _ children) =>
    let here := if isStart n then [⟨Call.ofNode n, outward⟩] else []
    let outward := if kind = .methodInvocation then Call.ofNode n :: outward else []
    here ++ inChildren outward children

/-- The chains that start in the children of a node; only the object of the node carries the
invocations on. -/
def inChildren (outward : List Call) : List Node → List Chain
  | [] => []
  | n :: rest =>
    inNode (if n.part = some .object then outward else []) n ++ inChildren outward rest

end

/-- The bodies of the methods that build routes. -/
def bodies (root : Node) : List Node :=
  root.preorder.filterMap fun n =>
    if n.kind = .methodDeclaration && (n.child? .name).any (·.text == builderName) then
      n.child? .body
    else none

/-- The chains of a source file. -/
def ofTree (root : Node) : List Chain := (bodies root).flatMap (inNode [])

end Chain

end RouteCoverage
