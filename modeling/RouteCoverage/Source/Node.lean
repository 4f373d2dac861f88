/-!
# Trees of source text

The tree that a source text is read into.  A node has a kind, the part it plays in its parent,
the line where it begins, its text if it is a leaf, and its named children in order of the text.
Comments are children like all others.
-/

namespace RouteCoverage.Source

/-- What a node is.  Kinds that say nothing about routes are not told apart. -/
inductive Kind where
  | methodDeclaration
  | methodInvocation
  | argumentList
  | block
  | identifier
  | stringLiteral
  | comment
  | fieldAccess
  | arrayAccess
  | other
deriving DecidableEq, Repr, Inhabited

/-- The part that a child plays in its parent. -/
inductive Part where
  /-- the name of a method or of an invocation -/
  | name
  /-- what a method is invoked on -/
  | object
  /-- the arguments of an invocation -/
  | arguments
  /-- the body of a method -/
  | body
deriving DecidableEq, Repr

/-- A node of a tree. -/
inductive Node where
  | node (kind : Kind) (part : Option Part) (line : Nat) (text : String) (children : List Node)
deriving Repr, Inhabited

namespace Node

def kind : Node → Kind
  | node kind _ _ _ _ => kind

/-- The part that a node plays in its parent. -/
def part : Node → Option Part
  | node _ part _ _ _ => part

def line : Node → Nat
  | node _ _ line _ _ => line

def text : Node → String
  | node _ _ _ text _ => text

def children : Node → List Node
  | node _ _ _ _ children => children

def withPart (part : Part) : Node → Node
  | node kind _ line text children => node kind (some part) line text children

def child? (part : Part) (n : Node) : Option Node := n.children.find? (·.part = some part)

def leaf (kind : Kind) (line : Nat) (text : String) : Node := node kind none line text []

mutual

/-- A node and all nodes below it, each before the ones below itself. -/
def preorder : Node → List Node
  | n@(node _ _ _ _ children) => n :: preorderAll children

def preorderAll : List Node → List Node
  | [] => []
  | n :: rest => preorder n ++ preorderAll rest

end

end Node

end RouteCoverage.Source
