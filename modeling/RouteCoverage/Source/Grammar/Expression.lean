import RouteCoverage.Source.Grammar.Type

/-!
# Expressions

Operators of all precedences are read in one list, since their operands come in the same order
whatever their grouping.  Invocations, accesses and arguments keep their exact shape.
-/

namespace RouteCoverage.Source.Grammar

open Rule

def argumentList : JavaRule :=
  node .argumentList (between "(" ")" (opt (separated "," (phrase .expression))))

/-- An operator between two operands.  Several marks `>` without blanks are one operator. -/
def binaryOperator : JavaRule :=
  any [marks ["<", "==", "!=", "<=", "&&", "||", "+", "-", "*", "/", "&", "|", "^", "%", "<<"],
    all [mark ">", gluedMark ">", opt (gluedMark ">"), avoid (gluedMark "=")],
    seq (mark ">") (opt (gluedMark "="))]

def assignmentOperator : JavaRule :=
  alt (marks ["=", "+=", "-=", "*=", "/=", "&=", "|=", "^=", "%=", "<<="])
    (all [mark ">", gluedMark ">", opt (gluedMark ">"), gluedMark "="])

/-- A function: its parameters and its body. -/
def lambda : JavaRule :=
  let names := node .other (between "(" ")" (separated "," operandName))
  node .other (all [any [operandName, names, formalParameters], mark "->",
    alt (phrase .block) (phrase .expression)])

/-- An operand with the type that it is converted to. -/
def cast (operand : JavaRule) : JavaRule :=
  node .other (all [mark "(", separated "&" (phrase .type), mark ")", operand])

/-- What follows the word `new`: an object with its arguments, or an array. -/
def creation : JavaRule :=
  let object := seq argumentList (opt (phrase .classBody))
  let sized := seq (many1 (all [annotations, between "[" "]" (phrase .expression)])) dimensions
  let filled := all [annotations, mark "[", mark "]", dimensions, phrase .initializer]
  all [word "new", annotations, opt typeArguments, plainType, any [object, sized, filled]]

/-- What follows the name of a type or a value in a reference to a method. -/
def methodReference : JavaRule :=
  all [mark "::", opt typeArguments, alt (word "new") name]

/-- A type in place of a value: its class, or one of its methods. -/
def typeLiteral : JavaRule :=
  node .other (seq (phrase .type) (alt (seq (mark ".") (word "class")) methodReference))

/-- An invocation without an object. -/
def invocation : JavaRule :=
  node .methodInvocation (seq (plays .name operandName) (plays .arguments argumentList))

/-- What an operand begins with. -/
def primary : JavaRule :=
  any [leaf .stringLiteral (·.kind = .string),
    leaf .other fun t => t.kind = .number || t.kind = .character,
    wordLeaf ["true", "false", "null", "this"],
    all [wordLeaf ["super"], avoid (avoid (marks [".", "::"]))],
    node .other creation, parenthesized, typeLiteral, invocation, operandName]

/-- What is accessed of the value before. -/
def access : JavaRule :=
  any [grow (some .object) .methodInvocation (all [mark ".", opt (seq (word "super") (mark ".")),
      opt typeArguments, plays .name accessName, plays .arguments argumentList]),
    grow none .fieldAccess (all [mark ".", opt (seq (word "super") (mark ".")),
      alt accessName (wordLeaf ["this"])]),
    grow none .other (seq (mark ".") creation),
    grow none .arrayAccess (between "[" "]" (phrase .expression)),
    grow none .other methodReference]

/-- What is assigned to the variable before. -/
def assignment : JavaRule :=
  seq (lastIs [.identifier, .fieldAccess, .arrayAccess])
    (grow none .other (seq assignmentOperator (phrase .expression)))

def switchExpression : JavaRule :=
  node .other (all [word "switch", parenthesized, phrase .switchBody])

/-- An operand that is no function, whose own operands follow the rule given. -/
def plainOperand (operand : JavaRule) : JavaRule :=
  any [node .other (seq (marks ["+", "-", "!", "~", "++", "--"]) operand),
    switchExpression, cast operand,
    all [primary, many access, opt assignment, many (grow none .other (marks ["++", "--"]))]]

def labelOperand : JavaRule := plainOperand (phrase .labelOperand)

def operand : JavaRule := alt lambda (plainOperand (phrase .operand))

def operation (operand : JavaRule) : JavaRule :=
  let test := all [word "instanceof", opt (word "final"),
    any [phrase .pattern, phrase .type]]
  let choice := all [mark "?", phrase .expression, mark ":", phrase .expression]
  seq operand (many (any
    [grow none .other (seq binaryOperator operand), grow none .other test,
      grow none .other choice]))

def expression : JavaRule := operation (phrase .operand)

/-- The initial value of a variable: an expression, or the elements of an array. -/
def initializer : JavaRule :=
  let elements := seq (opt (separated "," (phrase .initializer))) (opt (mark ","))
  alt (node .other (between "\x7b" "\x7d" elements)) (phrase .expression)

end RouteCoverage.Source.Grammar
