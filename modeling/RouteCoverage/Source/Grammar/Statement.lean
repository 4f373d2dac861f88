import RouteCoverage.Source.Grammar.Expression

/-!
# Statements
-/

namespace RouteCoverage.Source.Grammar

open Rule

/-- Variables of one type, each with its initial value. -/
def declarators : JavaRule :=
  separated "," (node .other
    (all [variableName, dimensions, opt (seq (mark "=") (phrase .initializer))]))

def variableDeclaration : JavaRule :=
  node .other (all [modifiers, phrase .type, declarators, mark ";"])

/-- Expressions with commas between them, or none. -/
def expressions : JavaRule := opt (separated "," (phrase .expression))

def expressionStatement : JavaRule :=
  node .other (all [avoid (words statementWords), phrase .expression, mark ";"])

def throwStatement : JavaRule := node .other (all [word "throw", phrase .expression, mark ";"])

def switchLabel : JavaRule :=
  let label := operation (phrase .labelOperand)
  let guard := seq (word "when") label
  alt (word "default")
    (all [word "case", alt (phrase .pattern) (separated "," label), opt guard])

/-- The branches of a switch: each with an arrow, or each with a colon. -/
def switchBody : JavaRule :=
  let rule := node .other (all [switchLabel, mark "->",
    any [phrase .block, throwStatement, expressionStatement]])
  let group := node .other (seq (many1 (seq switchLabel (mark ":"))) (many (phrase .statement)))
  node .other (alt (between "\x7b" "\x7d" (many1 rule)) (between "\x7b" "\x7d" (many group)))

def tryStatement : JavaRule :=
  let caught := all [modifiers, separated "|" (phrase .type), variableName, dimensions]
  let catchClause := node .other (all [word "catch", between "(" ")" caught, phrase .block])
  let finallyClause := node .other (seq (word "finally") (phrase .block))
  let resource := node .other (alt
    (all [modifiers, phrase .type, variableName, dimensions, mark "=", phrase .expression])
    (all [primary, many access, lastIs [.identifier, .fieldAccess]]))
  let resources := between "(" ")" (seq (separated ";" resource) (opt (mark ";")))
  node .other (seq (word "try") (alt
    (all [resources, phrase .block, many catchClause, opt finallyClause])
    (seq (phrase .block) (alt (seq (many1 catchClause) (opt finallyClause)) finallyClause))))

/-- The statement that goes through values. -/
def forStatement : JavaRule :=
  let each := all [modifiers, phrase .type, variableName, dimensions, mark ":",
    phrase .expression]
  let counted := all [alt variableDeclaration (seq expressions (mark ";")),
    opt (phrase .expression), mark ";", expressions]
  node .other (all [word "for", between "(" ")" (alt each counted), phrase .statement])

/-- The statements that begin with a word of their own. -/
def wordStatement : JavaRule :=
  let condition := phrase .expression
  any [node .other (all [word "if", parenthesized, phrase .statement,
      opt (seq (word "else") (phrase .statement))]),
    node .other (all [word "while", parenthesized, phrase .statement]),
    forStatement,
    node .other (all [word "do", phrase .statement, word "while", parenthesized, mark ";"]),
    switchExpression,
    tryStatement,
    node .other (all [word "return", opt condition, mark ";"]),
    node .other (all [words ["break", "continue"], opt name, mark ";"]),
    throwStatement,
    node .other (all [word "yield", condition, mark ";"]),
    node .other (all [word "assert", condition, opt (seq (mark ":") condition), mark ";"]),
    node .other (all [word "synchronized", parenthesized, phrase .block])]

def statement : JavaRule :=
  let labelled := node .other (all [avoid (words statementWords), operandName, mark ":",
    phrase .statement])
  any [phrase .block, mark ";", wordStatement, phrase .declaration, labelled, variableDeclaration,
    expressionStatement]

def block : JavaRule := node .block (between "\x7b" "\x7d" (many (phrase .statement)))

end RouteCoverage.Source.Grammar
