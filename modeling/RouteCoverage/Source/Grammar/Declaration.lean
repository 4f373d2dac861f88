import RouteCoverage.Source.Grammar.Statement

/-!
# Declarations
-/

namespace RouteCoverage.Source.Grammar

open Rule

/-- What a method may throw. -/
def throwsClause : JavaRule := opt (node .other (seq (word "throws") types))

/-- The declaration of a method, with a body or without. -/
def methodDeclaration : JavaRule :=
  node .methodDeclaration (all [modifiers, opt (seq typeParameters annotations), phrase .type,
    plays .name name, formalParameters, dimensions, throwsClause,
    alt (plays .body (phrase .block)) (mark ";")])

/-- The invocation of another constructor at the beginning of one. -/
def constructorInvocation : JavaRule :=
  node .other (all
    [alt (seq (opt typeArguments) (wordLeaf ["this", "super"]))
      (all [operandName, many (seq (mark ".") accessName), mark ".", opt typeArguments,
        wordLeaf ["super"]]),
      argumentList, mark ";"])

def constructorDeclaration : JavaRule :=
  let body := node .other (between "\x7b" "\x7d"
    (seq (opt constructorInvocation) (many (phrase .statement))))
  node .other (all [modifiers, opt typeParameters, typeName, formalParameters, throwsClause, body])

/-- The declaration of a constructor of a record without parameters. -/
def compactConstructor : JavaRule := node .other (all [modifiers, typeName, phrase .block])

def classMember : JavaRule :=
  any [mark ";", node .other (seq (word "static") (phrase .block)), phrase .typeDeclaration,
    phrase .methodDeclaration, constructorDeclaration, compactConstructor, variableDeclaration,
    phrase .block]

def classBody : JavaRule := node .other (between "\x7b" "\x7d" (many classMember))

def implementsClause : JavaRule := opt (node .other (seq (word "implements") types))

/-- The types that may extend a class. -/
def permitsClause : JavaRule := opt (node .other (seq (word "permits") types))

def classDeclaration : JavaRule :=
  node .other (all [modifiers, word "class", name, opt typeParameters,
    opt (seq (word "extends") (phrase .type)), implementsClause, permitsClause,
    phrase .classBody])

def interfaceDeclaration : JavaRule :=
  let member :=
    any [mark ";", phrase .typeDeclaration, phrase .methodDeclaration, variableDeclaration]
  node .other (all [modifiers, word "interface", name, opt typeParameters,
    opt (seq (word "extends") types), permitsClause,
    node .other (between "\x7b" "\x7d" (many member))])

def enumDeclaration : JavaRule :=
  let constant := node .other (all [modifiers, name, opt argumentList, opt (phrase .classBody)])
  let members := seq (mark ";") (many classMember)
  node .other (all [modifiers, word "enum", name, implementsClause,
    node .other (between "\x7b" "\x7d"
      (all [opt (separated "," constant), opt (mark ","), opt members]))])

def recordDeclaration : JavaRule :=
  node .other (all [modifiers, word "record", name, opt typeParameters, formalParameters,
    implementsClause, phrase .classBody])

def annotationDeclaration : JavaRule :=
  let element := node .other (all [modifiers, phrase .type, name, mark "(", mark ")", dimensions,
    opt (seq (word "default") (phrase .elementValue)), mark ";"])
  let member := any [mark ";", phrase .typeDeclaration, element, variableDeclaration]
  node .other (all [modifiers, mark "@", gluedWord "interface", name,
    node .other (between "\x7b" "\x7d" (many member))])

def typeDeclaration : JavaRule :=
  any [classDeclaration, interfaceDeclaration, enumDeclaration, recordDeclaration,
    annotationDeclaration]

def packageDeclaration : JavaRule :=
  node .other (all [annotations, word "package", dottedName, mark ";"])

def importDeclaration : JavaRule :=
  node .other (all [word "import", opt (seq (word "static") (avoid (marks [".", ";"]))),
    dottedName, opt (seq (mark ".") (mark "*")), mark ";"])

def moduleDeclaration : JavaRule :=
  let targets (word : String) := opt (seq (words [word]) (separated "," dottedName))
  let directive := node .other (seq (any
    [all [word "requires", many (words ["static", "transitive"]), dottedName],
      all [words ["exports", "opens"], dottedName, targets "to"],
      all [word "uses", dottedName],
      all [word "provides", dottedName, targets "with"]]) (mark ";"))
  node .other (all [annotations, opt (word "open"), word "module", dottedName,
    node .other (between "\x7b" "\x7d" (many directive))])

/-- The declaration of a type, a package or a module, or an import. -/
def declaration : JavaRule :=
  any [phrase .typeDeclaration, packageDeclaration, importDeclaration, moduleDeclaration]

/-- A source file; statements and methods may stand outside of any class. -/
def file : JavaRule := many (alt (phrase .statement) (phrase .methodDeclaration))

def rule : Phrase → JavaRule
  | .expression => expression
  | .operand => operand
  | .labelOperand => labelOperand
  | .type => type
  | .pattern => pattern
  | .annotationUse => annotationUse
  | .elementValue => elementValue
  | .initializer => initializer
  | .switchBody => switchBody
  | .block => block
  | .statement => statement
  | .classBody => classBody
  | .typeDeclaration => typeDeclaration
  | .declaration => declaration
  | .methodDeclaration => methodDeclaration
  | .file => file

end RouteCoverage.Source.Grammar
