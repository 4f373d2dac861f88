import RouteCoverage.Source.Rule

/-!
# Phrases

The phrases of Java source that contain each other, and the words that mean something of their
own.  A word is reserved only where its meaning is expected; elsewhere it is a name like any
other.
-/

namespace RouteCoverage.Source

/-- A phrase of the grammar. -/
inductive Phrase where
  | expression
  /-- an operand of an operator -/
  | operand
  /-- an operand in the label of a switch, where an arrow ends the label -/
  | labelOperand
  | type
  | pattern
  | annotationUse
  /-- the value of an element of an annotation -/
  | elementValue
  /-- the initial value of a variable -/
  | initializer
  | switchBody
  | block
  | statement
  | classBody
  /-- the declaration of a class, an interface, an enumeration, a record or an annotation -/
  | typeDeclaration
  /-- the declaration of a type, a package or a module, or an import -/
  | declaration
  | methodDeclaration
  /-- a whole source file -/
  | file
deriving DecidableEq, Repr

namespace Grammar

/-- A rule over the phrases of the grammar. -/
abbrev JavaRule := Rule Phrase

open Rule

/-- The types without a name. -/
def primitiveWords : List String :=
  ["byte", "short", "int", "long", "char", "float", "double", "boolean", "void"]

/-- The words that an operand may begin with and that no name can be there. -/
def operandWords : List String :=
  ["new", "switch", "this", "super", "true", "false", "null", "instanceof"] ++ primitiveWords

/-- The words that mean something of their own behind a dot. -/
def accessWords : List String := ["class", "new", "super", "this"]

def modifierWords : List String :=
  ["public", "protected", "private", "abstract", "static", "final", "strictfp", "default",
    "synchronized", "native", "transient", "volatile"]

def statementWords : List String :=
  ["if", "while", "for", "do", "try", "return", "break", "continue", "throw", "assert", "yield",
    "switch", "class", "interface", "enum", "import", "package"] ++ modifierWords

/-- The words that name no type. -/
def reservedWords : List String :=
  statementWords.erase "yield" ++ operandWords ++
    ["else", "case", "catch", "finally", "extends", "implements", "throws"]

/-- A name where no word is reserved. -/
def name : JavaRule := identifier []

def operandName : JavaRule := identifier operandWords

def accessName : JavaRule := identifier accessWords

def typeName : JavaRule := identifier reservedWords

/-- The name of a variable, behind its type. -/
def variableName : JavaRule := identifier ["instanceof"]

def dottedName : JavaRule := seq name (many (seq (mark ".") name))

def parenthesized : JavaRule := node .other (between "(" ")" (phrase .expression))

def annotations : JavaRule := many (phrase .annotationUse)

/-- Pairs of empty brackets. -/
def dimensions : JavaRule := many (all [annotations, mark "[", mark "]"])

/-- The modifiers in front of a declaration. -/
def modifiers : JavaRule :=
  opt (node .other (many1 (any
    [phrase .annotationUse, words modifierWords,
      seq (word "sealed") (avoid (marks ["=", ".", "("])),
      all [word "non", gluedMark "-", gluedWord "sealed"]])))

end Grammar

end RouteCoverage.Source
