import RouteCoverage.Source.Grammar.Phrase

/-!
# Types, annotations and parameters
-/

namespace RouteCoverage.Source.Grammar

open Rule

def typeArguments : JavaRule :=
  let wildcard := node .other (all [annotations, mark "?",
    opt (seq (words ["extends", "super"]) (phrase .type))])
  node .other (between "<" ">" (opt (separated "," (alt wildcard (phrase .type)))))

/-- A type without brackets. -/
def plainType : JavaRule :=
  let named := seq typeName (opt typeArguments)
  alt (wordLeaf primitiveWords)
    (node .other (seq named (many (all [mark ".", annotations, named]))))

def type : JavaRule := node .other (all [annotations, plainType, dimensions])

/-- Types with commas between them. -/
def types : JavaRule := separated "," (phrase .type)

def typeParameters : JavaRule :=
  let bound := all [word "extends", separated "&" (phrase .type)]
  node .other (between "<" ">" (separated "," (all [annotations, name, opt bound])))

/-- An annotation: its name and the values of its elements. -/
def annotationUse : JavaRule :=
  let pair := node .other (all [name, mark "=", phrase .elementValue])
  let values := alt (seq (separated "," pair) (mark ")"))
    (seq (opt (phrase .elementValue)) (mark ")"))
  node .other (all [mark "@", avoid (word "interface"), dottedName,
    opt (node .other (seq (mark "(") values))])

/-- The value of an element: an annotation, a list of values, or an expression. -/
def elementValue : JavaRule :=
  any [phrase .annotationUse,
    node .other (between "\x7b" "\x7d"
      (seq (opt (separated "," (phrase .elementValue))) (opt (mark ",")))),
    phrase .expression]

def formalParameters : JavaRule :=
  let receiver := all [annotations, phrase .type, opt (seq name (mark ".")), word "this"]
  let parameter := node .other (all [modifiers, phrase .type, opt (mark "..."), name, dimensions])
  node .other (between "(" ")" (opt (separated "," (alt receiver parameter))))

/-- A pattern: a type and a name, or a record type with patterns for its components. -/
def pattern : JavaRule :=
  let record := all [plainType, mark "(", opt (separated "," (phrase .pattern)), mark ")",
    opt variableName]
  node .other (any [record, all [modifiers, phrase .type, variableName]])

end RouteCoverage.Source.Grammar
