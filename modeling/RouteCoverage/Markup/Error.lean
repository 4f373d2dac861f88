/-!
# Faults of a markup document

What can be wrong with a document: a construct that is cut off by the end of the text, tags
that do not fit together, or an attribute that is not written as one.  `Markup.Error.message`
is the full wording, `Markup.Error.detail` the part that names the cause.
-/

namespace RouteCoverage.Markup

/-- A construct that is not closed before the end of the text, or no known construct. -/
inductive Unclosed where
  | unknown
  | instruction
  | comment
  | doctype
  | characterData
  | tag
deriving DecidableEq, Repr

/-- Constructs that are closed but do not fit together. -/
inductive IllFormed where
  | doctypeWithoutName
  | unmatchedEnd (name : String)
  | mismatchedEnd (expected found : String)
deriving DecidableEq, Repr

/-- A fault of an attribute.  Positions are bytes from the start of the tag's content. -/
inductive AttributeError where
  | missingEquals (position : Nat)
  | missingValue (position : Nat)
  | unquotedValue (position : Nat)
  | missingQuote (position : Nat) (quote : Char)
  | duplicated (position previous : Nat)
deriving DecidableEq, Repr

/-- A fault of a document. -/
inductive Error where
  | unclosed (e : Unclosed)
  | illFormed (e : IllFormed)
  | badAttribute (e : AttributeError)
deriving DecidableEq, Repr

/-- The wording of an unclosed construct. -/
def Unclosed.message : Unclosed → String
  | unknown => "unknown or missed symbol in markup"
  | instruction =>
      "processing instruction or xml declaration not closed: " ++
        "`?>` not found before end of input"
  | comment => "comment not closed: `-->` not found before end of input"
  | doctype => "DOCTYPE not closed: `>` not found before end of input"
  | characterData => "CDATA not closed: `]]>` not found before end of input"
  | tag => "tag not closed: `>` not found before end of input"

/-- The wording of constructs that do not fit together. -/
def IllFormed.message : IllFormed → String
  | doctypeWithoutName => "`<!DOCTYPE>` declaration does not contain a name of a document type"
  | unmatchedEnd name => "close tag `</" ++ name ++ ">` does not match any open tag"
  | mismatchedEnd expected found =>
      "expected `</" ++ expected ++ ">`, but `</" ++ found ++ ">` was found"

/-- The wording of an attribute fault. -/
def AttributeError.message : AttributeError → String
  | missingEquals position =>
      "position " ++ toString position ++
        ": attribute key must be directly followed by `=` or space"
  | missingValue position =>
      "position " ++ toString position ++ ": `=` must be followed by an attribute value"
  | unquotedValue position =>
      "position " ++ toString position ++ ": attribute value must be enclosed in `\"` or `'`"
  | missingQuote position quote =>
      "position " ++ toString position ++ ": missing closing quote `" ++ quote.toString ++
        "` in attribute value"
  | duplicated position previous =>
      "position " ++ toString position ++
        ": duplicated attribute, previous declaration at position " ++ toString previous

namespace Error

/-- The cause of a fault, without its kind. -/
def detail : Error → String
  | unclosed e => e.message
  | illFormed e => e.message
  | badAttribute e => e.message

def kind : Error → String
  | unclosed _ => "syntax error"
  | illFormed _ => "ill-formed document"
  | badAttribute _ => "error while parsing attribute"

/-- The wording of a fault: its kind and its cause. -/
def message (e : Error) : String := e.kind ++ ": " ++ e.detail

end Error

end RouteCoverage.Markup
