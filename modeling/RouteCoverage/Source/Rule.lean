import RouteCoverage.Source.Node
import RouteCoverage.Source.Token

/-!
# Rules

A grammar gives every phrase a rule.  A rule says which tokens are read and which nodes are
built from them.  Choices are ordered: the second way is tried only where the first one fails.
Comments may stand before every token; they become children of the innermost node that has
begun before them.  Running a rule also tells how far it got: the last token that was refused
on the way.
-/

namespace RouteCoverage.Source

/-- A rule of a grammar whose phrases are named by `σ`. -/
inductive Rule (σ : Type) where
  /-- reads nothing -/
  | empty
  /-- reads a token without leaving a node -/
  | token (accepts : Token → Bool)
  /-- reads a token as a leaf -/
  | leaf (kind : Kind) (accepts : Token → Bool)
  | seq (first second : Rule σ)
  | alt (first second : Rule σ)
  /-- as often as possible -/
  | many (body : Rule σ)
  /-- reads nothing, and fails where the body would succeed -/
  | avoid (body : Rule σ)
  /-- gathers the nodes of the body in a new one -/
  | node (kind : Kind) (body : Rule σ)
  /-- gathers the node read last and the nodes of the body in a new one -/
  | grow (part : Option Part) (kind : Kind) (body : Rule σ)
  /-- gives a part to the last node of the body -/
  | plays (part : Part) (body : Rule σ)
  /-- reads nothing, and fails unless the node read last has one of the kinds -/
  | lastIs (kinds : List Kind)
  /-- reads a phrase -/
  | phrase (name : σ)

/-- Where a reader stands: the index of the next token, and the nodes of the innermost open
node, last first. -/
structure Place where
  index : Nat
  nodes : List Node
deriving Inhabited

/-- What running a rule gives: the index of the last token that was refused, and the place
behind what was read, if the rule did not fail. -/
structure Outcome where
  reach : Nat
  place : Option Place
deriving Inhabited

namespace Outcome

/-- A rule that went through. -/
def done (p : Place) : Outcome := ⟨0, some p⟩

/-- A rule that refuses the token with the given index. -/
def refused (index : Nat) : Outcome := ⟨index, none⟩

/-- An outcome on whose way the token `reach` was refused as well. -/
def reaching (reach : Nat) (o : Outcome) : Outcome := { o with reach := max reach o.reach }

/-- Goes on from the place behind what was read. -/
def andThen (o : Outcome) (next : Place → Outcome) : Outcome :=
  match o.place with
  | some p => (next p).reaching o.reach
  | none => o

/-- Tries another way if this one failed. -/
def orElse (o : Outcome) (other : Unit → Outcome) : Outcome :=
  match o.place with
  | some _ => o
  | none => (other ()).reaching o.reach

end Outcome

namespace Place

def push (p : Place) (n : Node) : Place := { p with nodes := n :: p.nodes }

/-- The place behind the comments that come next. -/
def skipComments (tokens : Array Token) (p : Place) : Place :=
  if h : p.index < tokens.size then
    let t := tokens[p.index]
    if t.kind = .comment then
      skipComments tokens ⟨p.index + 1, .leaf .comment t.line t.text :: p.nodes⟩
    else p
  else p
termination_by tokens.size - p.index

/-- Reads the next token that is no comment. -/
def take (tokens : Array Token) (accepts : Token → Bool) (use : Token → Place → Place)
    (p : Place) : Outcome :=
  let p := p.skipComments tokens
  match tokens[p.index]? with
  | some t => if accepts t then .done { use t p with index := p.index + 1 } else .refused p.index
  | none => .refused p.index

def line (tokens : Array Token) (p : Place) : Nat := (tokens[p.index]?.map (·.line)).getD 0

/-- Gathers the nodes that `read` adds to `first` in a new node behind `before`. -/
def gather (kind : Kind) (line : Nat) (first before : List Node) (read : Place → Outcome)
    (p : Place) : Outcome :=
  (read { p with nodes := first }).andThen fun q =>
    .done ⟨q.index, .node kind none line "" q.nodes.reverse :: before⟩

end Place

namespace Rule

/-- Does a step as often as it goes through and reads anything, at most `n` times. -/
def repeated (step : Place → Outcome) : Nat → Place → Outcome
  | 0, p => .done p
  | n + 1, p =>
    let o := step p
    match o.place with
    | some q => if q.index = p.index then .done p else (repeated step n q).reaching o.reach
    | none => ⟨o.reach, some p⟩

/-- Runs a rule; `call` reads the phrases. -/
def run {σ : Type} (tokens : Array Token) (call : σ → Place → Outcome) :
    Rule σ → Place → Outcome
  | empty, p => .done p
  | token accepts, p => p.take tokens accepts fun _ p => p
  | leaf kind accepts, p => p.take tokens accepts fun t p => p.push (.leaf kind t.line t.text)
  | seq first second, p => (run tokens call first p).andThen (run tokens call second)
  | alt first second, p =>
      (run tokens call first p).orElse fun _ => run tokens call second p
  | many body, p => repeated (run tokens call body) (tokens.size - p.index) p
  | avoid body, p =>
      match (run tokens call body p).place with
      | some _ => .refused (p.skipComments tokens).index
      | none => .done p
  | node kind body, p =>
      let p := p.skipComments tokens
      p.gather kind (p.line tokens) [] p.nodes (run tokens call body)
  | grow part kind body, p =>
      match p.nodes with
      | last :: before =>
        let first := match part with
          | some part => last.withPart part
          | none => last
        p.gather kind last.line [first] before (run tokens call body)
      | [] => .refused p.index
  | plays part body, p =>
      (run tokens call body p).andThen fun q =>
        match q.nodes with
        | last :: before => .done ⟨q.index, last.withPart part :: before⟩
        | [] => .done q
  | lastIs kinds, p =>
      match p.nodes with
      | last :: _ => if last.kind ∈ kinds then .done p else .refused p.index
      | [] => .refused p.index
  | phrase name, p => call name p

/-- Reads a phrase by a grammar; rules may call each other `depth` deep. -/
def read {σ : Type} (tokens : Array Token) (grammar : σ → Rule σ) :
    Nat → σ → Place → Outcome
  | 0, _, p => .refused p.index
  | depth + 1, name, p => run tokens (read tokens grammar depth) (grammar name) p

/-! ### Rules made of rules -/

variable {σ : Type}

/-- Rules one after another. -/
def all : List (Rule σ) → Rule σ
  | [] => empty
  | [r] => r
  | r :: rs => seq r (all rs)

/-- The first of several rules that goes through; at least one is to be given. -/
def any : List (Rule σ) → Rule σ
  | [] => avoid empty
  | [r] => r
  | r :: rs => alt r (any rs)

def opt (r : Rule σ) : Rule σ := alt r empty

/-- At least once. -/
def many1 (r : Rule σ) : Rule σ := seq r (many r)

def marks (texts : List String) : Rule σ := token fun t => t.kind = .mark && texts.contains t.text

def mark (text : String) : Rule σ := marks [text]

/-- A given mark right behind the token before. -/
def gluedMark (text : String) : Rule σ :=
  token fun t => t.kind = .mark && t.text == text && t.glued

def words (texts : List String) : Rule σ := token fun t => t.kind = .word && texts.contains t.text

/-- A given word right behind the token before. -/
def gluedWord (text : String) : Rule σ :=
  token fun t => t.kind = .word && t.text == text && t.glued

def word (text : String) : Rule σ := words [text]

def wordLeaf (texts : List String) : Rule σ :=
  leaf .other fun t => t.kind = .word && texts.contains t.text

/-- Any word but the given ones, as an identifier. -/
def identifier (except : List String) : Rule σ :=
  leaf .identifier fun t => t.kind = .word && !except.contains t.text

/-- Rules with a mark between any two of them, at least one. -/
def separated (text : String) (r : Rule σ) : Rule σ := seq r (many (seq (mark text) r))

def between (opening closing : String) (r : Rule σ) : Rule σ :=
  all [mark opening, r, mark closing]

end Rule

end RouteCoverage.Source
