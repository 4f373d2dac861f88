/-!
# Regular expressions

Regular expressions over characters and the places where they match.  A place of a text is the
number of characters before it, and a set of places is a number whose bit `p` tells whether the
place `p` belongs to it; so a text of `n` characters has places `0`, ..., `n`.  `Regex.reach`
takes a set of places to the set of those places where a match that begins in it can end.
-/

namespace RouteCoverage

abbrev CharSet := Char → Bool

/-- The places where a word begins or ends, and their looser variants. -/
inductive WordEdge where
  /-- a word begins or ends -/
  | any
  /-- no word begins or ends -/
  | none
  /-- a word begins -/
  | start
  /-- a word ends -/
  | stop
  /-- no word character stands before -/
  | startHalf
  /-- no word character stands after -/
  | stopHalf
deriving DecidableEq, Repr

/-- A condition on a place that depends on the two characters around it. -/
inductive Look where
  | textStart
  | textEnd
  /-- a line begins; with `crlf` the lines may also end in carriage returns -/
  | lineStart (crlf : Bool)
  /-- a line ends -/
  | lineEnd (crlf : Bool)
  /-- an edge of a word of characters of the given set -/
  | edge (kind : WordEdge) (word : CharSet)

namespace WordEdge

/-- Whether an edge stands between two characters of which we know if they belong to words. -/
def holds : WordEdge → (before after : Bool) → Bool
  | any, before, after => before != after
  | none, before, after => before == after
  | start, before, after => !before && after
  | stop, before, after => before && !after
  | startHalf, before, _ => !before
  | stopHalf, _, after => !after

end WordEdge

namespace Look

/-- Whether a condition holds between two neighbours, either of which may be missing. -/
def holds : Look → (before after : Option Char) → Bool
  | textStart, before, _ => before.isNone
  | textEnd, _, after => after.isNone
  | lineStart false, before, _ => before.isNone || before == some '\n'
  | lineEnd false, _, after => after.isNone || after == some '\n'
  | lineStart true, before, after =>
      before.isNone || before == some '\n' || (before == some '\r' && after != some '\n')
  | lineEnd true, before, after =>
      after.isNone || after == some '\r' || (after == some '\n' && before != some '\r')
  | edge kind word, before, after => kind.holds (before.any word) (after.any word)

end Look

/-- A regular expression. -/
inductive Regex where
  /-- matches between any two characters -/
  | empty
  /-- matches one character of a set -/
  | set (chars : CharSet)
  /-- matches where a condition holds -/
  | look (condition : Look)
  | seq (first second : Regex)
  | alt (left right : Regex)
  /-- matches at least `least` times in a row, and at most `most` times if that is given -/
  | times (least : Nat) (most : Option Nat) (body : Regex)

/-- The set of places whose flags are set; the first flag is that of the place zero. -/
def places : List Bool → Nat
  | [] => 0
  | b :: bs => b.toNat + 2 * places bs

theorem testBit_places (bs : List Bool) (p : Nat) : (places bs).testBit p = bs[p]?.getD false := by
  induction bs generalizing p with
  | nil => simp [places]
  | cons b bs ih =>
    cases p with
    | zero => cases b <;> simp [places]
    | succ p =>
      have h : (b.toNat + 2 * places bs) / 2 = places bs := by
        cases b
        · simp
        · simp; omega
      simp [places, Nat.testBit_succ, h, ih]

/-- The neighbours of each place of a text, in order. -/
def neighbours (text : List Char) : List (Option Char × Option Char) :=
  (none :: text.map some).zip (text.map some ++ [none])

/-- Does a step exactly `n` times; a set that the step keeps needs no further steps. -/
def exactly (step : Nat → Nat) : Nat → Nat → Nat
  | 0, s => s
  | n + 1, s =>
    let t := step s
    if t = s then s else exactly step n t

/-- Does a step at most `n` times, and gathers all places on the way. -/
def upTo (step : Nat → Nat) : Nat → Nat → Nat
  | 0, s => s
  | n + 1, s =>
    let t := s ||| step s
    if t = s then s else upTo step n t

namespace Regex

/-- The places of `text` where a match that begins in a set of places can end. -/
def reach (text : List Char) : Regex → Nat → Nat
  | empty, s => s
  | set chars, s => (s &&& places (text.map chars)) <<< 1
  | look condition, s =>
      s &&& places ((neighbours text).map fun (before, after) => condition.holds before after)
  | seq first second, s => second.reach text (first.reach text s)
  | alt left right, s => left.reach text s ||| right.reach text s
  | times least most body, s =>
      let more := match most with
        | some most => most - least
        | none => text.length + 1
      upTo (body.reach text) more (exactly (body.reach text) least s)

def allPlaces (text : List Char) : Nat := 1 <<< (text.length + 1) - 1

/-- Whether an expression matches somewhere in a text. -/
def isFoundIn (r : Regex) (text : List Char) : Bool := r.reach text (allPlaces text) != 0

/-- One given character. -/
def char (c : Char) : Regex := set (· == c)

/-- Expressions one after another. -/
def seqAll : List Regex → Regex
  | [] => empty
  | [r] => r
  | r :: rs => seq r (seqAll rs)

/-- Expressions of which one is to match. -/
def altAll : List Regex → Regex
  | [] => empty
  | [r] => r
  | r :: rs => alt r (altAll rs)

def literal (text : List Char) : Regex := seqAll (text.map char)

end Regex

end RouteCoverage
