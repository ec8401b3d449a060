import PredictiveParsing.Regex.Thread

/-!
# Searching for matches

A matcher looks for the first place of a text at which its code matches and takes the most
preferred match there.

* `Matcher.find`: the leftmost match.
-/

namespace PredictiveParsing

/-- Where a match starts and ends, in bytes. -/
structure Match where
  start : Nat
  stop : Nat
  deriving DecidableEq

/-- The code of an expression. -/
structure Matcher where
  code : Code
  /-- A match starts at the start of a text only. -/
  anchored : Bool
  deriving DecidableEq

namespace Matcher

/-- The matcher of an expression. -/
def ofRegex (r : Regex) : Matcher :=
  let code := ((Code.ofRegex r).run 0).1
  ⟨code, code.isAnchored⟩

/-- Goes on with threads from a place, given the bytes and the character before it. A match that
stands there is the best so far, but threads that are preferred to it may still find another. -/
def follow (threads : List Thread) (best : Option Cursor) (passed : Nat) (before : Option Char) :
    Text → Option Cursor
  | [] => if Thread.anyMatch threads then some ⟨passed, before, []⟩ else best
  | c :: rest =>
    let here : Cursor := ⟨passed, before, c :: rest⟩
    let best := if Thread.anyMatch threads then some here else best
    match Thread.preferred threads with
    | [] => best
    | live =>
      let there := here.past c rest
      follow (Thread.advance there c live) best there.passed (some c) rest

/-- The end of the most preferred match that starts at a cursor. -/
def matchFrom (m : Matcher) (p : Cursor) : Option Cursor :=
  follow (Thread.ready p [[m.code]]) none p.passed p.before p.rest

/-- The first match at a place or behind it, given the bytes and the character before the place. -/
def findFrom (m : Matcher) (passed : Nat) (before : Option Char) : Text → Option Match
  | [] => (m.matchFrom ⟨passed, before, []⟩).map fun q => ⟨passed, q.passed⟩
  | c :: rest =>
    match m.matchFrom ⟨passed, before, c :: rest⟩ with
    | some q => some ⟨passed, q.passed⟩
    | none => if m.anchored then none else m.findFrom (passed + c.utf8Size) (some c) rest

/-- The leftmost match in a text. -/
def find (m : Matcher) (text : Text) : Option Match :=
  m.findFrom 0 none text

end Matcher

end PredictiveParsing
