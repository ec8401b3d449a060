import PredictiveParsing.Regex.Code

/-!
# Threads

A match in progress is a list of threads, most preferred first. A thread is what is left to be
matched; the empty thread is a match. Where a thread comes to a place of the code at which another
one has been before, it has nothing to add and ends. So the time of a match grows with the product
of the length of the text and the size of the code, and no faster.

A thread that loops back to a place that it left without reading anything ends there as well. This
settles which matches there are if the rounds of a repetition can be empty.

* `visit`, `reach`: the places to which a thread leads without reading.
* `advance`: the threads behind the next character.
-/

namespace PredictiveParsing

/-- What is left to be matched, part by part. -/
abbrev Thread := List Code

namespace Thread

/-- Notes a place, unless it is known. Places are kept latest first. -/
def note (t : Thread) (seen : List Thread) : List Thread :=
  if t ∈ seen then seen else t :: seen

/-- Notes the places to which a part of the code, followed by `rest`, leads without reading at a
cursor. What `rest` leads to is found by `next`. -/
def visit (p : Cursor) : Code → Thread → (List Thread → List Thread) →
    List Thread → List Thread
  | .empty, _, next, seen => next seen
  | .chars label k, rest, _, seen => note (.chars label k :: rest) seen
  | .look a, _, next, seen => if a.holds p then next seen else seen
  | .seq r s, rest, next, seen => visit p r (s :: rest) (visit p s rest next) seen
  | .fork label r s, rest, next, seen =>
    let here : Thread := .fork label r s :: rest
    if here ∈ seen then seen
    else visit p s rest next (visit p r rest next (here :: seen))
  | .loop label r greedy, rest, next, seen =>
    let here : Thread := .loop label r greedy :: rest
    if here ∈ seen then seen
    else if greedy then next (visit p r here id (here :: seen))
    else visit p r here id (next (here :: seen))

/-- Notes the places to which a thread leads without reading at a cursor. -/
def reach (p : Cursor) : Thread → List Thread → List Thread
  | [], seen => note [] seen
  | r :: rest, seen => visit p r rest (reach p rest) seen

/-- Whether a thread reads a character next or is a match. -/
def isReady : Thread → Bool
  | [] | .chars _ _ :: _ => true
  | _ => false

/-- The threads to which some threads lead without reading, most preferred first. -/
def ready (p : Cursor) (threads : List Thread) : List Thread :=
  (threads.foldl (fun seen t => reach p t seen) []).reverse.filter isReady

/-- What a thread leaves to be matched behind a character that it reads. -/
def after? (c : Char) : Thread → Option Thread
  | .chars _ k :: rest => if k.mem c then some rest else none
  | _ => none

/-- The threads at a cursor that is directly behind a character. -/
def advance (p : Cursor) (c : Char) (threads : List Thread) : List Thread :=
  ready p (threads.filterMap (after? c))

/-- Whether one of some threads is a match. -/
def anyMatch (threads : List Thread) : Bool := threads.any (·.isEmpty)

/-- The threads that are preferred to a match. -/
def preferred (threads : List Thread) : List Thread := threads.takeWhile (!·.isEmpty)

end Thread

end PredictiveParsing
