import RawMemory.Log.Event

/-!
# Log rules

A rule keeps the events of some targets down to some level. It covers all targets that begin with its
own, and it may be confined to events that carry a certain particular, or to spans of time, which are no
events at all. Of two rules that cover an event the more specific one decides.
-/

namespace RawMemory

/-- What a rule is about, among that which has a target. -/
inductive LogScope where
  /-- Every event. -/
  | events
  /-- The events that have a particular of some name. -/
  | eventsWith (field : String)
  /-- Spans of time, and no event. -/
  | spans
deriving DecidableEq

/-- The name that the scope asks for, if any. -/
def LogScope.field : LogScope → String
  | eventsWith field => field
  | events | spans => ""

/-- What is kept of the events of some targets. -/
structure LogRule where
  /-- What the targets begin with. -/
  target : String
  /-- What the rule is about. -/
  scope : LogScope
  /-- The least important level that is kept, if any is. -/
  level : Option LogLevel
deriving DecidableEq

namespace LogRule

/-- Whether the rule covers an event. -/
def covers (r : LogRule) (e : Event) : Bool :=
  r.target.toList.isPrefixOf e.target.toList &&
    match r.scope with
    | .events => true
    | .eventsWith field => e.names.contains field
    | .spans => false

/-- Whether the rule keeps a level. -/
def keeps (r : LogRule) (level : LogLevel) : Bool := r.level.any fun last => level.rank ≤ last.rank

/-- How specific the rule is beside another one that covers the same event. A longer target is more
specific, then a name that is asked for, and of two such names the one that comes later in the order of
their characters. -/
def specificity (r s : LogRule) : Ordering :=
  (compare r.target.length s.target.length).then (compare r.scope.field s.scope.field)

/-- Of two rules that cover the same event the one that decides: the more specific one, and the later
one if they are equally specific. -/
def moreSpecific (earlier : Option LogRule) (later : LogRule) : Option LogRule :=
  match earlier with
  | some r => if (r.specificity later).isGT then some r else some later
  | none => some later

end LogRule

end RawMemory
