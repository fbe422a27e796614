import RawMemory.Log.Rule.Text
import RawMemory.Text.Pieces

/-!
# Log filters

A filter is a list of rules. Of the rules that cover an event the most specific one decides whether it
is kept, and an event that no rule covers is dropped. In a setting the rules stand in a comma list.
-/

namespace RawMemory

/-- A list of rules. -/
structure LogFilter where
  /-- The rules, of which a later one replaces an earlier one that is equally specific. -/
  rules : List LogRule
deriving DecidableEq

namespace LogFilter

/-- Keep the events of every target down to a level. -/
def atLevel (level : LogLevel) : LogFilter := ⟨[⟨"", .events, some level⟩]⟩

/-- The rules of a comma list, in which empty places are passed over. -/
def rulesOf (text : String) : Except RuleFlaw (List LogRule) :=
  ((Text.pieces ',' text).filter (· ≠ "")).mapM LogRule.ofText

/-- The filter that a setting means. Without a setting, or with a malformed one, it keeps what is at
least of general interest, and an empty list keeps failures only. A setting in which a character is torn
means no filter at all. -/
def ofSetting : Option String → Option LogFilter
  | none => some (atLevel .info)
  | some text =>
    match rulesOf text with
    | .ok [] => some (atLevel .error)
    | .ok rules => some ⟨rules⟩
    | .error .malformed => some (atLevel .info)
    | .error .torn => none

/-- The rule that decides about an event, if any covers it. -/
def ruleFor? (f : LogFilter) (e : Event) : Option LogRule :=
  (f.rules.filter (·.covers e)).foldl LogRule.moreSpecific none

/-- Whether the filter keeps an event. -/
def keeps (f : LogFilter) (e : Event) : Bool := (f.ruleFor? e).any (·.keeps e.level)

/-- The events that the filter keeps. -/
def select (f : LogFilter) (events : List Event) : List Event := events.filter f.keeps

end LogFilter

end RawMemory
