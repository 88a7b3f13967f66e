import Breakage.Journal
import Breakage.LogFilter.Directive

/-!
How much is logged. A filter is a text of directives between commas; what cannot be read as a
directive is passed over. The filter lets through at most what its most talkative directive does.
-/

namespace Breakage

namespace LogFilter

def environmentName : String := "APIDIFF_LOG"

def directives (text : String) : List Directive :=
  ((text.toList.splitOn ',').filter fun p => !p.isEmpty).filterMap Directive.read

/-- The loudest level that a filter lets through; `fallback` where there is no directive. -/
def loudest (fallback : LogLevel) (filter : Option String) : LogLevel :=
  match directives (filter.getD "") with
  | [] => fallback
  | ds =>
    if ds.any Directive.readsValues then .trace
    else (ds.map Directive.level).foldl LogLevel.louder .off

end LogFilter

def Level.logged : Level → LogLevel
  | error => .error
  | warning => .warn
  | info => .info

/-- The events that are not too talkative for the log. -/
def Journal.upTo (j : Journal) (limit : LogLevel) : List Event :=
  j.events.filter fun e => decide (e.level.logged.rank ≤ limit.rank)

end Breakage
