/-
# Completion

What a line that is not finished can be completed to: one word to the only command or
alias that begins with it, and more words as their command sees fit.
-/
import Teletype.Command

namespace Teletype

namespace Registry

/-- The names that begin as a word does. -/
def namesFrom (r : Registry) (s : Session) (start : Text) : List Text :=
  r.manual.completions start ++ s.aliases.keys.filter fun name => (Text.upper start).isPrefixOf name

/-- The line that a line can be completed to. -/
def complete (r : Registry) (s : Session) (line : Text) : Option Text :=
  match Text.words line with
  | [] => none
  | [word] => Command.only? (r.namesFrom s word)
  | word :: words => (r.find? word).bind fun c => c.complete r.manual s (word :: words)

end Registry

end Teletype
