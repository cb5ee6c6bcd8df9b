import FilterLine.Config.Basic

/-!
The hook that makes a shell ask for completions of the tool's command lines. One shell has the
completion functions of the other after loading an emulation of them.
-/
namespace FilterLine

inductive Shell where
  | bash
  | zsh
  deriving DecidableEq, Repr

namespace Shell

/-- The shell of a name, in any case. Only ASCII letters have a lower case that occurs in a name. -/
def ofName? (t : Text) : Option Shell :=
  let t := t.map Char.toLower
  if t = ("bash" : Text) then some bash
  else if t = ("zsh" : Text) then some zsh
  else none

def heading : Text := "# gpac completion through gpac-complete\n"

/-- The line that only one of the shells needs. -/
def preparation : Shell → Text
  | bash => []
  | zsh => "autoload -U +X bashcompinit && bashcompinit\n"

/-- The function that asks for the candidates, each on a line of its own, and its registration. No
space is added after a candidate: it brings its own. -/
def registration : Text :=
  "_gpac_complete() \x7b\n    local IFS=$'\\n'\n    COMPREPLY=($(gpac-complete complete \"$\x7bCOMP_POINT\x7d\" \"$\x7bCOMP_LINE\x7d\" 2>/dev/null))\n\x7d\ncomplete -o nospace -F _gpac_complete gpac\n"

/-- The hook of a shell, after an empty line. -/
def hook (s : Shell) : Text := '\n' :: heading ++ s.preparation ++ registration

/-- The hook for the shell of a name, or what is wrong with the name. -/
def hookFor (name : Text) : Except ConfigError Text :=
  match ofName? name with
  | some s => .ok s.hook
  | none => .error (.invalid "shell" (name ++ " (supported shells: bash, zsh)"))

end Shell
end FilterLine
