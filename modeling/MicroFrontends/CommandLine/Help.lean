import MicroFrontends.CommandLine.Arguments

/-!
# What the program says about itself

`helpText` describes all options, `versionText` is one line with the version, and `completions`
makes a shell complete the names of the options.
-/

namespace MicroFrontends.CommandLine

def programName : String := "ufe"

def versionText : String := programName ++ " 0.1.0\n"

/-- The names under which an option can be given. -/
def Opt.names (o : Opt) : String :=
  match o.short? with
  | some letter => "-" ++ letter.toString ++ ", " ++ o.usage
  | none => "    " ++ o.usage

/-- The description of an option, in lines of its own. -/
def Opt.description (o : Opt) : String :=
  let environment := (o.environmentName?.map fun name => " [env: " ++ name ++ "]").getD ""
  "  " ++ o.names ++ "\n          " ++ o.summary ++ environment ++ "\n"

def helpText : String :=
  "Micro-frontend registry explorer, lists catalog entries matching label selectors\n\n" ++
    "Usage: " ++ programName ++ " [OPTIONS] " ++ catalogUsage ++ "\n\nArguments:\n  " ++
    catalogUsage ++ "\n          Catalog file, - or nothing for the standard input\n\nOptions:\n" ++
    String.join (Opt.all.map Opt.description)

/-- The names of all options. -/
def optionNames : List String := Opt.all.map fun o => "--" ++ o.long

/-- A script that makes a shell complete the names of the options. -/
def completions (shell : Shell) : String :=
  let names := " ".intercalate optionNames
  match shell with
  | .bash => "complete -W \"" ++ names ++ "\" -o default " ++ programName ++ "\n"
  | .zsh => "compctl -f -k \"(" ++ names ++ ")\" " ++ programName ++ "\n"
  | .fish => String.join (Opt.all.map fun o =>
      "complete -c " ++ programName ++ " -l " ++ o.long ++ " -d '" ++ o.summary ++ "'\n")
  | .elvish =>
    "set edit:completion:arg-completer[" ++ programName ++ "] = \x7b|@words| put " ++ names ++
      " \x7d\n"
  | .powershell =>
    "Register-ArgumentCompleter -Native -CommandName " ++ programName ++
      " -ScriptBlock \x7b param($word) -split '" ++ names ++
      "' | Where-Object \x7b $_ -like \"$word*\" \x7d \x7d\n"

end MicroFrontends.CommandLine
