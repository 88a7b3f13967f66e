/-!
What may stand on a command line: options with a long or short name, and one argument without a
name. Some options can also be set by a variable of the environment. A command has its own options
and those of the whole program, which may be given before it or after it.
-/

namespace Breakage.CommandLine

inductive Key where
  | packagePath | verbose | jsonLog | jobs | buildTool | digester
  | treeish | products | targets | baselineDirectory | allowlist | regenerate | timeLimit | reportPath
  | former
  | help | version
  deriving DecidableEq, Repr

inductive Form where
  | text
  /-- a text that is not empty -/
  | path
  /-- a number below 2^64 -/
  | count
  deriving DecidableEq, Repr

inductive Takes where
  | nothing
  | one (form : Form)
  /-- one value or more, and each further use adds to them -/
  | many (form : Form)
  deriving DecidableEq, Repr

structure Parameter where
  key : Key
  long : String
  short : Option Char
  /-- a variable of the environment -/
  variableName : Option String
  takes : Takes
  deriving DecidableEq, Repr

structure Positional where
  key : Key
  isRequired : Bool
  /-- it takes all that follows, options or not -/
  takesRest : Bool
  deriving DecidableEq, Repr

structure Grammar where
  parameters : List Parameter
  positional : Option Positional
  /-- the commands that may follow -/
  commands : List String
  deriving DecidableEq, Repr

namespace Grammar

def long? (g : Grammar) (name : String) : Option Parameter :=
  g.parameters.find? fun p => p.long == name

def short? (g : Grammar) (c : Char) : Option Parameter :=
  g.parameters.find? fun p => p.short == some c

def takesRest (g : Grammar) : Bool := g.positional.any Positional.takesRest

end Grammar

def diagnoseName : String := "diagnose-api-breaking-changes"

def formerName : String := "experimental-api-diff"

def helpName : String := "help"

def commonParameters : List Parameter :=
  [⟨.packagePath, "package-path", none, some "APIDIFF_PACKAGE_PATH", .one .path⟩,
   ⟨.verbose, "verbose", some 'v', none, .nothing⟩,
   ⟨.jsonLog, "json", none, none, .nothing⟩,
   ⟨.jobs, "jobs", some 'j', some "APIDIFF_JOBS", .one .count⟩,
   ⟨.buildTool, "build-tool", none, some "APIDIFF_BUILD_TOOL", .one .text⟩,
   ⟨.digester, "digester", none, some "APIDIFF_DIGESTER", .one .text⟩,
   ⟨.help, "help", some 'h', none, .nothing⟩]

def programGrammar : Grammar where
  parameters := commonParameters ++ [⟨.version, "version", some 'V', none, .nothing⟩]
  positional := none
  commands := [diagnoseName, formerName, helpName]

def diagnoseGrammar : Grammar where
  parameters := commonParameters ++
    [⟨.products, "products", none, none, .many .text⟩,
     ⟨.targets, "targets", none, none, .many .text⟩,
     ⟨.baselineDirectory, "baseline-dir", none, none, .one .path⟩,
     ⟨.allowlist, "breakage-allowlist-path", none, none, .one .path⟩,
     ⟨.regenerate, "regenerate-baseline", none, none, .nothing⟩,
     ⟨.timeLimit, "comparison-timeout", none, none, .one .count⟩,
     ⟨.reportPath, "report-json", none, none, .one .path⟩]
  positional := some ⟨.treeish, true, false⟩
  commands := []

def formerGrammar : Grammar := ⟨commonParameters, some ⟨.former, false, true⟩, []⟩

def commandGrammar (name : String) : Grammar :=
  if name = diagnoseName then diagnoseGrammar else formerGrammar

end Breakage.CommandLine
