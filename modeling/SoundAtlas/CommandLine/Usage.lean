import SoundAtlas.CommandLine.Argument
import SoundAtlas.Text.Line

/-!
Help texts: how a program is called, and what its commands and named arguments are.
-/

namespace SoundAtlas.CommandLine

open SoundAtlas.Text (fill blanks)

def helpWidth : Nat := 78

/-- The farthest column at which what is said about an argument begins. -/
def farthestColumn : Nat := 24

structure Manual (α : Type) where
  program : String
  /-- What the program is. -/
  description : String
  arguments : List (Argument α)
  /-- The commands and what they do. -/
  commands : List (String × String)
  /-- What stands at the end. -/
  closing : String

variable {α : Type}

namespace Argument

/-- What stands for the value of an argument: its first name, in capitals. -/
def placeholder (a : Argument α) : String :=
  String.ofList (((a.names.headD "").toList.dropWhile (· = '-')).map fun c =>
    if c = '-' then '_' else c.toUpper)

def withValue (a : Argument α) (name : String) : String :=
  match a.effect with
  | .value _ => name ++ " " ++ a.placeholder
  | .help | .flag _ => name

def header (a : Argument α) : String :=
  ", ".intercalate (a.names.map a.withValue)

/-- How an argument is called: the parts between which a line may end. -/
def call (a : Argument α) : List String :=
  let name := a.names.headD ""
  if !a.isRequired then ["[" ++ a.withValue name ++ "]"]
  else
    match a.effect with
    | .value _ => [name, a.placeholder]
    | .help | .flag _ => [name]

end Argument

namespace Manual

def commandChoice (m : Manual α) : String :=
  "\x7b" ++ ",".intercalate (m.commands.map (·.1)) ++ "\x7d"

def commandCall (m : Manual α) : List String :=
  if m.commands.isEmpty then [] else [m.commandChoice, "..."]

/-- How a program is called: in one line if that is wide enough, else with the command in lines of
its own. -/
def usage (m : Manual α) : String :=
  let start := "usage: " ++ m.program
  let named := m.arguments.flatMap Argument.call
  let line := " ".intercalate (start :: named ++ m.commandCall)
  if line.length ≤ helpWidth then line
  else
    let column := start.length + 1
    start ++ " " ++ ("\n" ++ blanks column).intercalate
      (fill (helpWidth - column) named ++ fill (helpWidth - column) m.commandCall)

def column (m : Manual α) : Nat :=
  let headers := m.arguments.map Argument.header ++
    if m.commands.isEmpty then [] else m.commandChoice :: m.commands.map (·.1)
  min ((headers.map String.length).foldl max 0 + 4) farthestColumn

/-- What is said about one thing: beside its header if that is short, else below it. -/
def entry (column indent : Nat) (header summary : String) : List String :=
  let lines := fill (helpWidth - column) (summary.splitOn " ")
  if header.length + indent + 2 ≤ column then
    match lines with
    | [] => [blanks indent ++ header]
    | line :: more =>
      (blanks indent ++ header ++ blanks (column - indent - header.length) ++ line) ::
        more.map (blanks column ++ ·)
  else (blanks indent ++ header) :: lines.map (blanks column ++ ·)

def commandEntries (m : Manual α) : List String :=
  if m.commands.isEmpty then []
  else
    "positional arguments:" :: entry m.column 2 m.commandChoice "Available commands" ++
      m.commands.flatMap fun c => entry m.column 4 c.1 c.2

def argumentEntries (m : Manual α) : List String :=
  "options:" :: m.arguments.flatMap fun a => entry m.column 2 a.header a.summary

/-- The help text: blocks with an empty line between them. -/
def help (m : Manual α) : String :=
  let blocks := [m.usage, m.description, "\n".intercalate m.commandEntries,
    "\n".intercalate m.argumentEntries, m.closing]
  "\n\n".intercalate (blocks.filter (· ≠ "")) ++ "\n"

end Manual

end SoundAtlas.CommandLine
