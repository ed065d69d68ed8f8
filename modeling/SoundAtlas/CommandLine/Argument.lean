import SoundAtlas.Text.Line

/-!
The words of a command line, read as named arguments. A name can be cut short as long as it stays
clear which one is meant, a value can stand in the word of its name or in the next one, and single
letters can share a dash. After `--` nothing is a name.
-/

namespace SoundAtlas.CommandLine

inductive Effect (α : Type) where
  /-- Reading ends, and help is given. -/
  | help
  | flag (set : α → α)
  /-- A value is taken, if it is one. -/
  | value (set : String → α → Option α)

structure Argument (α : Type) where
  names : List String
  effect : Effect α
  /-- What help says about it. -/
  summary : String
  /-- Whether nothing can be done without it. -/
  isRequired : Bool

variable {α : Type}

def namesOf (args : List (Argument α)) : List (String × Argument α) :=
  args.flatMap fun a => a.names.map fun n => (n, a)

/-! ### Single words -/

inductive Word (α : Type) where
  | plain
  /-- It looks like the name of an argument, and is none. -/
  | unknown
  | ambiguous
  /-- A name, and the text that stands behind it in the word, if there is one: behind `=`, or behind
  a letter. -/
  | named (name : String) (a : Argument α) (behind : Option (List Char))

/-- A run of digits of any script that is not empty. -/
def isDigits (cs : List Char) : Bool :=
  !cs.isEmpty && cs.all fun c => (Text.decimalValue? c).isSome

def withoutLineFeed (cs : List Char) : List Char :=
  if cs.getLast? = some '\n' then cs.dropLast else cs

/-- Whether a word writes a negative number, and so is no name. -/
def isNegative (cs : List Char) : Bool :=
  match withoutLineFeed cs with
  | '-' :: number =>
    match Text.split '.' number with
    | [digits] => isDigits digits
    | [whole, fraction] => (whole.isEmpty || isDigits whole) && isDigits fraction
    | _ => false
  | _ => false

/-- What stands behind the first `=` of a word, if there is one. -/
def afterEquals? (cs : List Char) : Option (List Char) :=
  match cs.dropWhile (· ≠ '=') with
  | [] => none
  | _ :: behind => some behind

/-- The names that a word may stand for. A long one may be cut short, before `=` or the end of the
word; a letter may have a text behind it. -/
def candidates (table : List (String × Argument α)) (cs : List Char) : List (Word α) :=
  if "--".toList.isPrefixOf cs then
    let front := cs.takeWhile (· ≠ '=')
    table.filterMap fun e =>
      if front.isPrefixOf e.1.toList then some (.named e.1 e.2 (afterEquals? cs)) else none
  else
    table.filterMap fun e =>
      if e.1.toList = cs.take 2 then some (.named e.1 e.2 (some (cs.drop 2)))
      else if cs.isPrefixOf e.1.toList then some (.named e.1 e.2 none)
      else none

/-- A word that may stand for names, of which there have to be one. -/
def Word.choose (cs : List Char) : List (Word α) → Word α
  | [w] => w
  | [] => if isNegative cs || cs.contains ' ' then .plain else .unknown
  | _ => .ambiguous

/-- What a word is, among names. A whole name, alone or before `=`, goes before all else. -/
def Word.ofString (table : List (String × Argument α)) (w : String) : Word α :=
  let cs := w.toList
  let front := cs.takeWhile (· ≠ '=')
  if cs.head? ≠ some '-' || w = "-" then .plain
  else
    match table.lookup w, table.lookup (String.ofList front) with
    | some a, _ => .named w a none
    | none, some a => .named (String.ofList front) a (afterEquals? cs)
    | none, none => Word.choose cs (candidates table cs)

def isPlain (table : List (String × Argument α)) (w : String) : Bool :=
  match Word.ofString table w with
  | .plain => true
  | _ => false

/-- Whether a word stands for more than one name. -/
def isAmbiguous (table : List (String × Argument α)) (w : String) : Bool :=
  match Word.ofString table w with
  | .ambiguous => true
  | _ => false

/-! ### Words with more than one argument -/

structure Bundle (α : Type) where
  /-- What its flags and values do. -/
  set : α → Option α
  asksHelp : Bool
  /-- What is done with the next word. -/
  wants : Option (String → α → Option α)

/-- What a name without anything behind it asks for. -/
def Effect.alone : Effect α → Bundle α
  | .help => { set := some, asksHelp := true, wants := none }
  | .flag f => { set := some ∘ f, asksHelp := false, wants := none }
  | .value f => { set := some, asksHelp := false, wants := some f }

def Bundle.ofValue (f : String → α → Option α) (value : List Char) : Bundle α :=
  { set := f (String.ofList value), asksHelp := false, wants := none }

def Bundle.before (b c : Bundle α) : Bundle α :=
  { c with set := fun a => (b.set a).bind c.set, asksHelp := b.asksHelp || c.asksHelp }

/-- What a letter asks for, of which the effect is given, with all that stands behind it: its value,
or more letters. Nothing if one of these is no name. -/
def Bundle.ofLetters? (table : List (String × Argument α)) :
    Effect α → List Char → Option (Bundle α)
  | e, [] => some e.alone
  | .value f, c :: cs => some (.ofValue f (c :: cs))
  | e, c :: cs =>
    match table.lookup (String.ofList ['-', c]) with
    | none => none
    | some next => (ofLetters? table next.effect cs).map e.alone.before

/-- What a name asks for with the text behind it in its word; nothing if that makes no sense. A name
that takes no value has no text behind it, unless it is a letter and the text more letters. -/
def Bundle.ofName? (table : List (String × Argument α)) (isLetter : Bool) :
    Effect α → Option (List Char) → Option (Bundle α)
  | e, none => some e.alone
  | .value f, some cs => some (.ofValue f cs)
  | e, some cs => if isLetter && !cs.isEmpty then ofLetters? table e cs else none

def isLetterName (name : String) : Bool :=
  !"--".toList.isPrefixOf name.toList

/-! ### Command lines -/

inductive Ending (α : Type) where
  | help
  | misuse
  /-- All has been read: whether something was no argument, and the command, if there is one, with
  the words behind it. -/
  | done (a : α) (leftover : Bool) (command : Option (String × List String))

/-- Reads words one after the other. If a command is expected the first plain word is it, and the
words behind it are left to it. -/
def readWords (table : List (String × Argument α)) (hasCommand : Bool) :
    α → (leftover : Bool) → List String → Ending α
  | a, leftover, [] => .done a leftover none
  | a, leftover, w :: ws =>
    if w = "--" then .done a true none
    else
      match Word.ofString table w with
      | .ambiguous => .misuse
      | .unknown => readWords table hasCommand a true ws
      | .plain =>
        if hasCommand then .done a leftover (some (w, ws)) else readWords table hasCommand a true ws
      | .named name x behind =>
        match Bundle.ofName? table (isLetterName name) x.effect behind with
        | none => .misuse
        | some b =>
          match b.wants, ws with
          | none, ws =>
            if b.asksHelp then .help
            else
              match b.set a with
              | none => .misuse
              | some a => readWords table hasCommand a leftover ws
          | some _, [] => .misuse
          | some f, v :: vs =>
            if v = "--" || !isPlain table v then .misuse
            else if b.asksHelp then .help
            else
              match (b.set a).bind (f v) with
              | none => .misuse
              | some a => readWords table hasCommand a leftover vs

/-- Reads a command line. A word before `--` that stands for more than one name is refused before
anything else is looked at. -/
def read (args : List (Argument α)) (hasCommand : Bool) (a : α) (words : List String) :
    Ending α :=
  let table := namesOf args
  if (words.takeWhile (· ≠ "--")).any (isAmbiguous table) then .misuse
  else readWords table hasCommand a false words

end SoundAtlas.CommandLine
