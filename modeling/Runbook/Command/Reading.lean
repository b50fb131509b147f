import Runbook.Command.Verb
import Runbook.Text.Pieces

/-!
Reading a command line word by word. The first word that asks for help or that does not fit decides; what is missing
shows at the end.
-/

namespace Runbook.Command

open Runbook.Text

/-- Why a command line is not carried out. -/
inductive Stop where
  | help (verb : Verb)
  | version
  | misuse (verb : Verb)
deriving DecidableEq, Repr

/-- What the next word is read as. -/
inductive Phase where
  | anything
  /-- The value of a switch. -/
  | value (switch : Switch)
  /-- A value that stands after the verb; no switch follows. -/
  | operand
  /-- A verb to explain. -/
  | explanation
deriving DecidableEq, Repr

/-- A command line between two words. -/
structure Reading where
  verb : Verb := .top
  phase : Phase := .anything
  /-- The switches given before the last verb, each with its value. -/
  outer : List (Switch × String) := []
  /-- The switches given after the last verb, each with its value. -/
  inner : List (Switch × String) := []
  operands : List String := []
deriving Repr

namespace Reading

/-- A switch is given with a value, which is empty for a flag. -/
def give (reading : Reading) (switch : Switch) (value : String) : Except Stop Reading :=
  let form := switch.form
  let isGiven := reading.inner.any fun given => given.1 == switch
  if switch = .help then .error (.help reading.verb)
  else if switch = .version then .error .version
  else if isGiven && !form.repeats then .error (.misuse reading.verb)
  else if form.value.all (·.kind.accepts value) then
    .ok { reading with phase := .anything, inner := reading.inner ++ [(switch, value)] }
  else .error (.misuse reading.verb)

/-- A switch is given, with what is written with it; a switch that takes a value takes the next word if nothing is. -/
def open? (reading : Reading) (switch : Switch) (attached : Option String) : Except Stop Reading :=
  match switch.form.value, attached with
  | none, none => reading.give switch ""
  | none, some _ => .error (.misuse reading.verb)
  | some _, some value => reading.give switch value
  | some _, none => .ok { reading with phase := .value switch }

/-- A word after two hyphens: a name, and after an equals sign a value. -/
def long (reading : Reading) (text : List Char) : Except Stop Reading :=
  let (name, attached) := match cut? '=' text with
    | some (name, value) => (name, some (String.ofList value))
    | none => (text, none)
  match reading.verb.long? (String.ofList name) with
  | some switch => reading.open? switch attached
  | none => .error (.misuse reading.verb)

/-- The letters after one hyphen: flags, and at last a switch with what is left as its value. -/
def letters (reading : Reading) : List Char → Except Stop Reading
  | [] => .ok reading
  | letter :: rest =>
    match reading.verb.short? letter with
    | none => .error (.misuse reading.verb)
    | some switch =>
      if switch.form.value.isSome then
        reading.open? switch <| match rest with
          | [] => none
          | '=' :: value => some (String.ofList value)
          | value => some (String.ofList value)
      else do letters (← reading.give switch "") rest

/-- A word that is not read as a switch: a value that the verb needs. -/
def operand (reading : Reading) (word : String) : Except Stop Reading :=
  match reading.verb.operands[reading.operands.length]? with
  | some operand =>
    if operand.kind.accepts word then .ok { reading with operands := reading.operands ++ [word] }
    else .error (.misuse reading.verb)
  | none => .error (.misuse reading.verb)

/-- The verb below the current one with a name. -/
def verb? (reading : Reading) (word : String) : Option Verb := reading.verb.verbs.find? (·.name == word)

/-- A word that is neither a switch nor a value of one. -/
def plain (reading : Reading) (word : String) : Except Stop Reading :=
  match reading.verb? word with
  | some verb => .ok { verb, outer := reading.outer ++ reading.inner }
  | none =>
    if word == "help" && !reading.verb.verbs.isEmpty then .ok { reading with phase := .explanation }
    else reading.operand word

/-- The reading after one more word. -/
def next (reading : Reading) (word : String) : Except Stop Reading :=
  match reading.phase, word.toList with
  | .explanation, _ =>
    match reading.verb? word with
    | some verb => .ok { reading with verb }
    | none => .error (.misuse reading.verb)
  | .operand, _ => reading.operand word
  | .value _, '-' :: _ :: _ => .error (.misuse reading.verb)
  | .value switch, _ => reading.give switch word
  | .anything, ['-', '-'] => .ok { reading with phase := .operand }
  | .anything, '-' :: '-' :: name => reading.long name
  | .anything, '-' :: letter :: rest => reading.letters (letter :: rest)
  | .anything, _ => reading.plain word

/-- The check of a reading at the end: nothing is missing. -/
def finish (reading : Reading) : Except Stop Reading :=
  match reading.phase with
  | .explanation => .error (.help reading.verb)
  | .value _ => .error (.misuse reading.verb)
  | .anything | .operand =>
    if reading.verb.verbs.isEmpty && reading.operands.length == reading.verb.operands.length then .ok reading
    else .error (.misuse reading.verb)

/-- The reading of a command line. -/
def ofWords (words : List String) : Except Stop Reading := do
  (← words.foldlM next {}).finish

/-- The values that a switch was given. -/
def values (reading : Reading) (switch : Switch) : List String :=
  ((reading.outer ++ reading.inner).filter (·.1 == switch)).map Prod.snd

/-- The value of a switch; the one given after the last verb wins. -/
def value? (reading : Reading) (switch : Switch) : Option String := (reading.values switch).getLast?

/-- A switch was given. -/
def has (reading : Reading) (switch : Switch) : Bool := (reading.value? switch).isSome

/-- The value of a switch, or what stands for it: a setting, or else a standard value. -/
def valueOr? (reading : Reading) (settings : String → Option String) (switch : Switch) : Option String :=
  let form := switch.form.value
  (reading.value? switch).or (((form.bind ValueForm.setting).bind settings).or (form.bind ValueForm.standard))

end Reading
end Runbook.Command
