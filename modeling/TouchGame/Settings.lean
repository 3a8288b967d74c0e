import TouchGame.Number.Numeral
import TouchGame.Text.Quoted

/-!
# Settings

The settings of the search for a way to win and of a repair, and of the service that revises rules,
and how they are read from the variables of an environment.

* `Settings.standard` : the settings where nothing is said.
* `Environment.read` : the settings that variables with a common stem say.
-/

namespace TouchGame

/-- The settings of a search and of a repair. -/
structure Settings where
  /-- The seconds after which a game is lost. -/
  timeLimit : Number
  /-- The seconds that a player takes for a tap. -/
  secondsPerTap : Number
  /-- The most fixes of single values in one repair. -/
  maxAutoRepairs : Number
  /-- Whether a repair leaves revision out. -/
  dryRun : Bool
  deriving DecidableEq, Repr

/-- The settings where nothing is said. -/
def Settings.standard : Settings := ⟨.thousandths 15000, .thousandths 500, 10, false⟩

/-- All that the variables of an environment say. -/
structure Environment where
  settings : Settings
  model : String
  apiKey : Option String
  baseUrl : Option String
  deriving DecidableEq, Repr

/-- A variable that has no number where it should. -/
inductive VariableFault where
  | notReal (text : String)
  | notInteger (text : String)
  | tooLong (digits : Nat)
  deriving DecidableEq, Repr

namespace VariableFault

/-- The most characters of a quoted text that the message about a whole number shows. -/
def shownCharacters : Nat := 200

/-- The wording of a variable's fault. -/
def message : VariableFault → String
  | .notReal text => "could not convert string to float: " ++ Text.quoted text
  | .notInteger text =>
    "invalid literal for int() with base 10: " ++
      String.ofList ((Text.quoted text).toList.take shownCharacters)
  | .tooLong digits => Numeral.tooLongMessage digits

end VariableFault

namespace Environment

/-- A text without blanks at its ends, its digits in their plain form. -/
def plain (text : String) : List Char :=
  Numeral.plainDigits (Text.trim Text.isBlank text.toList)

/-- A variable as a double, or a default where it is not set. -/
def real (default : Number) : Option String → Except VariableFault Number
  | none => .ok default
  | some text => match Numeral.real? (plain text) with
    | some x => .ok (.real x)
    | none => .error (.notReal text)

/-- A variable as a whole number, or a default where it is not set. -/
def integer (default : Number) : Option String → Except VariableFault Number
  | none => .ok default
  | some text => match Numeral.integer (plain text) with
    | .ok n => .ok (.int n)
    | .error .unreadable => .error (.notInteger text)
    | .error (.tooLong digits) => .error (.tooLong digits)

def switchWords : List String := ["1", "true", "yes", "on"]

def switch (default : Bool) : Option String → Bool
  | none => default
  | some text => switchWords.contains (Numeral.lowerWord (Text.trim Text.isBlank text.toList))

def standardModel : String := "gpt-4o-mini"

/-- The environment of some variables; those of this library start with a common stem. -/
def read (stem : String) (lookup : String → Option String) : Except VariableFault Environment := do
  let own (name : String) := lookup (stem ++ "_" ++ name)
  let standard := Settings.standard
  let timeLimit ← real standard.timeLimit (own "GAME_TIME_LIMIT")
  let secondsPerTap ← real standard.secondsPerTap (own "SECONDS_PER_TAP")
  let maxAutoRepairs ← integer standard.maxAutoRepairs (own "MAX_AUTO_REPAIRS")
  return {
    settings := ⟨timeLimit, secondsPerTap, maxAutoRepairs, switch standard.dryRun (own "DRY_RUN")⟩
    model := (own "REWRITE_MODEL").getD standardModel
    apiKey := lookup "OPENAI_API_KEY"
    baseUrl := lookup "OPENAI_API_BASE_URL" }

end Environment

end TouchGame
