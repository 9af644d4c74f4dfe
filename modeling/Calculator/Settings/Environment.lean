import Calculator.Settings.Basic

/-!
# Settings from the environment

Variables of the environment offer values for all settings but the exit
message. Explicit values override them; an explicit null overrides nothing.
-/

namespace Calculator.Settings

abbrev Environment := List (Text × Text)

/-- The texts that set the banner in the environment, in any case. -/
def bannerTexts : List String :=
  ["1", "true", "yes", "on"]

/-- The value that the environment offers for the banner. Every text is one. -/
def bannerValue (text : Text) : Value :=
  .flag (bannerTexts.contains (String.ofList (text.strip.map Char.toLower)))

/-- The variable of the environment that offers a value for a setting. -/
def Field.variableName? : Field → Option String
  | .prompt => some "SMARTCALC_PROMPT"
  | .threshold => some "SMARTCALC_LOG_LEVEL"
  | .historyFile => some "SMARTCALC_HISTORY_FILE"
  | .showBanner => some "SMARTCALC_BANNER"
  | .exitMessage => none

def Field.valueOfText : Field → Text → Value
  | .showBanner, text => bannerValue text
  | _, text => .text text

def Environment.offer? (environment : Environment) (field : Field) : Option Value :=
  (field.variableName?.bind fun name => environment.lookup name.toList).map field.valueOfText

/-- The value that the environment offers for a setting, under its name. -/
def Environment.offer (environment : Environment) (field : Field) : Offers :=
  (environment.offer? field).toList.map fun value => (field.name.toList, value)

def Environment.offers (environment : Environment) : Offers :=
  [Field.prompt, .threshold, .historyFile, .showBanner].flatMap environment.offer

/-- The settings that the environment and the overrides make. -/
def fromEnvironment (environment : Environment) (overrides : Offers) :
    Except (List (Field × Violation)) Settings :=
  build ((overrides.filter fun override => override.2 ≠ .null) ++ environment.offers)

end Calculator.Settings
