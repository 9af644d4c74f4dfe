import Calculator.Settings.Value
import Calculator.Text.Quoted

/-!
# Settings of the shell

The settings are built from values offered by name. A setting without an
offered value has its default; each offered value must obey the rule of its
setting, and all violations are reported together.
-/

namespace Calculator

structure Settings where
  prompt : Text
  threshold : Settings.Threshold
  historyFile : Option Text
  showBanner : Bool
  exitMessage : Text
  deriving DecidableEq, Repr

namespace Settings

/-- The settings, as places for values. -/
inductive Field where
  | prompt
  | threshold
  | historyFile
  | showBanner
  | exitMessage
  deriving DecidableEq, Repr

/-- The name under which a value is offered for a setting. -/
def Field.name : Field → String
  | .prompt => "prompt"
  | .threshold => "log_level"
  | .historyFile => "history_file"
  | .showBanner => "show_banner"
  | .exitMessage => "exit_message"

/-- Values offered for settings, by name. Of two values under one name the
first is taken, and names of no setting are passed over. -/
abbrev Offers := List (Text × Value)

def Offers.get? (offers : Offers) (field : Field) : Option Value :=
  offers.lookup field.name.toList

/-- The settings without any offered value. -/
def default : Settings where
  prompt := "> ".toList
  threshold := .warning
  historyFile := none
  showBanner := false
  exitMessage := "Bye!".toList

/-- The value of one setting: what its rule makes of the offered value, or the
default. -/
def settle {α : Type} (offers : Offers) (field : Field) (rule : Value → Except Violation α)
    (fallback : α) : Except (Field × Violation) α :=
  match offers.get? field with
  | some value => (rule value).mapError fun violation => (field, violation)
  | none => .ok fallback

/-- The violation of a setting that could not be settled. -/
def violation? {α : Type} : Except (Field × Violation) α → List (Field × Violation)
  | .ok _ => []
  | .error violation => [violation]

/-- The settings that the offered values make, or the violations in the order
of the settings. -/
def build (offers : Offers) : Except (List (Field × Violation)) Settings :=
  let prompt := settle offers .prompt Value.toText default.prompt
  let threshold := settle offers .threshold Value.toThreshold default.threshold
  let historyFile := settle offers .historyFile Value.toFile default.historyFile
  let showBanner := settle offers .showBanner Value.toFlag default.showBanner
  let exitMessage := settle offers .exitMessage Value.toNonempty default.exitMessage
  match prompt, threshold, historyFile, showBanner, exitMessage with
  | .ok prompt, .ok threshold, .ok historyFile, .ok showBanner, .ok exitMessage =>
      .ok { prompt, threshold, historyFile, showBanner, exitMessage }
  | _, _, _, _, _ =>
      .error <| violation? prompt ++ violation? threshold ++ violation? historyFile ++
        violation? showBanner ++ violation? exitMessage

def describe (settings : Settings) : String :=
  "\x7b'prompt': " ++ settings.prompt.quoted ++
    ", 'log_level': " ++ Text.quoted settings.threshold.name.toList ++
    ", 'history_file': " ++ (settings.historyFile.map Text.quoted).getD "None" ++
    ", 'show_banner': " ++ (if settings.showBanner then "True" else "False") ++
    ", 'exit_message': " ++ settings.exitMessage.quoted ++ "\x7d"

end Settings

end Calculator
