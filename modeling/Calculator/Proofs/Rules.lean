import Calculator.Proofs.Characters
import Calculator.Proofs.Results
import Calculator.Settings.Basic
import Mathlib.Data.List.DropRight
import Mathlib.Data.List.Forall2

/-! # The rules of the settings

Of the values that may be offered for a setting some settle it, and each of the others
has something wrong with it. Both are told here value by value, and the checks are
shown to keep to it.
-/

namespace Calculator

namespace Text

section Trim

variable {drop : Char → Bool} {before text after : Text}

theorem trim_append_left (hbefore : ∀ c ∈ before, drop c = true) :
    trim drop (before ++ text) = trim drop text := by
  rw [trim, trim, List.dropWhile_append_of_pos hbefore]

theorem trim_append_right (hafter : ∀ c ∈ after, drop c = true) :
    trim drop (text ++ after) = trim drop text := by
  rw [trim, trim, List.dropWhile_append]
  split
  next hnone =>
    rw [List.isEmpty_iff.mp hnone, List.dropWhile_eq_nil_iff.mpr hafter]
  next =>
    have hreverse : ∀ c ∈ after.reverse, drop c = true := by simpa using hafter
    rw [List.reverse_append, List.dropWhile_append_of_pos hreverse]

end Trim

/-- A text is a core with blanks around it. -/
def Padded (core text : Text) : Prop :=
  ∃ before after, text = before ++ core ++ after ∧ ∀ c ∈ before ++ after, isBlank c = true

theorem padded_strip (text : Text) : Padded text.strip text := by
  refine ⟨text.takeWhile isBlank, ((text.dropWhile isBlank).reverse.takeWhile isBlank).reverse,
    ?_, ?_⟩
  · rw [strip, trim, List.append_assoc, ← List.reverse_append, List.takeWhile_append_dropWhile,
      List.reverse_reverse, List.takeWhile_append_dropWhile]
  · intro c hc
    rcases List.mem_append.mp hc with hc | hc
    · exact List.mem_takeWhile_imp hc
    · exact List.mem_takeWhile_imp (List.mem_reverse.mp hc)

theorem Padded.strip_eq {core text : Text} (h : Padded core text)
    (hcore : ∀ c ∈ core, isBlank c = false) : text.strip = core := by
  obtain ⟨before, after, rfl, hblank⟩ := h
  obtain ⟨hbefore, hafter⟩ := List.forall_mem_append.mp hblank
  rw [strip, trim_append_right hafter, trim_append_left hbefore, trim_eq_self hcore]

/-- Nothing is left of a text if it has nothing but blanks. -/
theorem strip_eq_nil_iff {text : Text} : text.strip = [] ↔ ∀ c ∈ text, isBlank c = true := by
  rw [strip, trim, List.reverse_eq_nil_iff, List.dropWhile_eq_nil_iff]
  simp only [List.mem_reverse]
  rw [← List.dropWhile_eq_nil_iff, List.dropWhile_idempotent, List.dropWhile_eq_nil_iff]

/-- If a change of letters makes a word without blanks of what is left of a text, then
blanks stand around what it makes the word of. -/
theorem map_strip_eq_iff {change : Char → Char} {text word : Text}
    (hchange : ∀ c, isBlank c = true → change c = c) (hword : ∀ c ∈ word, isBlank c = false) :
    text.strip.map change = word ↔ ∃ core, Padded core text ∧ core.map change = word := by
  constructor
  · intro hmap
    exact ⟨text.strip, text.padded_strip, hmap⟩
  · rintro ⟨core, hpadded, rfl⟩
    rw [hpadded.strip_eq]
    intro c hc
    cases hblank : isBlank c with
    | false => rfl
    | true =>
        have hkept := hword (change c) (List.mem_map_of_mem hc)
        rw [hchange c hblank, hblank] at hkept
        cases hkept

theorem toLower_of_isBlank {c : Char} (hblank : isBlank c = true) : c.toLower = c := by
  refine dif_neg fun hupper => ?_
  have halpha : c.isAlpha = true :=
    (Bool.or_eq_true _ _).mpr (Or.inl (decide_eq_true hupper))
  rw [isBlank_eq_false_of_isAlpha halpha] at hblank
  cases hblank

theorem toUpper_of_isBlank {c : Char} (hblank : isBlank c = true) : c.toUpper = c := by
  refine dif_neg fun hlower => ?_
  have hletter : c.isLower = true :=
    (Bool.and_eq_true _ _).mpr ⟨decide_eq_true hlower.1, decide_eq_true hlower.2⟩
  have halpha : c.isAlpha = true := (Bool.or_eq_true _ _).mpr (Or.inr hletter)
  rw [isBlank_eq_false_of_isAlpha halpha] at hblank
  cases hblank

end Text

namespace Settings

/-- The names of the thresholds. -/
def thresholdNames : List String :=
  ["CRITICAL", "FATAL", "ERROR", "WARN", "WARNING", "INFO", "DEBUG", "NOTSET"]

/-- A letter and its capital. Beyond ASCII two small letters have a capital in ASCII. -/
def HasCapital (c capital : Char) : Prop :=
  c.toUpper = capital ∨ (c, capital) ∈ [('ı', 'I'), ('ſ', 'S')]

/-- A text gives a name in any case, perhaps with blanks around it. -/
def Names (text : Text) (name : String) : Prop :=
  ∃ core, Text.Padded core text ∧ List.Forall₂ HasCapital core name.toList

/-- The words that a text of any case may be to stand for a set flag. -/
def setWords : List String :=
  ["1", "on", "t", "true", "y", "yes"]

/-- The words that a text of any case may be to stand for an unset flag. -/
def unsetWords : List String :=
  ["0", "off", "f", "false", "n", "no"]

/-- An integer has a place in a signed word of 64 bits. -/
def IsWord (value : Int) : Prop :=
  -9223372036854775808 ≤ value ∧ value < 9223372036854775808

instance (value : Int) : Decidable (IsWord value) :=
  inferInstanceAs (Decidable (_ ∧ _))

/-- The flags that values stand for. -/
inductive Value.StandsFor : Value → Bool → Prop where
  | flag (flag : Bool) : StandsFor (.flag flag) flag
  | one : StandsFor (.integer 1) true
  | zero : StandsFor (.integer 0) false
  | set {text : Text} (htext : String.ofList (text.map Char.toLower) ∈ setWords) :
      StandsFor (.text text) true
  | unset {text : Text} (htext : String.ofList (text.map Char.toLower) ∈ unsetWords) :
      StandsFor (.text text) false

/-- A value settles a setting: the rule of the setting takes it, and this is what it makes
of it. -/
inductive Settles (settings : Settings) : Field → Value → Prop where
  | prompt {text : Text} (hprompt : settings.prompt = text) :
      Settles settings .prompt (.text text)
  | threshold {text : Text} {name : String} (hname : name ∈ thresholdNames)
      (hnames : Names text name) (hthreshold : settings.threshold.name = name) :
      Settles settings .threshold (.text text)
  | noFile (hfile : settings.historyFile = none) : Settles settings .historyFile .null
  | blankFile {text : Text} (htext : ∀ c ∈ text, Text.isBlank c = true)
      (hfile : settings.historyFile = none) : Settles settings .historyFile (.text text)
  | file {text : Text} (htext : ∃ c ∈ text, Text.isBlank c = false)
      (hfile : settings.historyFile = some text) : Settles settings .historyFile (.text text)
  | showBanner {value : Value} (hflag : value.StandsFor settings.showBanner) :
      Settles settings .showBanner value
  | exitMessage {text : Text} (hne : text ≠ []) (hmessage : settings.exitMessage = text) :
      Settles settings .exitMessage (.text text)

/-- A value violates the rule of a setting. -/
inductive Violates : Field → Value → Violation → Prop where
  | notText {field : Field} {value : Value} (hfield : field ∈ [.prompt, .threshold, .exitMessage])
      (hvalue : ∀ text, value ≠ .text text) : Violates field value .notText
  | notFile {value : Value} (hnull : value ≠ .null) (hvalue : ∀ text, value ≠ .text text) :
      Violates .historyFile value .notText
  | unknownThreshold {text : Text} (hnone : ∀ name ∈ thresholdNames, ¬ Names text name) :
      Violates .threshold (.text text) (.unknownThreshold text)
  | unreadableText {text : Text} (hset : String.ofList (text.map Char.toLower) ∉ setWords)
      (hunset : String.ofList (text.map Char.toLower) ∉ unsetWords) :
      Violates .showBanner (.text text) .unreadableFlag
  | unreadableInteger {value : Int} (hone : value ≠ 1) (hzero : value ≠ 0)
      (hword : IsWord value) :
      Violates .showBanner (.integer value) .unreadableFlag
  | largeInteger {value : Int} (hword : ¬ IsWord value) :
      Violates .showBanner (.integer value) .notFlag
  | notFlag {value : Value} (hvalue : value ∈ [.null, .fraction, .composite]) :
      Violates .showBanner value .notFlag
  | emptyMessage : Violates .exitMessage (.text []) .emptyText

/-- A setting is as it is when nothing is given for it. -/
def IsDefault (settings : Settings) : Field → Prop
  | .prompt => settings.prompt = "> ".toList
  | .threshold => settings.threshold.name = "WARNING"
  | .historyFile => settings.historyFile = none
  | .showBanner => settings.showBanner = false
  | .exitMessage => settings.exitMessage = "Bye!".toList

namespace Threshold

theorem capital_eq_iff {c upper : Char} (hupper : upper.isUpper = true) :
    capital c = upper ↔ HasCapital c upper := by
  constructor
  · rintro rfl
    rw [capital]
    split
    next hc => exact Or.inr (by simp [hc])
    next =>
      split
      next hc => exact Or.inr (by simp [hc])
      next => exact Or.inl rfl
  · rintro (rfl | hbeyond)
    · -- neither letter beyond ASCII has a capital by the ASCII rule
      rw [capital, if_neg, if_neg]
      · rintro rfl
        cases hupper
      · rintro rfl
        cases hupper
    · simp only [List.mem_cons, Prod.mk.injEq, List.not_mem_nil, or_false] at hbeyond
      rcases hbeyond with ⟨rfl, rfl⟩ | ⟨rfl, rfl⟩ <;> rfl

theorem map_capital_eq_iff {core word : Text} (hword : ∀ c ∈ word, c.isUpper = true) :
    core.map capital = word ↔ List.Forall₂ HasCapital core word := by
  induction word generalizing core with
  | nil => rw [List.map_eq_nil_iff, List.forall₂_nil_right_iff]
  | cons upper rest ih =>
      obtain ⟨hupper, hrest⟩ := List.forall_mem_cons.mp hword
      cases core with
      | nil => exact ⟨nofun, nofun⟩
      | cons c others =>
          rw [List.map_cons, List.cons.injEq, List.forall₂_cons, capital_eq_iff hupper, ih hrest]

theorem isUpper_of_mem_name (threshold : Threshold) :
    ∀ c ∈ threshold.name.toList, c.isUpper = true := by
  have hall : threshold.name.toList.all Char.isUpper = true := by cases threshold <;> decide
  exact List.all_eq_true.mp hall

theorem capital_of_isBlank {c : Char} (hblank : Text.isBlank c = true) : capital c = c := by
  rw [capital, if_neg, if_neg, Text.toUpper_of_isBlank hblank]
  · rintro rfl
    cases hblank
  · rintro rfl
    cases hblank

theorem names_name_iff {text : Text} (threshold : Threshold) :
    Names text threshold.name ↔
      text.strip.map capital = threshold.name.toList := by
  have hupper := isUpper_of_mem_name threshold
  have hkept : ∀ c ∈ threshold.name.toList, Text.isBlank c = false := by
    intro c hc
    exact Text.isBlank_eq_false_of_isAlpha ((Bool.or_eq_true _ _).mpr (Or.inl (hupper c hc)))
  rw [Text.map_strip_eq_iff (fun _ => capital_of_isBlank) hkept]
  exact exists_congr fun core => and_congr_right fun _ => (map_capital_eq_iff hupper).symm

theorem mem_thresholdNames_iff {name : String} :
    name ∈ thresholdNames ↔ ∃ threshold : Threshold, threshold.name = name := by
  constructor
  · intro hname
    simp only [thresholdNames, List.mem_cons, List.not_mem_nil, or_false] at hname
    rcases hname with rfl | rfl | rfl | rfl | rfl | rfl | rfl | rfl
    · exact ⟨.critical, rfl⟩
    · exact ⟨.fatal, rfl⟩
    · exact ⟨.error, rfl⟩
    · exact ⟨.warn, rfl⟩
    · exact ⟨.warning, rfl⟩
    · exact ⟨.info, rfl⟩
    · exact ⟨.debug, rfl⟩
    · exact ⟨.notset, rfl⟩
  · rintro ⟨threshold, rfl⟩
    cases threshold <;> decide

theorem name_inj {threshold other : Threshold} :
    threshold.name = other.name ↔ threshold = other := by
  cases threshold <;> cases other <;> decide

theorem ofText?_eq_some_iff {text : Text} {threshold : Threshold} :
    ofText? text = some threshold ↔ Names text threshold.name := by
  rw [names_name_iff]
  constructor
  · intro hfound
    have hsame := List.find?_some hfound
    exact (of_decide_eq_true hsame).symm
  · intro hname
    rw [ofText?, hname]
    cases threshold <;> rfl

theorem ofText?_eq_none_iff {text : Text} :
    ofText? text = none ↔ ∀ name ∈ thresholdNames, ¬ Names text name := by
  rw [Option.eq_none_iff_forall_ne_some]
  simp only [ne_eq, ofText?_eq_some_iff, mem_thresholdNames_iff, forall_exists_index,
    forall_apply_eq_imp_iff]

end Threshold

namespace Value

variable {value : Value} {text : Text}

theorem toText_eq_error_iff {violation : Violation} :
    value.toText = .error violation ↔ violation = .notText ∧ ∀ text, value ≠ .text text := by
  cases value with
  | text => exact ⟨nofun, fun h => absurd rfl (h.2 _)⟩
  | null | flag | integer | fraction | composite =>
      constructor
      · rintro ⟨⟩
        exact ⟨rfl, nofun⟩
      · rintro ⟨rfl, _⟩
        rfl

theorem toThreshold_of_ofText? {threshold : Threshold}
    (hfound : Threshold.ofText? text = some threshold) :
    toThreshold (.text text) = .ok threshold := by
  simp only [toThreshold, toText, Except.bind, hfound]

theorem toThreshold_of_ofText?_eq_none (hnone : Threshold.ofText? text = none) :
    toThreshold (.text text) = .error (.unknownThreshold text) := by
  simp only [toThreshold, toText, Except.bind, hnone]

theorem toFile_of_blank (hblank : ∀ c ∈ text, Text.isBlank c = true) :
    toFile (.text text) = .ok none :=
  congrArg Except.ok (if_pos (List.isEmpty_iff.mpr (Text.strip_eq_nil_iff.mpr hblank)))

theorem toFile_of_not_blank (hkept : ∃ c ∈ text, Text.isBlank c = false) :
    toFile (.text text) = .ok (some text) := by
  refine congrArg Except.ok (if_neg ?_)
  rw [List.isEmpty_iff, Text.strip_eq_nil_iff]
  simpa using hkept

/-- No word stands for both flags. -/
theorem not_mem_setWords {word : String} (hunset : word ∈ unsetWords) : word ∉ setWords := by
  have hdisjoint : ∀ word ∈ unsetWords, word ∉ setWords := by decide
  exact hdisjoint word hunset

theorem StandsFor.toFlag_eq {flag : Bool} (h : value.StandsFor flag) :
    value.toFlag = .ok flag := by
  cases h with
  | flag | one | zero => rfl
  | set htext => exact if_pos (List.contains_iff_mem.mpr htext)
  | unset htext =>
      rw [toFlag, flagOfText]
      have hset := not_mem_setWords htext
      rw [← List.contains_iff_mem] at hset
      exact (if_neg hset).trans (if_pos (List.contains_iff_mem.mpr htext))

theorem fitsWord_iff (value : Int) : fitsWord value = true ↔ IsWord value := by
  rw [fitsWord, Bool.and_eq_true, decide_eq_true_iff, decide_eq_true_iff]
  rfl

theorem toFlag_eq_error {violation : Violation} (h : Violates .showBanner value violation) :
    value.toFlag = .error violation := by
  cases h with
  | notText hfield => exact absurd hfield (by decide)
  | unreadableText hset hunset =>
      exact (if_neg (mt List.contains_iff_mem.mp hset)).trans
        (if_neg (mt List.contains_iff_mem.mp hunset))
  | unreadableInteger hone hzero hword =>
      have hfits := (fitsWord_iff _).mpr hword
      rw [toFlag, flagOfInteger, if_neg hone, if_neg hzero, if_pos hfits]
  | largeInteger hword =>
      have hfits := (fitsWord_iff _).not.mpr hword
      rw [toFlag, flagOfInteger, if_neg, if_neg, if_neg hfits]
      · rintro rfl
        exact hword (by decide)
      · rintro rfl
        exact hword (by decide)
  | notFlag hvalue =>
      simp only [List.mem_cons, List.not_mem_nil, or_false] at hvalue
      rcases hvalue with rfl | rfl | rfl <;> rfl

/-- Every value stands for a flag, unless it violates the rule of the banner. -/
theorem standsFor_or_violates (value : Value) :
    (∃ flag, value.StandsFor flag) ∨ ∃ violation, Violates .showBanner value violation := by
  cases value with
  | null | fraction | composite => exact Or.inr ⟨_, .notFlag (by decide)⟩
  | flag flag => exact Or.inl ⟨flag, .flag flag⟩
  | integer value =>
      by_cases hone : value = 1
      · subst hone
        exact Or.inl ⟨true, .one⟩
      by_cases hzero : value = 0
      · subst hzero
        exact Or.inl ⟨false, .zero⟩
      by_cases hword : IsWord value
      · exact Or.inr ⟨_, .unreadableInteger hone hzero hword⟩
      · exact Or.inr ⟨_, .largeInteger hword⟩
  | text text =>
      by_cases hset : String.ofList (text.map Char.toLower) ∈ setWords
      · exact Or.inl ⟨true, .set hset⟩
      by_cases hunset : String.ofList (text.map Char.toLower) ∈ unsetWords
      · exact Or.inl ⟨false, .unset hunset⟩
      · exact Or.inr ⟨_, .unreadableText hset hunset⟩

end Value

section Rules

variable {settings : Settings} {value : Value} {violation : Violation}

theorem settles_prompt_iff :
    Settles settings .prompt value ↔ value.toText = .ok settings.prompt := by
  constructor
  · rintro ⟨rfl⟩
    rfl
  · intro hvalue
    cases value with
    | text text => exact .prompt (Except.ok.inj hvalue).symm
    | null | flag | integer | fraction | composite => cases hvalue

theorem settles_threshold_iff :
    Settles settings .threshold value ↔ value.toThreshold = .ok settings.threshold := by
  constructor
  · intro hsettles
    cases hsettles with
    | threshold _ hnames hthreshold =>
        rw [← hthreshold, ← Threshold.ofText?_eq_some_iff] at hnames
        exact Value.toThreshold_of_ofText? hnames
  · intro hvalue
    cases value with
    | text text =>
        cases hfound : Threshold.ofText? text with
        | none =>
            rw [Value.toThreshold_of_ofText?_eq_none hfound] at hvalue
            cases hvalue
        | some threshold =>
            rw [Value.toThreshold_of_ofText? hfound] at hvalue
            obtain rfl : threshold = settings.threshold := Except.ok.inj hvalue
            have hnames := Threshold.ofText?_eq_some_iff.mp hfound
            exact .threshold (Threshold.mem_thresholdNames_iff.mpr ⟨_, rfl⟩) hnames rfl
    | null | flag | integer | fraction | composite => cases hvalue

theorem settles_historyFile_iff :
    Settles settings .historyFile value ↔ value.toFile = .ok settings.historyFile := by
  constructor
  · intro hsettles
    cases hsettles with
    | noFile hfile => rw [hfile, Value.toFile]
    | blankFile htext hfile => rw [hfile, Value.toFile_of_blank htext]
    | file htext hfile => rw [hfile, Value.toFile_of_not_blank htext]
  · intro hvalue
    cases value with
    | null => exact .noFile (Except.ok.inj hvalue).symm
    | text text =>
        by_cases hblank : ∀ c ∈ text, Text.isBlank c = true
        · rw [Value.toFile_of_blank hblank] at hvalue
          exact .blankFile hblank (Except.ok.inj hvalue).symm
        · have hkept : ∃ c ∈ text, Text.isBlank c = false := by simpa using hblank
          rw [Value.toFile_of_not_blank hkept] at hvalue
          exact .file hkept (Except.ok.inj hvalue).symm
    | flag | integer | fraction | composite => cases hvalue

theorem settles_showBanner_iff :
    Settles settings .showBanner value ↔ value.toFlag = .ok settings.showBanner := by
  constructor
  · intro hsettles
    cases hsettles with
    | showBanner hflag => exact hflag.toFlag_eq
  · intro hvalue
    rcases value.standsFor_or_violates with ⟨flag, hflag⟩ | ⟨violation, hviolates⟩
    · rw [hflag.toFlag_eq] at hvalue
      rw [Except.ok.inj hvalue] at hflag
      exact .showBanner hflag
    · rw [Value.toFlag_eq_error hviolates] at hvalue
      cases hvalue

theorem settles_exitMessage_iff :
    Settles settings .exitMessage value ↔ value.toNonempty = .ok settings.exitMessage := by
  constructor
  · intro hsettles
    cases hsettles with
    | exitMessage hne hmessage =>
        rw [hmessage]
        exact if_neg (mt List.isEmpty_iff.mp hne)
  · intro hvalue
    cases value with
    | text text =>
        cases text with
        | nil => cases hvalue
        | cons c rest => exact .exitMessage (List.cons_ne_nil c rest) (Except.ok.inj hvalue).symm
    | null | flag | integer | fraction | composite => cases hvalue

theorem violates_prompt_iff :
    Violates .prompt value violation ↔ value.toText = .error violation := by
  rw [Value.toText_eq_error_iff]
  constructor
  · intro hviolates
    cases hviolates with
    | notText _ hvalue => exact ⟨rfl, hvalue⟩
  · rintro ⟨rfl, hvalue⟩
    exact .notText (by decide) hvalue

theorem violates_threshold_iff :
    Violates .threshold value violation ↔ value.toThreshold = .error violation := by
  constructor
  · intro hviolates
    cases hviolates with
    | notText _ hvalue =>
        rw [Value.toThreshold, Value.toText_eq_error_iff.mpr ⟨rfl, hvalue⟩]
        rfl
    | unknownThreshold hnone =>
        exact Value.toThreshold_of_ofText?_eq_none (Threshold.ofText?_eq_none_iff.mpr hnone)
  · intro hvalue
    cases value with
    | text text =>
        cases hfound : Threshold.ofText? text with
        | none =>
            rw [Value.toThreshold_of_ofText?_eq_none hfound] at hvalue
            cases hvalue
            exact .unknownThreshold (Threshold.ofText?_eq_none_iff.mp hfound)
        | some threshold =>
            rw [Value.toThreshold_of_ofText? hfound] at hvalue
            cases hvalue
    | null | flag | integer | fraction | composite =>
        cases hvalue
        exact .notText (by decide) nofun

theorem violates_historyFile_iff :
    Violates .historyFile value violation ↔ value.toFile = .error violation := by
  constructor
  · intro hviolates
    cases hviolates with
    | notText hfield => exact absurd hfield (by decide)
    | notFile hnull hvalue =>
        cases value with
        | null => exact absurd rfl hnull
        | text text => exact absurd rfl (hvalue text)
        | flag | integer | fraction | composite => rfl
  · intro hvalue
    cases value with
    | null | text => cases hvalue
    | flag | integer | fraction | composite =>
        cases hvalue
        exact .notFile nofun nofun

theorem violates_showBanner_iff :
    Violates .showBanner value violation ↔ value.toFlag = .error violation := by
  refine ⟨Value.toFlag_eq_error, fun hvalue => ?_⟩
  rcases value.standsFor_or_violates with ⟨flag, hflag⟩ | ⟨found, hviolates⟩
  · rw [hflag.toFlag_eq] at hvalue
    cases hvalue
  · rw [Value.toFlag_eq_error hviolates] at hvalue
    rwa [← Except.error.inj hvalue]

theorem violates_exitMessage_iff :
    Violates .exitMessage value violation ↔ value.toNonempty = .error violation := by
  constructor
  · intro hviolates
    cases hviolates with
    | notText _ hvalue =>
        rw [Value.toNonempty, Value.toText_eq_error_iff.mpr ⟨rfl, hvalue⟩]
        rfl
    | emptyMessage => rfl
  · intro hvalue
    cases value with
    | text text =>
        cases text with
        | nil =>
            cases hvalue
            exact .emptyMessage
        | cons c rest => cases hvalue
    | null | flag | integer | fraction | composite =>
        cases hvalue
        exact .notText (by decide) nofun

end Rules

end Settings

end Calculator
