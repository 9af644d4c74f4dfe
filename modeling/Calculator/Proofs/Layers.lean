import Calculator.Proofs.Rules
import Calculator.Settings.Environment

/-! # Settings from layers

Overrides lie over the environment, and the environment over the defaults. For each
setting one value wins, and only that value is looked at: what the winning values are
decides which settings come out, or which settings are complained of.
-/

namespace Calculator.Settings

namespace Field

/-- All settings, in the order in which they are declared. -/
def all : List Field :=
  [.prompt, .threshold, .historyFile, .showBanner, .exitMessage]

theorem mem_all (field : Field) : field ∈ all := by
  cases field <;> decide

theorem name_toList_inj {field other : Field} :
    field.name.toList = other.name.toList ↔ field = other := by
  cases field <;> cases other <;> decide

end Field

/-- Settings in which each setting is settled by the value given for it, or is as it is
when nothing is given. -/
def MadeOf (given : Field → Option Value) (settings : Settings) : Prop :=
  ∀ field,
    match given field with
    | some value => Settles settings field value
    | none => IsDefault settings field

/-- The violations of the given values, all of them, in the order of the settings. -/
structure ListsViolations (given : Field → Option Value)
    (violations : List (Field × Violation)) : Prop where
  mem_iff (field : Field) (violation : Violation) :
    (field, violation) ∈ violations ↔
      ∃ value, given field = some value ∧ Violates field value violation
  ordered : (violations.map Prod.fst).Sublist Field.all

/-- What a rule finds wrong with the value that it was given. -/
def Violation.ofResult? {α : Type} : Except Violation α → Option Violation
  | .ok _ => none
  | .error violation => some violation

theorem Violation.ofResult?_eq_some_iff {α : Type} {result : Except Violation α}
    {violation : Violation} : ofResult? result = some violation ↔ result = .error violation := by
  cases result <;> simp [ofResult?]

/-- What the check of a setting says against a value. -/
def Field.objection? : Field → Value → Option Violation
  | .prompt, value => Violation.ofResult? value.toText
  | .threshold, value => Violation.ofResult? value.toThreshold
  | .historyFile, value => Violation.ofResult? value.toFile
  | .showBanner, value => Violation.ofResult? value.toFlag
  | .exitMessage, value => Violation.ofResult? value.toNonempty

theorem Field.objection?_eq_some_iff {field : Field} {value : Value} {violation : Violation} :
    field.objection? value = some violation ↔ Violates field value violation := by
  cases field with
  | prompt => exact Violation.ofResult?_eq_some_iff.trans violates_prompt_iff.symm
  | threshold => exact Violation.ofResult?_eq_some_iff.trans violates_threshold_iff.symm
  | historyFile => exact Violation.ofResult?_eq_some_iff.trans violates_historyFile_iff.symm
  | showBanner => exact Violation.ofResult?_eq_some_iff.trans violates_showBanner_iff.symm
  | exitMessage => exact Violation.ofResult?_eq_some_iff.trans violates_exitMessage_iff.symm

/-- The objections to the values given for some of the settings. -/
def objections (given : Field → Option Value) (fields : List Field) : List (Field × Violation) :=
  fields.filterMap fun field => ((given field).bind field.objection?).map (field, ·)

section Violations

variable {given : Field → Option Value} {violations others : List (Field × Violation)}

theorem map_fst_objections_sublist (given : Field → Option Value) (fields : List Field) :
    ((objections given fields).map Prod.fst).Sublist fields := by
  induction fields with
  | nil => exact List.Sublist.refl []
  | cons first rest ih =>
      rw [objections, List.filterMap_cons]
      cases (given first).bind first.objection? with
      | none => exact ih.cons first
      | some violation => exact ih.cons_cons first

theorem listsViolations_objections (given : Field → Option Value) :
    ListsViolations given (objections given Field.all) where
  mem_iff field violation := by
    simp only [objections, List.mem_filterMap, Option.map_eq_some_iff, Prod.mk.injEq,
      Option.bind_eq_some_iff, Field.objection?_eq_some_iff]
    constructor
    · rintro ⟨_, _, _, hviolation, rfl, rfl⟩
      exact hviolation
    · intro hviolation
      exact ⟨field, field.mem_all, violation, hviolation, rfl, rfl⟩
  ordered := map_fst_objections_sublist given Field.all

/-- The place of a setting in their order. -/
def Field.position (field : Field) : Nat :=
  all.idxOf field

theorem ListsViolations.pairwise (h : ListsViolations given violations) :
    violations.Pairwise fun first second => first.1.position < second.1.position := by
  have hall : Field.all.Pairwise fun first second => first.position < second.position := by decide
  have hfields := List.Pairwise.sublist h.ordered hall
  rwa [List.pairwise_map] at hfields

theorem ListsViolations.nodup (h : ListsViolations given violations) : violations.Nodup :=
  h.pairwise.imp fun hlt heq => (heq ▸ hlt).ne rfl

/-- There is one way to list the violations. -/
theorem ListsViolations.unique (h : ListsViolations given violations)
    (hothers : ListsViolations given others) : violations = others := by
  have hperm : violations.Perm others :=
    (List.perm_ext_iff_of_nodup h.nodup hothers.nodup).mpr fun entry =>
      (h.mem_iff entry.1 entry.2).trans (hothers.mem_iff entry.1 entry.2).symm
  exact hperm.eq_of_pairwise (fun _ _ _ _ hlt hgt => absurd hgt (Nat.lt_asymm hlt)) h.pairwise
    hothers.pairwise

theorem listsViolations_iff :
    ListsViolations given violations ↔ violations = objections given Field.all := by
  constructor
  · exact fun h => h.unique (listsViolations_objections given)
  · rintro rfl
    exact listsViolations_objections given

/-- There is something to list if a value violates its rule. -/
theorem exists_ne_nil_and_lists_iff :
    (∃ violations, violations ≠ [] ∧ ListsViolations given violations) ↔
      ∃ field value violation, given field = some value ∧ Violates field value violation := by
  constructor
  · rintro ⟨violations, hne, hlists⟩
    obtain ⟨⟨field, violation⟩, hmem⟩ := List.exists_mem_of_ne_nil violations hne
    obtain ⟨value, hvalue, hviolates⟩ := (hlists.mem_iff field violation).mp hmem
    exact ⟨field, value, violation, hvalue, hviolates⟩
  · rintro ⟨field, value, violation, hvalue, hviolates⟩
    have hlists := listsViolations_objections given
    exact ⟨_, List.ne_nil_of_mem ((hlists.mem_iff field violation).mpr ⟨value, hvalue, hviolates⟩),
      hlists⟩

end Violations

section Build

variable {α : Type} {offers : Offers} {field : Field} {rule : Value → Except Violation α}
  {fallback chosen : α} {settings : Settings} {violations : List (Field × Violation)}

theorem settle_eq_ok_iff
    (hrule : ∀ value, Settles settings field value ↔ rule value = .ok chosen)
    (hfallback : IsDefault settings field ↔ chosen = fallback) :
    settle offers field rule fallback = .ok chosen ↔
      match offers.get? field with
      | some value => Settles settings field value
      | none => IsDefault settings field := by
  rw [settle]
  cases offers.get? field with
  | none => simp only [Except.ok.injEq, hfallback, eq_comm]
  | some value => cases h : rule value <;> simp [Except.mapError, hrule, h]

theorem violation?_settle :
    violation? (settle offers field rule fallback) =
      (((offers.get? field).bind fun value => Violation.ofResult? (rule value)).map
        (field, ·)).toList := by
  rw [settle]
  cases offers.get? field with
  | none => rfl
  | some value =>
      cases h : rule value <;> simp [Except.mapError, violation?, Violation.ofResult?, h]

theorem violation?_eq_nil_iff {result : Except (Field × Violation) α} :
    violation? result = [] ↔ ∃ value, result = .ok value := by
  cases result <;> simp [violation?]

theorem objections_get? (offers : Offers) :
    objections offers.get? Field.all =
      violation? (settle offers .prompt Value.toText default.prompt) ++
        violation? (settle offers .threshold Value.toThreshold default.threshold) ++
        violation? (settle offers .historyFile Value.toFile default.historyFile) ++
        violation? (settle offers .showBanner Value.toFlag default.showBanner) ++
        violation? (settle offers .exitMessage Value.toNonempty default.exitMessage) := by
  simp only [violation?_settle, objections, List.filterMap_eq_flatMap_toList, Field.all,
    List.flatMap_cons, List.flatMap_nil, List.append_assoc, List.append_nil]
  rfl

theorem madeOf_get?_iff :
    MadeOf offers.get? settings ↔
      settle offers .prompt Value.toText default.prompt = .ok settings.prompt ∧
        settle offers .threshold Value.toThreshold default.threshold = .ok settings.threshold ∧
        settle offers .historyFile Value.toFile default.historyFile = .ok settings.historyFile ∧
        settle offers .showBanner Value.toFlag default.showBanner = .ok settings.showBanner ∧
        settle offers .exitMessage Value.toNonempty default.exitMessage =
          .ok settings.exitMessage := by
  have hname : IsDefault settings .threshold ↔ settings.threshold = default.threshold :=
    @Threshold.name_inj settings.threshold .warning
  rw [settle_eq_ok_iff (fun _ => settles_prompt_iff) (Iff.refl (_ = default.prompt)),
    settle_eq_ok_iff (fun _ => settles_threshold_iff) hname,
    settle_eq_ok_iff (fun _ => settles_historyFile_iff) (Iff.refl (_ = default.historyFile)),
    settle_eq_ok_iff (fun _ => settles_showBanner_iff) (Iff.refl (_ = default.showBanner)),
    settle_eq_ok_iff (fun _ => settles_exitMessage_iff) (Iff.refl (_ = default.exitMessage))]
  constructor
  · intro h
    exact ⟨h .prompt, h .threshold, h .historyFile, h .showBanner, h .exitMessage⟩
  · rintro ⟨hprompt, hthreshold, hfile, hbanner, hmessage⟩ field
    cases field with
    | prompt => exact hprompt
    | threshold => exact hthreshold
    | historyFile => exact hfile
    | showBanner => exact hbanner
    | exitMessage => exact hmessage

theorem build_eq_ok_iff : build offers = .ok settings ↔ MadeOf offers.get? settings := by
  rw [madeOf_get?_iff, build]
  split
  next hprompt hthreshold hfile hbanner hmessage =>
    rw [hprompt, hthreshold, hfile, hbanner, hmessage]
    cases settings
    simp
  next hnone =>
    refine ⟨nofun, ?_⟩
    rintro ⟨hprompt, hthreshold, hfile, hbanner, hmessage⟩
    exact (hnone _ _ _ _ _ hprompt hthreshold hfile hbanner hmessage).elim

theorem build_eq_error_iff :
    build offers = .error violations ↔
      violations ≠ [] ∧ ListsViolations offers.get? violations := by
  rw [listsViolations_iff, objections_get?, build]
  split
  next hprompt hthreshold hfile hbanner hmessage =>
    rw [hprompt, hthreshold, hfile, hbanner, hmessage]
    simp [violation?]
  next hnone =>
    rw [Except.error.injEq]
    constructor
    · rintro rfl
      refine ⟨fun hnil => ?_, rfl⟩
      simp only [List.append_eq_nil_iff, violation?_eq_nil_iff] at hnil
      obtain ⟨⟨⟨⟨⟨_, hprompt⟩, ⟨_, hthreshold⟩⟩, ⟨_, hfile⟩⟩, ⟨_, hbanner⟩⟩, ⟨_, hmessage⟩⟩ := hnil
      exact hnone _ _ _ _ _ hprompt hthreshold hfile hbanner hmessage
    · rintro ⟨_, rfl⟩
      rfl

end Build

/-- What is built of offers depends on nothing but the values offered for the settings. -/
theorem build_congr {offers others : Offers}
    (hsame : ∀ field, offers.get? field = others.get? field) : build offers = build others := by
  simp only [build, settle, hsame]

/-- Offers under the names of settings, for some of the settings. -/
theorem get?_flatMap (given : Field → Option Value) (fields : List Field) (field : Field) :
    Offers.get? (fields.flatMap fun other =>
        (given other).toList.map fun value => (other.name.toList, value)) field =
      if field ∈ fields then given field else none := by
  induction fields with
  | nil => rfl
  | cons first rest ih =>
      rw [Offers.get?] at ih
      rw [Offers.get?, List.flatMap_cons, List.lookup_append, ih]
      by_cases hfirst : field = first
      · subst hfirst
        cases given field <;> simp
      · have hnone : ((given first).toList.map fun value => (first.name.toList, value)).lookup
            field.name.toList = none := by
          rw [List.lookup_eq_none_iff]
          intro offer hoffer
          obtain ⟨value, _, rfl⟩ := List.mem_map.mp hoffer
          exact bne_iff_ne.mpr fun heq => hfirst (Field.name_toList_inj.mp heq)
        rw [hnone]
        simp [hfirst]

/-- The value that overrides give a setting: the first under its name that is not null. -/
def Offers.override? (overrides : Offers) (field : Field) : Option Value :=
  (overrides.find? fun override => override.1 = field.name.toList ∧ override.2 ≠ .null).map Prod.snd

/-- A text that sets the banner in the environment: one of four words in any case, perhaps
with blanks around it. -/
def SetsBanner (text : Text) : Prop :=
  ∃ core, Text.Padded core text ∧
    String.ofList (core.map Char.toLower) ∈ ["1", "true", "yes", "on"]

theorem setsBanner_iff {text : Text} :
    SetsBanner text ↔ String.ofList (text.strip.map Char.toLower) ∈ bannerTexts := by
  have hkept : ∀ word ∈ bannerTexts, word.toList.all Char.isAlphanum = true := by decide
  constructor
  · rintro ⟨core, hpadded, hword⟩
    have hletters := hkept _ hword
    rw [String.toList_ofList, List.all_eq_true] at hletters
    have hcore : ∀ c ∈ core.map Char.toLower, Text.isBlank c = false :=
      fun c hc => Text.isBlank_eq_false_of_isAlphanum (hletters c hc)
    rw [(Text.map_strip_eq_iff (fun _ => Text.toLower_of_isBlank) hcore).mpr ⟨core, hpadded, rfl⟩]
    exact hword
  · exact fun hword => ⟨text.strip, text.padded_strip, hword⟩

instance : DecidablePred SetsBanner := fun _ =>
  decidable_of_iff _ setsBanner_iff.symm

/-- The value that the environment gives a setting. For the banner every text is read as
a flag. -/
def Environment.value? (environment : Environment) : Field → Option Value
  | .prompt => (environment.lookup "SMARTCALC_PROMPT".toList).map .text
  | .threshold => (environment.lookup "SMARTCALC_LOG_LEVEL".toList).map .text
  | .historyFile => (environment.lookup "SMARTCALC_HISTORY_FILE".toList).map .text
  | .showBanner =>
      (environment.lookup "SMARTCALC_BANNER".toList).map fun text => .flag (SetsBanner text)
  | .exitMessage => none

/-- The value that wins for a setting: that of the overrides if there is one, and else
that of the environment. -/
def winner? (environment : Environment) (overrides : Offers) (field : Field) : Option Value :=
  (overrides.override? field).or (environment.value? field)

/-- The winning values, offered under the names of their settings. -/
def winners (environment : Environment) (overrides : Offers) : Offers :=
  Field.all.flatMap fun field =>
    (winner? environment overrides field).toList.map fun value => (field.name.toList, value)

section Layers

variable (environment : Environment) (overrides : Offers) (field : Field)

theorem offer?_eq_value? : environment.offer? field = environment.value? field := by
  cases field with
  | showBanner =>
      refine congrArg (Option.map · _) (funext fun text => congrArg Value.flag ?_)
      exact (List.contains_eq_mem _ _).trans (decide_eq_decide.mpr setsBanner_iff.symm)
  | _ => rfl

theorem get?_offers : environment.offers.get? field = environment.value? field := by
  rw [← offer?_eq_value?]
  refine (get?_flatMap environment.offer? _ field).trans ?_
  cases field <;> rfl

theorem get?_winners :
    (winners environment overrides).get? field = winner? environment overrides field := by
  rw [winners, get?_flatMap, if_pos (Field.mem_all field)]

theorem get?_filter :
    Offers.get? (overrides.filter fun override => override.2 ≠ .null) field =
      overrides.override? field := by
  rw [Offers.get?, Offers.override?]
  induction overrides with
  | nil => rfl
  | cons first rest ih =>
      obtain ⟨name, value⟩ := first
      by_cases hvalue : value = .null
      · rw [List.filter_cons_of_neg (by simp [hvalue]),
          List.find?_cons_of_neg (by simp [hvalue]), ih]
      · rw [List.filter_cons_of_pos (by simp [hvalue])]
        by_cases hname : name = field.name.toList
        · subst hname
          rw [List.lookup_cons_self, List.find?_cons_of_pos (by simp [hvalue])]
          rfl
        · rw [List.lookup_cons, beq_false_of_ne (Ne.symm hname),
            List.find?_cons_of_neg (by simp [hname])]
          exact ih

theorem get?_layers :
    Offers.get? ((overrides.filter fun override => override.2 ≠ .null) ++ environment.offers)
        field =
      winner? environment overrides field := by
  have hoverrides := get?_filter overrides field
  have henvironment := get?_offers environment field
  rw [Offers.get?] at hoverrides henvironment ⊢
  rw [List.lookup_append, hoverrides, henvironment, winner?]

variable {environment overrides}

/-- The environment gives no invalid value for the banner. -/
theorem not_violates_showBanner {value : Value} {violation : Violation}
    (hvalue : environment.value? .showBanner = some value) :
    ¬ Violates .showBanner value violation := by
  obtain ⟨text, _, rfl⟩ := Option.map_eq_some_iff.mp hvalue
  rw [violates_showBanner_iff]
  exact nofun

/-- The values of overridden settings in the environment have no part in what wins. -/
theorem winner?_congr {environment' : Environment} {overrides' : Offers}
    (hoverrides : ∀ field, overrides'.override? field = overrides.override? field)
    (henvironment : ∀ field, overrides.override? field = none →
      environment'.value? field = environment.value? field) (field : Field) :
    winner? environment' overrides' field = winner? environment overrides field := by
  rw [winner?, winner?, hoverrides field]
  cases hfree : overrides.override? field with
  | some value => rfl
  | none => rw [henvironment field hfree]

end Layers

section Success

variable {given : Field → Option Value} {settings : Settings}

theorem MadeOf.settles_or_isDefault (h : MadeOf given settings) (field : Field) :
    (∃ value, Settles settings field value) ∨ IsDefault settings field := by
  have hfield := h field
  cases hgiven : given field with
  | none =>
      rw [hgiven] at hfield
      exact Or.inr hfield
  | some value =>
      rw [hgiven] at hfield
      exact Or.inl ⟨value, hfield⟩

theorem MadeOf.exists_not_isBlank (h : MadeOf given settings) {file : Text}
    (hfile : settings.historyFile = some file) : ∃ c ∈ file, Text.isBlank c = false := by
  rcases h.settles_or_isDefault .historyFile with ⟨value, hsettles⟩ | hdefault
  · cases hsettles with
    | noFile hnone | blankFile _ hnone =>
        rw [hfile] at hnone
        cases hnone
    | file htext hsome =>
        rw [hfile] at hsome
        rwa [Option.some.inj hsome]
  · exact absurd (hfile.symm.trans hdefault) nofun

theorem MadeOf.exitMessage_ne_nil (h : MadeOf given settings) : settings.exitMessage ≠ [] := by
  rcases h.settles_or_isDefault .exitMessage with ⟨value, hsettles⟩ | hdefault
  · cases hsettles with
    | exitMessage hne hmessage => rwa [hmessage]
  · have hmessage : settings.exitMessage = "Bye!".toList := hdefault
    rw [hmessage]
    decide

end Success

/-- Settings are made of the values that win. What comes out is what the winning values
make when they are given for their settings: each setting is what its rule makes of its
winning value, or its default. If a winning value violates the rule of its setting there
are no settings; then the violations are all listed, in the order in which the settings
are declared. The environment cannot give an invalid banner. What is overridden in the
environment, other variables, and overrides that are null or for no setting make no
difference. Settings that come out name a known threshold, no blank file and a message
that is not empty. -/
theorem fromEnvironment_of_winners (environment : Environment) (overrides : Offers) :
    Field.all.map Field.name =
      ["prompt", "log_level", "history_file", "show_banner", "exit_message"] ∧
    fromEnvironment environment overrides = build (winners environment overrides) ∧
    (∀ settings, fromEnvironment environment overrides = .ok settings ↔
      MadeOf (winner? environment overrides) settings) ∧
    ((∃ violations, fromEnvironment environment overrides = .error violations) ↔
      ∃ field value violation, winner? environment overrides field = some value ∧
        Violates field value violation) ∧
    (∀ violations, fromEnvironment environment overrides = .error violations ↔
      violations ≠ [] ∧ ListsViolations (winner? environment overrides) violations) ∧
    (∀ value violation, environment.value? .showBanner = some value →
      ¬ Violates .showBanner value violation) ∧
    (∀ (environment' : Environment) (overrides' : Offers),
      (∀ field, overrides'.override? field = overrides.override? field) →
      (∀ field, overrides.override? field = none →
        environment'.value? field = environment.value? field) →
      fromEnvironment environment' overrides' = fromEnvironment environment overrides) ∧
    ∀ settings, fromEnvironment environment overrides = .ok settings →
      settings.threshold.name ∈
          ["CRITICAL", "FATAL", "ERROR", "WARN", "WARNING", "INFO", "DEBUG", "NOTSET"] ∧
        (∀ file, settings.historyFile = some file → ∃ c ∈ file, Text.isBlank c = false) ∧
        settings.exitMessage ≠ [] := by
  have hget := get?_layers environment overrides
  have hok settings : fromEnvironment environment overrides = .ok settings ↔
      MadeOf (winner? environment overrides) settings := by
    rw [fromEnvironment, build_eq_ok_iff, funext hget]
  have herror violations : fromEnvironment environment overrides = .error violations ↔
      violations ≠ [] ∧ ListsViolations (winner? environment overrides) violations := by
    rw [fromEnvironment, build_eq_error_iff, funext hget]
  refine ⟨rfl, ?_, hok, ?_, herror, fun _ _ => not_violates_showBanner,
    fun environment' overrides' hoverrides henvironment => ?_, fun settings hsettings => ?_⟩
  · apply build_congr
    intro field
    rw [hget, get?_winners]
  · simp only [herror, exists_ne_nil_and_lists_iff]
  · apply build_congr
    intro field
    rw [get?_layers, get?_layers]
    exact winner?_congr hoverrides henvironment field
  · have hmade := (hok settings).mp hsettings
    exact ⟨Threshold.mem_thresholdNames_iff.mpr ⟨_, rfl⟩, fun file => hmade.exists_not_isBlank,
      hmade.exitMessage_ne_nil⟩

/-- A bad threshold of the environment is harmless under an override, and without one it
is listed with the other bad values. A word of any case sets the banner, and a flag that
overrides it is taken as it is. -/
theorem fromEnvironment_shadowed_threshold :
    fromEnvironment [("SMARTCALC_LOG_LEVEL".toList, "loud".toList)]
        [("log_level".toList, .text " error ".toList), ("prompt".toList, .null)] =
      fromEnvironment [("HOME".toList, "/".toList)]
        [("colour".toList, .composite), ("log_level".toList, .text " error ".toList)] ∧
    fromEnvironment [("SMARTCALC_LOG_LEVEL".toList, "loud".toList)]
        [("log_level".toList, .text " error ".toList), ("prompt".toList, .null)] =
      .ok ⟨"> ".toList, .error, none, false, "Bye!".toList⟩ ∧
    fromEnvironment [("SMARTCALC_BANNER".toList, " Yes".toList)] [] =
      .ok ⟨"> ".toList, .warning, none, true, "Bye!".toList⟩ ∧
    fromEnvironment [("SMARTCALC_BANNER".toList, "no".toList)]
        [("show_banner".toList, .flag true)] =
      .ok ⟨"> ".toList, .warning, none, true, "Bye!".toList⟩ ∧
    fromEnvironment [("SMARTCALC_LOG_LEVEL".toList, "loud".toList)]
        [("exit_message".toList, .text []), ("prompt".toList, .integer 3)] =
      .error [(.prompt, .notText), (.threshold, .unknownThreshold "loud".toList),
        (.exitMessage, .emptyText)] := by
  obtain ⟨_, _, hok, _, _, _, hsame, _⟩ :=
    fromEnvironment_of_winners [("SMARTCALC_LOG_LEVEL".toList, "loud".toList)]
      [("log_level".toList, .text " error ".toList), ("prompt".toList, .null)]
  obtain ⟨_, _, hword, _⟩ :=
    fromEnvironment_of_winners [("SMARTCALC_BANNER".toList, " Yes".toList)] []
  obtain ⟨_, _, hflag, _⟩ :=
    fromEnvironment_of_winners [("SMARTCALC_BANNER".toList, "no".toList)]
      [("show_banner".toList, .flag true)]
  obtain ⟨_, _, _, _, herror, _⟩ :=
    fromEnvironment_of_winners [("SMARTCALC_LOG_LEVEL".toList, "loud".toList)]
      [("exit_message".toList, .text []), ("prompt".toList, .integer 3)]
  refine ⟨(hsame _ _ (fun field => ?_) fun field hfree => ?_).symm,
    (hok _).mpr fun field => ?_, (hword _).mpr fun field => ?_, (hflag _).mpr fun field => ?_,
    (herror _).mpr ⟨nofun, listsViolations_iff.mpr rfl⟩⟩
  · cases field <;> decide
  · cases field with
    | threshold => cases hfree
    | _ => rfl
  · cases field with
    | threshold => exact .threshold (by decide) ((Threshold.names_name_iff .error).mpr rfl) rfl
    | _ => rfl
  · cases field with
    | showBanner => exact .showBanner (.flag true)
    | _ => rfl
  · cases field with
    | showBanner => exact .showBanner (.flag true)
    | _ => rfl

end Calculator.Settings
