import Mathlib.Order.MinMax
import Mathlib.Tactic.SplitIfs
import Reckon.Command.Interpret
import Reckon.Proofs.Runs

/-!
# Setting up a command

How the setting up of a command ends, whatever loads its configuration. It finds the settings, or
fails with a fault that the command handles, unless the configuration is a document of which no
value can be made, names a strategy that goes too deep to be written, or has a cap that is no number
at all: an infinity, a day, a moment, a list or a mapping. Those faults escape.
-/

set_option autoImplicit false

namespace Reckon

namespace Datum

mutual

/-- How many levels of data stand inside each other. -/
def depth : Datum → Nat
  | .list items => 1 + itemsDepth items
  | .mapping entries => 1 + entriesDepth entries
  | _ => 1

def itemsDepth : List Datum → Nat
  | [] => 0
  | item :: rest => max item.depth (itemsDepth rest)

def entriesDepth : List (Datum × Datum) → Nat
  | [] => 0
  | (key, value) :: rest => max (max key.depth value.depth) (entriesDepth rest)

end

mutual

theorem depth_gt_of_checkWritable {levels : Nat} (datum : Datum)
    (failed : checkWritable levels datum = .error .tooDeep) : levels < datum.depth := by
  cases levels with
  | zero => cases datum <;> simp only [depth] <;> omega
  | succ levels =>
      cases datum with
      | list items =>
          have deep := depth_gt_of_checkItems items failed
          rw [depth]
          omega
      | mapping entries =>
          have deep := depth_gt_of_checkEntries entries failed
          rw [depth]
          omega
      | integer value =>
          rw [checkWritable] at failed
          split_ifs at failed
          cases failed
      | _ => cases failed

theorem depth_gt_of_checkItems {levels : Nat} (items : List Datum)
    (failed : checkItems levels items = .error .tooDeep) : levels < itemsDepth items := by
  cases items with
  | nil => cases failed
  | cons item rest =>
      rw [itemsDepth]
      rcases except_bind_error failed with itemFailed | ⟨_, -, restFailed⟩
      · exact lt_max_of_lt_left (depth_gt_of_checkWritable item itemFailed)
      · exact lt_max_of_lt_right (depth_gt_of_checkItems rest restFailed)

theorem depth_gt_of_checkEntries {levels : Nat} (entries : List (Datum × Datum))
    (failed : checkEntries levels entries = .error .tooDeep) : levels < entriesDepth entries := by
  cases entries with
  | nil => cases failed
  | cons entry rest =>
      rw [entriesDepth]
      rcases except_bind_error failed with keyFailed | ⟨_, -, failed⟩
      · exact lt_max_of_lt_left
          (lt_max_of_lt_left (depth_gt_of_checkWritable entry.1 keyFailed))
      rcases except_bind_error failed with valueFailed | ⟨_, -, restFailed⟩
      · exact lt_max_of_lt_left
          (lt_max_of_lt_right (depth_gt_of_checkWritable entry.2 valueFailed))
      · exact lt_max_of_lt_right (depth_gt_of_checkEntries rest restFailed)

end

theorem depth_gt_of_writtenWithin {levels : Nat} {datum : Datum}
    (failed : datum.writtenWithin levels = .error .tooDeep) : levels < datum.depth := by
  rcases except_bind_error failed with unwritten | ⟨_, -, written⟩
  · exact depth_gt_of_checkWritable datum unwritten
  · cases written

end Datum

namespace Command

/-- Faults of a document as a whole: its form, its size and its depth. -/
inductive IsOfDocument : Document.Fault → Prop where
  | malformed : IsOfDocument .malformed
  | openScalar : IsOfDocument .openScalar
  | overflow {what : Document.Overflow} : IsOfDocument (.overflow what)
  | tooDeep : IsOfDocument .tooDeep

/-- Data that no integer is near. -/
inductive HasNoInteger : Datum → Prop where
  | infinite {negative : Bool} : HasNoInteger (.real (.infinite negative))
  | day {value : Day} : HasNoInteger (.day value)
  | moment {value : Moment} : HasNoInteger (.moment value)
  | list {items : List Datum} : HasNoInteger (.list items)
  | mapping {entries : List (Datum × Datum)} : HasNoInteger (.mapping entries)

/-- The strategy is left to the configuration, and what that has for it goes too deep to be
written. -/
structure HasDeepStrategy (options : InterpretOptions) (config : Config) : Prop where
  notGiven : options.strategy? = none ∨ options.strategy? = some ""
  deep : ∃ value, config.strategy? = some value ∧
    value.writtenWithin depthLimit = .error .tooDeep

/-- The cap is left to the configuration, and no integer is near what that has for it. -/
structure HasStrangeCap (options : InterpretOptions) (config : Config) : Prop where
  notGiven : options.cap? = none
  strange : ∃ value, config.cap? = some value ∧ HasNoInteger value

section Faults

variable {loader : Config.Loader} {options : InterpretOptions} {files : Files} {config : Config}
variable {fault : SetupFault} {value : Datum} {strategy : Strategy}

theorem not_handlesConfig_iff {fault : Config.Fault} :
    handlesConfig fault = false ↔ ∃ broken, fault = .document broken ∧ IsOfDocument broken := by
  constructor
  · intro escapes
    cases fault with
    | file => cases escapes
    | notAMapping => cases escapes
    | document broken =>
        refine ⟨broken, rfl, ?_⟩
        cases broken with
        | malformed => exact .malformed
        | openScalar => exact .openScalar
        | undecodable => cases escapes
        | value => cases escapes
        | overflow => exact .overflow
        | tooDeep => exact .tooDeep
  · rintro ⟨broken, rfl, ofDocument⟩
    cases ofDocument <;> rfl

theorem not_handlesCap_iff (given : value ≠ .null) :
    (∃ fault, value.toInteger = .error fault ∧ handlesCap fault = false) ↔ HasNoInteger value := by
  constructor
  · rintro ⟨fault, failed, escapes⟩
    cases value with
    | null => exact absurd rfl given
    | boolean => cases failed
    | integer => cases failed
    | real double =>
        cases double with
        | nan =>
            cases failed
            cases escapes
        | infinite => exact .infinite
        | finite => cases failed
    | text written =>
        unfold Datum.toInteger at failed
        cases read : Text.readInteger written with
        | ok => simp [read, Except.mapError] at failed
        | error cause =>
            simp only [read, Except.mapError, Except.error.injEq] at failed
            subst failed
            cases escapes
    | day => exact .day
    | moment => exact .moment
    | list => exact .list
    | mapping => exact .mapping
  · intro noInteger
    cases noInteger <;> exact ⟨_, rfl, rfl⟩

theorem given?_ne_null {key : Text} (found : config.given? key = some value) : value ≠ .null := by
  rintro rfl
  unfold Config.given? at found
  split at found
  · cases found
  next other => exact other found

/-- A cap that is nothing counts as none, with the parser's own as with the general one. -/
theorem cap?_ne_null (found : config.cap? = some value) : value ≠ .null := by
  unfold Config.cap? at found
  dsimp only at found
  split at found
  next ofParser own =>
    obtain rfl := Option.some.inj found
    split at own
    · exact given?_ne_null own
    · cases own
  · exact given?_ne_null found

theorem filter_isEmpty_eq_none_iff {given? : Option Text} :
    given?.filter (fun name => !name.isEmpty) = none ↔ given? = none ∨ given? = some "" := by
  cases given? with
  | none => simp
  | some name =>
      have isEmpty : name.isEmpty = true ↔ name = "" := by
        rw [Text.isEmpty, List.isEmpty_iff]
        exact ⟨Text.ext, fun isNothing => isNothing ▸ rfl⟩
      simp [Option.filter, isEmpty]

theorem load_eq_error_document_iff {path : Text} {broken : Document.Fault} :
    Config.load loader files (some path) = .error (.document broken) ↔
      path ≠ "" ∧ ∃ content, files.content path = .ok content ∧ loader content = .error broken := by
  rw [Config.load]
  cases given : (some path).filter fun path => !path.isEmpty with
  | none =>
      have noPath : path = "" := by simpa using filter_isEmpty_eq_none_iff.mp given
      simp [noPath]
  | some other =>
      obtain ⟨isPath, some⟩ := Option.filter_eq_some_iff.mp given
      obtain rfl := Option.some.inj isPath
      have named : path ≠ "" := by
        rintro rfl
        cases some
      cases opened : files.content path with
      | error cause => simp [opened, Except.mapError, bind, Except.bind]
      | ok content =>
          cases loaded : loader content with
          | error cause => simp [opened, loaded, named, Except.mapError, bind, Except.bind]
          | ok datum =>
              simp only [opened, loaded, Except.mapError, bind, Except.bind]
              split
              · simp [loaded, pure, Except.pure]
              · split <;> simp [loaded, pure, Except.pure]

theorem strategyName_eq_error_iff {given? : Option Text} {default : Text}
    {cause : Datum.WritingFault} :
    strategyName given? config default = .error cause ↔
      (given? = none ∨ given? = some "") ∧
        ∃ value, config.strategy? = some value ∧ value.writtenWithin depthLimit = .error cause := by
  rw [← filter_isEmpty_eq_none_iff, strategyName]
  cases given?.filter fun name => !name.isEmpty with
  | some name => simp
  | none => cases config.strategy? <;> simp

theorem exists_of_resolveStrategy_unknown {given? : Option Text} {default : Text} {cause : Fault}
    (failed : resolveStrategy given? config default = .error (.unknown cause)) :
    ∃ name, cause = .unknownStrategy name := by
  rcases except_bind_error failed with unwritten | ⟨name, -, unnamed⟩
  · obtain ⟨_, -, same⟩ := mapError_eq_error_iff.mp unwritten
    cases same
  · obtain ⟨_, unknown, same⟩ := mapError_eq_error_iff.mp unnamed
    cases same
    unfold Strategy.ofName at unknown
    split at unknown <;> cases unknown
    exact ⟨name, rfl⟩

theorem resolveStrategy_unhandled_iff {default : Text} :
    (∃ cause, resolveStrategy options.strategy? config default = .error cause ∧
        handlesStrategy cause = false) ↔ HasDeepStrategy options config := by
  constructor
  · rintro ⟨cause, failed, escapes⟩
    rcases except_bind_error failed with unwritten | ⟨_, -, unnamed⟩
    · obtain ⟨fault, tooDeep, rfl⟩ := mapError_eq_error_iff.mp unwritten
      cases fault with
      | tooLong => cases escapes
      | tooDeep =>
          obtain ⟨notGiven, deep⟩ := strategyName_eq_error_iff.mp tooDeep
          exact ⟨notGiven, deep⟩
    · obtain ⟨_, -, rfl⟩ := mapError_eq_error_iff.mp unnamed
      cases escapes
  · rintro ⟨notGiven, deep⟩
    have unwritten : strategyName options.strategy? config default = .error .tooDeep :=
      strategyName_eq_error_iff.mpr ⟨notGiven, deep⟩
    refine ⟨.unwritten .tooDeep, ?_, rfl⟩
    rw [resolveStrategy, unwritten]
    rfl

/-- The stages of the setting up, and the fault of the first that fails. -/
theorem setUp_error_iff :
    setUp loader options files = .error fault ↔
      (∃ cause, Config.load loader files (some options.config) = .error cause ∧
          fault = .config cause) ∨
      ∃ config, Config.load loader files (some options.config) = .ok config ∧
        ((∃ cause, resolveStrategy options.strategy? config defaultStrategyName = .error cause ∧
            fault = .strategy cause) ∨
          ∃ strategy, resolveStrategy options.strategy? config defaultStrategyName = .ok strategy ∧
            ∃ cause, resolveCap (options.cap?.map Datum.integer) config = .error cause ∧
              fault = .cap cause) := by
  unfold setUp
  cases loaded : Config.load loader files (some options.config) with
  | error cause => simp [Except.mapError, bind, Except.bind, eq_comm]
  | ok config =>
      cases resolved : resolveStrategy options.strategy? config defaultStrategyName with
      | error cause => simp [Except.mapError, bind, Except.bind, resolved, eq_comm]
      | ok strategy =>
          cases capped : resolveCap (options.cap?.map Datum.integer) config with
          | error cause =>
              simp [Except.mapError, bind, Except.bind, resolved, capped, eq_comm]
          | ok cap =>
              simp [Except.mapError, bind, Except.bind, resolved, capped, pure, Except.pure]

/-- A cap of the options always is one; what a configuration has is read as an integer. -/
theorem resolveCap_error_iff {cap? : Option Int} {cause : Datum.IntegerFault} :
    resolveCap (cap?.map Datum.integer) config = .error cause ↔
      cap? = none ∧ ∃ value, config.cap? = some value ∧ value.toInteger = .error cause := by
  unfold resolveCap
  cases cap? with
  | some cap => simp [Datum.toInteger, bind, Except.bind, pure, Except.pure]
  | none =>
      cases found : config.cap? with
      | none => simp [pure, Except.pure]
      | some value =>
          cases read : value.toInteger <;> simp [read, bind, Except.bind, pure, Except.pure]

theorem resolveCap_unhandled_iff :
    (∃ cause, resolveCap (options.cap?.map Datum.integer) config = .error cause ∧
        handlesCap cause = false) ↔ HasStrangeCap options config := by
  constructor
  · rintro ⟨cause, capped, escapes⟩
    obtain ⟨notGiven, value, found, unread⟩ := resolveCap_error_iff.mp capped
    have noInteger := (not_handlesCap_iff (cap?_ne_null found)).mp ⟨cause, unread, escapes⟩
    exact ⟨notGiven, value, found, noInteger⟩
  · rintro ⟨notGiven, value, found, noInteger⟩
    obtain ⟨cause, unread, escapes⟩ := (not_handlesCap_iff (cap?_ne_null found)).mpr noInteger
    exact ⟨cause, resolveCap_error_iff.mpr ⟨notGiven, value, found, unread⟩, escapes⟩

theorem setUp_escapes_iff :
    (∃ fault, setUp loader options files = .error fault ∧ fault.isHandled = false) ↔
      (options.config ≠ "" ∧ ∃ content broken, files.content options.config = .ok content ∧
          loader content = .error broken ∧ IsOfDocument broken) ∨
      ∃ config, Config.load loader files (some options.config) = .ok config ∧
        (HasDeepStrategy options config ∨
          (∃ strategy,
            resolveStrategy options.strategy? config defaultStrategyName = .ok strategy) ∧
            HasStrangeCap options config) := by
  constructor
  · rintro ⟨fault, failed, escapes⟩
    rcases setUp_error_iff.mp failed with ⟨cause, unloaded, rfl⟩ | ⟨config, loaded, later⟩
    · obtain ⟨broken, rfl, ofDocument⟩ := not_handlesConfig_iff.mp escapes
      obtain ⟨named, content, opened, isBroken⟩ := load_eq_error_document_iff.mp unloaded
      exact .inl ⟨named, content, broken, opened, isBroken, ofDocument⟩
    · refine .inr ⟨config, loaded, ?_⟩
      rcases later with ⟨cause, unresolved, rfl⟩ | ⟨strategy, resolved, cause, capped, rfl⟩
      · exact .inl (resolveStrategy_unhandled_iff.mp ⟨cause, unresolved, escapes⟩)
      · exact .inr ⟨⟨strategy, resolved⟩, resolveCap_unhandled_iff.mp ⟨cause, capped, escapes⟩⟩
  · rintro (⟨named, content, broken, opened, isBroken, ofDocument⟩ | ⟨config, loaded, strange⟩)
    · have unloaded := load_eq_error_document_iff.mpr ⟨named, content, opened, isBroken⟩
      exact ⟨.config (.document broken), setUp_error_iff.mpr (.inl ⟨_, unloaded, rfl⟩),
        not_handlesConfig_iff.mpr ⟨broken, rfl, ofDocument⟩⟩
    · rcases strange with deep | ⟨⟨strategy, resolved⟩, strangeCap⟩
      · obtain ⟨cause, unresolved, escapes⟩ := resolveStrategy_unhandled_iff.mpr deep
        exact ⟨.strategy cause,
          setUp_error_iff.mpr (.inr ⟨config, loaded, .inl ⟨cause, unresolved, rfl⟩⟩), escapes⟩
      · obtain ⟨cause, capped, escapes⟩ := resolveCap_unhandled_iff.mpr strangeCap
        exact ⟨.cap cause, setUp_error_iff.mpr
          (.inr ⟨config, loaded, .inr ⟨strategy, resolved, cause, capped, rfl⟩⟩), escapes⟩

end Faults

/-- How the setting up of the command ends when it does not find the settings, whatever loads the
configuration. Its fault is handled, and the command ends with status 1, prints nothing and lets
nothing escape, save in three cases: no value can be made of the configuration's document, the
strategy is left to a configuration that has one too deep to be written, or the settings are found
as far as the cap, none is given with the options, and that of the configuration is no number. In
those cases the fault escapes. A strategy that is not known is always handled, and only one with
more levels than a walk can visit is too deep. -/
theorem setup_escapes_only_from_strange_configurations (loader : Config.Loader)
    (options : InterpretOptions) (files : Files) :
    ((∃ fault, setUp loader options files = .error fault ∧ fault.isHandled = false) ↔
        (options.config ≠ "" ∧ ∃ content broken, files.content options.config = .ok content ∧
            loader content = .error broken ∧ IsOfDocument broken) ∨
        ∃ config, Config.load loader files (some options.config) = .ok config ∧
          (HasDeepStrategy options config ∨
            (∃ strategy,
              resolveStrategy options.strategy? config defaultStrategyName = .ok strategy) ∧
              HasStrangeCap options config)) ∧
      (∀ cause, setUp loader options files = .error (.strategy (.unknown cause)) →
        (∃ name, cause = .unknownStrategy name) ∧
          SetupFault.isHandled (.strategy (.unknown cause)) = true) ∧
      (∀ level, Verbosity.levelOfName? (some options.level) Verbosity.standard = some level →
        ∀ fault, setUp loader options files = .error fault →
          runInterpret loader options files =
            if fault.isHandled then .silent files 1 else .escape files fault.toEscape) ∧
      ∀ value : Datum, value.writtenWithin depthLimit = .error .tooDeep →
        depthLimit < value.depth := by
  refine ⟨setUp_escapes_iff, ?_, ?_, fun _ => Datum.depth_gt_of_writtenWithin⟩
  · intro cause failed
    rcases setUp_error_iff.mp failed with ⟨_, -, same⟩ | ⟨config, -, later⟩
    · cases same
    · rcases later with ⟨_, unresolved, same⟩ | ⟨_, -, _, -, same⟩
      · cases same
        exact ⟨exists_of_resolveStrategy_unknown unresolved, rfl⟩
      · cases same
  · intro level known fault failed
    simp only [runInterpret, known, failed]

/-- The configuration `c.yaml` of a command. -/
def configured (document : String) : Files :=
  { contents := [(["c.yaml"], .text document)], directories := [] }

/-- What is loaded of one document; of others nothing is. -/
def loading (document : String) (loaded : Except Document.Fault Datum) : Config.Loader :=
  fun content => if content = .text document then loaded else .error .malformed

def leftToConfig : InterpretOptions :=
  { expression := "1", config := "c.yaml", strategy? := none, cap? := none, steps? := none
    trace? := none, asJson := false, level := "WARNING" }

/-- How the run on a document ends that is loaded as a datum or not at all. -/
def escapedFrom (document : String) (loaded : Except Document.Fault Datum) : Option Escape :=
  (runInterpret (loading document loaded) leftToConfig (configured document)).escaped

/-- A list and an infinity for a cap, and a document that breaks off, all escape. -/
theorem settings_of_no_number_escape :
    escapedFrom "max_iterations: [1]\n"
        (.ok (.mapping [(.text "max_iterations", .list [.integer 1])])) =
      some (.cap (.wrongType "list")) ∧
    escapedFrom "parser: \x7bmax_iterations: .inf\x7d\n"
        (.ok (.mapping
          [(.text "parser", .mapping [(.text "max_iterations", .real (.infinite false))])])) =
      some (.cap .infinite) ∧
    escapedFrom "strategy: [td\n" (.error .malformed) =
      some (.config (.document .malformed)) := by
  refine ⟨?_, ?_, ?_⟩
  · decide +kernel
  · decide +kernel
  · decide +kernel

end Command

end Reckon
