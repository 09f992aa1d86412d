import Daybook.Proofs.Guarded.Commands

/-!
How the program ends.

Whatever the files hold, and whatever loads the documents of configurations, it is known how the program ends: with one
of the three exit codes, or in a breakdown (`ended_of`). A ledger whose bytes are no text is not refused like one that
cannot be read, and a configuration is not refused for its unknown keys if two of them cannot be compared or the least
one cannot be written. Nothing else escapes, as long as the loader gives a value or a refusal. All that is answered
about a source is answered in steps that do not break off.
-/

namespace Daybook.CommandLine

open Guarded (Fits command command_eq)

/-- Whether arguments name what can be a file, and whether every option has its value. -/
structure Arguments.IsWellFormed (a : Arguments) : Prop where
  file : a.command.file.isImpossible = false
  config : ∀ p, a.command.config = .value p → p.isImpossible = false
  configured : a.command.config ≠ .void
  dated : ∀ file, a.command ≠ .balance file .void

/-- Whether there is a file with a text. -/
def Holds (read : Reader) (p : Path) (text : List Char) : Prop :=
  ∃ bytes s, read p = .ok bytes ∧ String.fromUTF8? bytes = some s ∧ text = Text.unifyLineEnds s.toList

/-- Whether a setting gives a configuration. -/
inductive Configures (load : Loader) (read : Reader) : Setting Path → Config → Prop
  | default : Configures load read .absent .default
  | file {p : Path} {bytes : ByteArray} {v : Value} {config : Config} :
    read p = .ok bytes → load p.text bytes = .ok v → Config.ofValue v = .ok config →
    Configures load read (.value p) config

/-- Whether a setting is refused. -/
inductive Misconfigures (load : Loader) (read : Reader) : Setting Path → Prop
  | unreadable {p : Path} {e : FileError} : read p = .error e → Misconfigures load read (.value p)
  | refused {p : Path} {bytes : ByteArray} {reason : String} :
    read p = .ok bytes → load p.text bytes = .error (.refused reason) →
    Misconfigures load read (.value p)
  | faulty {p : Path} {bytes : ByteArray} {v : Value} {e : ConfigError} {fault : Fault} :
    read p = .ok bytes → load p.text bytes = .ok v → Config.ofValue v = .error e →
    e.fault? = some fault → Misconfigures load read (.value p)

/-- Whether a setting cannot even be refused. -/
inductive Breaks (load : Loader) (read : Reader) : Setting Path → Breakdown → Prop
  /-- The loader neither gives a value nor refuses the document. -/
  | broken {p : Path} {bytes : ByteArray} {b : Breakdown} :
    read p = .ok bytes → load p.text bytes = .error (.broken b) → Breaks load read (.value p) b
  | unreported {p : Path} {bytes : ByteArray} {entries : List (Value × Value)} {e : ConfigError} :
    read p = .ok bytes → load p.text bytes = .ok (.mapping entries) → Config.Unreported entries e →
    Breaks load read (.value p) (.ofConfigError e)

/-- The checks that a command runs. -/
def Command.checks (config : Config) : Command → List Check
  | .check .. => config.checks
  | .balance .. => []

/-- How the program ends. -/
inductive Ends (load : Loader) (read : Reader) (c : Command) : Except Breakdown ExitCode → Prop
  | misconfigured : Misconfigures load read c.config → Ends load read c (.ok .misuse)
  | broken {b : Breakdown} : Breaks load read c.config b → Ends load read c (.error b)
  | unreadable {config : Config} {e : FileError} :
    Configures load read c.config config → read c.file = .error e → Ends load read c (.ok .misuse)
  | undecodable {config : Config} {bytes : ByteArray} :
    Configures load read c.config config → read c.file = .ok bytes →
    String.fromUTF8? bytes = none → Ends load read c (.error .undecodable)
  | invalid {config : Config} {source : String} :
    Configures load read c.config config → Holds read c.file source.toList →
    IsWrong source (c.checks config) → Ends load read c (.ok .invalid)
  | success {config : Config} {source : String} :
    Configures load read c.config config → Holds read c.file source.toList →
    ¬IsWrong source (c.checks config) → Ends load read c (.ok .success)

/-- Whether the document of a setting, if it names one that can be read, is loaded or refused. -/
def IsLoaded (load : Loader) (read : Reader) (setting : Setting Path) : Prop :=
  ∀ p bytes b, setting = .value p → read p = .ok bytes → load p.text bytes ≠ .error (.broken b)

/-- Whether what goes wrong with the files of a command has no answer, whose fault the loader is not. -/
inductive Escapes (load : Loader) (read : Reader) (c : Command) : Prop
  | undecodable {config : Config} {bytes : ByteArray} :
    Configures load read c.config config → read c.file = .ok bytes →
    String.fromUTF8? bytes = none → Escapes load read c
  | unreported {p : Path} {bytes : ByteArray} {entries : List (Value × Value)} {e : ConfigError} :
    c.config = .value p → read p = .ok bytes → load p.text bytes = .ok (.mapping entries) →
    Config.Unreported entries e → Escapes load read c

/-! ## Reading files -/

section Reading

variable {read : Reader} {p : Path} (refuse : FileError → Answer)

/-- A file that cannot be read is refused in the words of whoever reads it. -/
theorem readBytes_of_error (hp : p.isImpossible = false) {e : FileError} (h : read p = .error e) :
    readBytes read p refuse = .error (.answer (refuse e)) := by
  rw [readBytes, hp, h]
  rfl

theorem readBytes_of_ok (hp : p.isImpossible = false) {bytes : ByteArray} (h : read p = .ok bytes) :
    readBytes read p refuse = .ok bytes := by
  rw [readBytes, hp, h]
  rfl

/-- A file that cannot be read is refused also where its text is wanted. -/
theorem readText_of_error (hp : p.isImpossible = false) {e : FileError} (h : read p = .error e) :
    readText read p refuse = .error (.answer (refuse e)) := by
  rw [readText, readBytes_of_error refuse hp h]
  rfl

/-- The text of a file is what its bytes say, with line feeds at the ends of lines. -/
theorem readText_of_holds (hp : p.isImpossible = false) {text : List Char}
    (h : Holds read p text) : readText read p refuse = .ok text := by
  obtain ⟨bytes, s, hread, hs, rfl⟩ := h
  rw [readText, readBytes_of_ok refuse hp hread]
  simp [bind, Except.bind, hs]

/-- Bytes that are no text are not refused. -/
theorem readText_of_none (hp : p.isImpossible = false) {bytes : ByteArray}
    (hread : read p = .ok bytes) (h : String.fromUTF8? bytes = none) :
    readText read p refuse = .error (.breakdown .undecodable) := by
  rw [readText, readBytes_of_ok refuse hp hread]
  simp [bind, Except.bind, h]

end Reading

/-! ## Configurations -/

section Configuring

variable {load : Loader} {read : Reader} {c : Command}
  (hp : ∀ p, c.config = .value p → p.isImpossible = false)
include hp

/-- A setting that gives a configuration is read as this configuration. -/
theorem loadConfig_of_configures {config : Config} (h : Configures load read c.config config) :
    c.loadConfig load read = .ok config := by
  unfold Command.loadConfig
  generalize c.config = setting at h hp
  cases h with
  | default => rfl
  | file hread hv hconfig =>
    dsimp only
    rw [loadConfig, readBytes_of_ok _ (hp _ rfl) hread]
    simp [bind, Except.bind, hv, hconfig]

/-- A setting that is refused ends in a message, whatever was wrong with it. -/
theorem loadConfig_of_misconfigures (h : Misconfigures load read c.config) :
    ∃ reason, c.loadConfig load read = .error (.answer (.refusal reason)) := by
  unfold Command.loadConfig
  generalize c.config = setting at h hp
  cases h with
  | @unreadable p e hread =>
    -- A file that is not there is refused in other words than one that cannot be read.
    have hreason : ∃ reason, refuseConfig p e = .refusal reason := by
      unfold refuseConfig
      split
      · exact ⟨_, rfl⟩
      · exact ⟨_, rfl⟩
    obtain ⟨reason, hreason⟩ := hreason
    refine ⟨reason, ?_⟩
    dsimp only
    rw [loadConfig, readBytes_of_error _ (hp _ rfl) hread, hreason]
    rfl
  | refused hread hrefused =>
    dsimp only
    rw [loadConfig, readBytes_of_ok _ (hp _ rfl) hread]
    simp [bind, Except.bind, hrefused]
  | faulty hread hv herror hfault =>
    dsimp only
    rw [loadConfig, readBytes_of_ok _ (hp _ rfl) hread]
    simp [bind, Except.bind, hv, herror, hfault]

/-- A setting that breaks ends in its breakdown. -/
theorem loadConfig_of_breaks {b : Breakdown} (h : Breaks load read c.config b) :
    c.loadConfig load read = .error (.breakdown b) := by
  unfold Command.loadConfig
  generalize c.config = setting at h hp
  cases h with
  | broken hread hbroken =>
    dsimp only
    rw [loadConfig, readBytes_of_ok _ (hp _ rfl) hread]
    simp [bind, Except.bind, hbroken]
  | @unreported _ _ entries _ hread hv hunreported =>
    obtain ⟨herror, hfault⟩ := Config.ofValue_eq_error_iff.2 ⟨entries, rfl, hunreported⟩
    dsimp only
    rw [loadConfig, readBytes_of_ok _ (hp _ rfl) hread]
    simp [bind, Except.bind, hv, herror, hfault]

end Configuring

/-- The bytes of a file give a configuration, or are refused, or cannot even be refused, whatever the loader makes of
them. -/
theorem configures_or_of_bytes (load : Loader) {read : Reader} {p : Path} {bytes : ByteArray}
    (hread : read p = .ok bytes) :
    (∃ config, Configures load read (.value p) config) ∨ Misconfigures load read (.value p)
      ∨ ∃ b, Breaks load read (.value p) b := by
  cases hv : load p.text bytes with
  | error e =>
    cases e with
    | refused reason => exact .inr (.inl (.refused hread hv))
    | broken b => exact .inr (.inr ⟨b, .broken hread hv⟩)
  | ok v =>
    cases hconfig : Config.ofValue v with
    | ok config => exact .inl ⟨config, .file hread hv hconfig⟩
    | error e =>
      cases hfault : e.fault? with
      | some fault => exact .inr (.inl (.faulty hread hv hconfig hfault))
      | none =>
        obtain ⟨entries, rfl, hunreported⟩ := Config.ofValue_eq_error_iff.1 ⟨hconfig, hfault⟩
        exact .inr (.inr ⟨_, .unreported hread hv hunreported⟩)

/-- **So does every setting**, whatever the files hold. -/
theorem configures_or (load : Loader) (read : Reader) {setting : Setting Path} (hgiven : setting ≠ .void) :
    (∃ config, Configures load read setting config) ∨ Misconfigures load read setting
      ∨ ∃ b, Breaks load read setting b := by
  cases setting with
  | absent => exact .inl ⟨.default, .default⟩
  | void => exact absurd rfl hgiven
  | value p =>
    cases hread : read p with
    | error e => exact .inr (.inl (.unreadable hread))
    | ok bytes => exact configures_or_of_bytes load hread

/-! ## Endings -/

/-- Balances are printed unless something was wrong with the source. Given a last date or none, nothing breaks down. -/
theorem exit_balanceAnswer (level : LogLevel) {asOf : Setting Date} (hasOf : asOf ≠ .void)
    (name source : String) :
    (balanceAnswer level asOf name source).map (·.exit)
      = .ok (if IsWrong source [] then .invalid else .success) := by
  have hwrong : IsWrong source [] ↔ (Compilation.of source).diagnostics ≠ [] := by
    simp [IsWrong]
  have hcutOff : ∃ date, cutOff (Compilation.of source).ledger asOf = .ok date := by
    cases asOf with
    | absent => exact ⟨none, rfl⟩
    | value date => exact ⟨some date, rfl⟩
    | void => exact absurd rfl hasOf
  obtain ⟨date, hdate⟩ := hcutOff
  unfold balanceAnswer
  dsimp only
  by_cases hsource : (Compilation.of source).diagnostics = []
  · have hok : (Compilation.of source).ok = true := List.isEmpty_iff.2 hsource
    rw [if_pos hok, hdate, if_neg fun h => hwrong.1 h hsource]
    rfl
  · have hok : ¬(Compilation.of source).ok = true := fun hok => hsource (List.isEmpty_iff.1 hok)
    rw [if_neg hok, if_pos (hwrong.2 hsource)]
    rfl

/-- **The exit code of a command** says whether anything is wrong with the source. -/
theorem exit_answer (c : Command) (hdated : ∀ file, c ≠ .balance file .void) (level : LogLevel)
    (config : Config) (name source : String) :
    (c.answer level config name source).map (·.exit)
      = .ok (if IsWrong source (c.checks config) then .invalid else .success) := by
  cases c with
  | check file setting all => exact congrArg Except.ok (exit_checkAnswer level config all name source)
  | balance file asOf =>
    apply exit_balanceAnswer
    rintro rfl
    exact hdated file rfl

/-- What is answered if the work cannot go on. -/
def Ending.outcome : Ending → Except Breakdown Answer
  | .answer a => .ok a
  | .breakdown b => .error b

section Responding

variable {load : Loader} {read : Reader} {a : Arguments}

/-- What keeps the work from going on is the response. -/
theorem respond_of_proceed {e : Ending} (h : a.proceed load read = .error e) :
    a.respond load read = e.outcome := by
  rw [Arguments.respond, h]
  cases e <;> rfl

/-- A configuration that is refused or breaks decides the response. -/
theorem respond_of_loadConfig {e : Ending} (h : a.command.loadConfig load read = .error e) :
    a.respond load read = e.outcome := by
  apply respond_of_proceed
  rw [Arguments.proceed, h]
  rfl

/-- So does a ledger that is refused or is no text, once there is a configuration. -/
theorem respond_of_readText {config : Config} {e : Ending}
    (hconfig : a.command.loadConfig load read = .ok config)
    (h : readText read a.command.file (refuseSource a.command.file) = .error e) :
    a.respond load read = e.outcome := by
  apply respond_of_proceed
  rw [Arguments.proceed, hconfig]
  show readText read a.command.file (refuseSource a.command.file) >>= _ = _
  rw [h]
  rfl

/-- **The program ends as it should.** -/
theorem exit_of_ends (hargs : a.IsWellFormed) {ending : Except Breakdown ExitCode}
    (h : Ends load read a.command ending) : (a.respond load read).map (·.exit) = ending := by
  cases h with
  | misconfigured h =>
    obtain ⟨reason, hload⟩ := loadConfig_of_misconfigures hargs.config h
    rw [respond_of_loadConfig hload]
    rfl
  | broken h =>
    rw [respond_of_loadConfig (loadConfig_of_breaks hargs.config h)]
    rfl
  | unreadable hconfig hread =>
    rw [respond_of_readText (loadConfig_of_configures hargs.config hconfig)
      (readText_of_error _ hargs.file hread)]
    rfl
  | undecodable hconfig hread hbytes =>
    rw [respond_of_readText (loadConfig_of_configures hargs.config hconfig)
      (readText_of_none _ hargs.file hread hbytes)]
    rfl
  | invalid hconfig hsource hwrong =>
    rw [respond_of_source (loadConfig_of_configures hargs.config hconfig)
      (readText_of_holds _ hargs.file hsource), exit_answer _ hargs.dated, if_pos hwrong]
  | success hconfig hsource hright =>
    rw [respond_of_source (loadConfig_of_configures hargs.config hconfig)
      (readText_of_holds _ hargs.file hsource), exit_answer _ hargs.dated, if_neg hright]

/-- Whatever the files hold, one of the endings is the right one. -/
theorem exists_ends (load : Loader) (read : Reader) (hargs : a.IsWellFormed) :
    ∃ ending, Ends load read a.command ending := by
  rcases configures_or load read hargs.configured with ⟨config, hconfig⟩ | h | ⟨b, h⟩
  · cases hread : read a.command.file with
    | error e => exact ⟨_, .unreadable hconfig hread⟩
    | ok bytes =>
      cases hbytes : String.fromUTF8? bytes with
      | none => exact ⟨_, .undecodable hconfig hread hbytes⟩
      | some s =>
        have hsource : Holds read a.command.file
            (String.ofList (Text.unifyLineEnds s.toList)).toList := by
          rw [String.toList_ofList]
          exact ⟨bytes, s, hread, hbytes, rfl⟩
        by_cases hwrong : IsWrong (String.ofList (Text.unifyLineEnds s.toList)) (a.command.checks config)
        · exact ⟨_, .invalid hconfig hsource hwrong⟩
        · exact ⟨_, .success hconfig hsource hwrong⟩
  · exact ⟨_, .misconfigured h⟩
  · exact ⟨_, .broken h⟩

/-- The exit code, or the breakdown, is the right one and no other. -/
theorem exit_eq_iff (hargs : a.IsWellFormed) (ending : Except Breakdown ExitCode) :
    (a.respond load read).map (·.exit) = ending ↔ Ends load read a.command ending := by
  constructor
  · -- There is a right ending, and the program ends so.
    intro h
    obtain ⟨right, hright⟩ := exists_ends load read hargs
    rw [exit_of_ends hargs hright] at h
    rw [← h]
    exact hright
  · exact exit_of_ends hargs

/-- What escapes is a breakdown. -/
theorem Escapes.exists_ends {c : Command} (h : Escapes load read c) : ∃ b, Ends load read c (.error b) := by
  cases h with
  | undecodable hconfig hread hbytes => exact ⟨_, .undecodable hconfig hread hbytes⟩
  | @unreported p bytes entries e hp hread hv hunreported =>
    have hbreaks : Breaks load read c.config (.ofConfigError e) := by
      rw [hp]
      exact .unreported hread hv hunreported
    exact ⟨_, .broken hbreaks⟩

/-- And every breakdown is one that escapes, if the loader does its part. -/
theorem escapes_of_ends {c : Command} {b : Breakdown} (hload : IsLoaded load read c.config)
    (h : Ends load read c (.error b)) : Escapes load read c := by
  cases h with
  | undecodable hconfig hread hbytes => exact .undecodable hconfig hread hbytes
  | broken hbreaks =>
    generalize hsetting : c.config = setting at hbreaks
    cases hbreaks with
    | broken hread hbroken => exact absurd hbroken (hload _ _ _ hsetting hread)
    | unreported hread hv hunreported => exact .unreported hsetting hread hv hunreported

/-- **There is an exit code unless something escapes.** -/
theorem exists_exit_iff (hargs : a.IsWellFormed) (hload : IsLoaded load read a.command.config) :
    (∃ code, (a.respond load read).map (·.exit) = .ok code) ↔ ¬Escapes load read a.command := by
  constructor
  · rintro ⟨code, hcode⟩ hescapes
    obtain ⟨b, hb⟩ := hescapes.exists_ends
    rw [exit_of_ends hargs hb] at hcode
    cases hcode
  · intro hanswered
    obtain ⟨ending, hending⟩ := exists_ends load read hargs
    cases ending with
    | ok code => exact ⟨code, exit_of_ends hargs hending⟩
    | error b => exact absurd (escapes_of_ends hload hending) hanswered

/-- A configuration in use was accepted, or is the default one. -/
theorem isAccepted_of_configures {setting : Setting Path} {config : Config}
    (h : Configures load read setting config) : config.IsAccepted := by
  cases h with
  | default => exact Config.isAccepted_default
  | file _ _ hconfig => exact ⟨_, hconfig⟩

/-- What is answered about a source is answered in steps that do not break off. -/
theorem respond_eq_command (hargs : a.IsWellFormed) {config : Config} {source : String}
    (hconfig : Configures load read a.command.config config)
    (hsource : Holds read a.command.file source.toList) (h : Fits source) :
    ∃ answer, a.respond load read = .ok answer
      ∧ command (a.logLevel.getD config.logLevel) a.command.file.text source config a.command
        = .ok answer := by
  obtain ⟨answer, hcommand, hanswer⟩ := command_eq (a.logLevel.getD config.logLevel)
    a.command.file.text h (isAccepted_of_configures hconfig) a.command hargs.dated
  refine ⟨answer, ?_, hcommand⟩
  rw [respond_of_source (loadConfig_of_configures hargs.config hconfig)
    (readText_of_holds _ hargs.file hsource)]
  exact hanswer

/-- How the program ends for some arguments. -/
structure Ended (load : Loader) (read : Reader) (a : Arguments) : Prop where
  /-- There is one ending, which depends on what the files hold. -/
  exit : ∀ ending, (a.respond load read).map (·.exit) = ending ↔ Ends load read a.command ending
  /-- If the loader gives a value or a refusal, it is an exit code with two exceptions. -/
  answered : IsLoaded load read a.command.config →
    ((∃ code, (a.respond load read).map (·.exit) = .ok code) ↔ ¬Escapes load read a.command)
  /-- Once there is a source to work on, no step breaks off. -/
  unbroken : ∀ config source, Configures load read a.command.config config →
    Holds read a.command.file source.toList → Fits source →
    ∃ answer, a.respond load read = .ok answer
      ∧ command (a.logLevel.getD config.logLevel) a.command.file.text source config a.command
        = .ok answer

end Responding

/-- Arguments to check a ledger by some configuration. -/
def checkBook (config : Setting Path) : Arguments := ⟨none, .check ⟨.here, ["book"]⟩ config false⟩

/-- The path of a configuration. -/
def rules : Path := ⟨.here, ["rules"]⟩

/-- Arguments to check a ledger are well formed if they name a possible configuration or none. -/
theorem isWellFormed_checkBook {config : Setting Path} (hpossible : ∀ p, config = .value p → p.isImpossible = false)
    (hconfig : config ≠ .void) : (checkBook config).IsWellFormed := by
  constructor
  case file =>
    show Path.isImpossible ⟨.here, ["book"]⟩ = false
    decide +kernel
  case config => exact hpossible
  case configured => exact hconfig
  case dated =>
    intro file h
    cases h

-- Bytes are compared as in the core library, whatever else is in scope.
attribute [local instance (high)] ByteArray.instDecidableEq

/-- A loader for three documents: an empty one, one with keys of two sorts, and one with a bracket that is not
closed. -/
def sampleLoader : Loader := fun name bytes =>
  if bytes = "".toUTF8 then .ok .null
  else if bytes = "1: x\na: y\n".toUTF8 then .ok (.mapping [(.integer 1, .text "x"), (.text "a", .text "y")])
  else .error (.refused ("while parsing a flow sequence\n  in \"" ++ name ++ "\", line 1, column 9\n"
    ++ "expected ',' or ']', but got '<stream end>'\n  in \"" ++ name ++ "\", line 2, column 1"))

/-- The sample loader gives a value or a refusal, whatever it is given. -/
theorem isLoaded_sampleLoader (read : Reader) (setting : Setting Path) :
    IsLoaded sampleLoader read setting := by
  intro p bytes b _ _ hbroken
  unfold sampleLoader at hbroken
  split at hbroken
  · cases hbroken
  split at hbroken
  · cases hbroken
  · cases hbroken

/-- A ledger that does not balance, with some rules. -/
def sampleFiles (config : String) : Reader := fun p =>
  .ok (if p = rules then config.toUTF8 else oneLegged.toUTF8)

end Daybook.CommandLine
