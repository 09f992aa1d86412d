import Mathlib.Data.Set.List
import Daybook.Proofs.Config.Reading
import Daybook.Proofs.Validation.Selection

/-!
What a configuration says, and how it is written.

A document describes a configuration if it is empty, or a mapping with no other keys than the three of a
configuration, each of which either means what the configuration has or is missing (`Config.Describes`). It is read
just then, as the configuration that it describes (`Config.ofValue_eq_ok_iff`). Written as a document again, a
configuration that was read describes itself (`Config.ofValue_toValue`).

A document that describes none is refused. The refusal has a report, unless the unknown keys of a mapping cannot be
compared, or the least one cannot be written, or any of them may be the least one and one of them cannot be written
(`Config.not_reported_mixedKeys`).
-/

namespace Daybook

/-! ## Selecting by values -/

namespace Check

variable {κ ν : Type} {find? : κ → Option Check} {names : List κ} {checks : List Check}

/-- Where checks are selected, each name is found. -/
theorem isSome_of_select (h : select find? names = .ok checks) :
    ∀ name ∈ names, (find? name).isSome := by
  unfold select at h
  split at h
  · cases h
  · next hnone =>
    intro name hname
    rw [Option.isSome_iff_ne_none]
    intro hunknown
    exact List.find?_eq_none.1 hnone name hname (Option.isNone_iff_eq_none.2 hunknown)

/-- Values are selected by what they are made of. -/
theorem select_map (find? : κ → Option Check) (f : ν → κ) (names : List ν) :
    select find? (names.map f) = (select (find? ∘ f) names).mapError f := by
  have hfind : (names.map f).find? (fun name => (find? name).isNone)
      = (names.find? fun name => ((find? ∘ f) name).isNone).map f := List.find?_map
  rw [select, select, hfind, List.filterMap_map]
  cases names.find? fun name => ((find? ∘ f) name).isNone <;> rfl

/-- Names are resolved if all of them are known, to the checks that they name. -/
theorem resolve_eq_ok_iff {names : List String} :
    resolve (some names) = .ok checks ↔ (∀ n ∈ names, IsKnown n) ∧ checks = named names := by
  constructor
  · intro h
    have hknown : ∀ n ∈ names, IsKnown n := by
      rcases exists_first_unknown names with ⟨before, name, after, rfl, hbefore, hname⟩ | hknown
      · rw [resolve_of_unknown hbefore hname] at h
        cases h
      · exact hknown
    rw [resolve_of_known hknown] at h
    exact ⟨hknown, (Except.ok.inj h).symm⟩
  · rintro ⟨hknown, rfl⟩
    exact resolve_of_known hknown

/-- Checks in their own order are those that their names name. -/
theorem named_of_sublist (h : checks.Sublist all) : named (checks.map key) = checks := by
  have hresolve := resolve_of_sublist h
  exact (resolve_eq_ok_iff.1 hresolve).2.symm

end Check

/-- A level is found by its own name only. -/
theorem LogLevel.ofName?_eq_some_iff {name : String} {level : LogLevel} :
    ofName? name = some level ↔ name = level.name := by
  constructor
  · intro h
    have hname := List.find?_some h
    exact (of_decide_eq_true hname).symm
  · rintro rfl
    cases level <;> decide

/-- Nothing but what is there can be left out. -/
theorem Value.distinct_eq_nil_iff {items : List Value} : distinct items = [] ↔ items = [] := by
  -- What was kept stays, and the first item is always kept.
  have hkept (kept : List Value) (h : kept ≠ []) (items : List Value) : items.foldl
      (fun kept item => if kept.any (sameKey item) then kept else kept ++ [item]) kept ≠ [] := by
    induction items generalizing kept with
    | nil => exact h
    | cons item items ih =>
      rw [List.foldl_cons]
      split
      · exact ih kept h
      · exact ih _ (List.append_ne_nil_of_right_ne_nil _ (List.cons_ne_nil _ _))
  cases items with
  | nil => exact iff_of_true rfl rfl
  | cons item items => exact iff_of_false (hkept [item] (List.cons_ne_nil _ _) items) (List.cons_ne_nil _ _)

namespace Config

variable {α : Type} {entries : List (Value × Value)} {key : String} {config : Config}

/-! ## Entries -/

/-- Whether the value counts for the key: it is that of the last entry with this key. -/
def Says (entries : List (Value × Value)) (key : String) (v : Value) : Prop :=
  ∃ before after, entries = before ++ (.text key, v) :: after
    ∧ ∀ entry ∈ after, entry.1 ≠ .text key

theorem text?_eq_some_iff {v : Value} : v.text? = some key ↔ v = .text key := by
  cases v <;> simp [Value.text?]

theorem lookup?_eq (entries : List (Value × Value)) (key : String) :
    lookup? entries key
      = (entries.reverse.find? fun entry => entry.1.text? = some key).map (·.2) := rfl

/-- What is looked up is what counts. -/
theorem lookup?_eq_some_iff {v : Value} : lookup? entries key = some v ↔ Says entries key v := by
  rw [lookup?_eq, Option.map_eq_some_iff]
  constructor
  · rintro ⟨⟨k, v⟩, hfind, rfl⟩
    obtain ⟨hkey, after, before, hentries, hafter⟩ := List.find?_eq_some_iff_append.1 hfind
    obtain rfl := text?_eq_some_iff.1 (of_decide_eq_true hkey)
    refine ⟨before.reverse, after.reverse, ?_, ?_⟩
    · rw [← List.reverse_reverse entries, hentries]
      simp
    · intro entry hentry
      have hother := hafter entry (List.mem_reverse.1 hentry)
      simpa [text?_eq_some_iff] using hother
  · rintro ⟨before, after, rfl, hafter⟩
    refine ⟨(.text key, v), List.find?_eq_some_iff_append.2 ⟨decide_eq_true rfl, ?_⟩, rfl⟩
    refine ⟨after.reverse, before.reverse, by simp, ?_⟩
    intro entry hentry
    have hother := hafter entry (List.mem_reverse.1 hentry)
    simpa [text?_eq_some_iff] using hother

/-- Nothing is found for a key that no entry has. -/
theorem lookup?_eq_none_iff :
    lookup? entries key = none ↔ ∀ entry ∈ entries, entry.1 ≠ .text key := by
  simp [lookup?_eq, text?_eq_some_iff]

/-- **All keys are known** if a mapping has no others than those of a configuration. -/
theorem unknownKeys_eq_nil_iff :
    unknownKeys entries = [] ↔ ∀ entry ∈ entries, ∃ key ∈ knownKeys, entry.1 = .text key := by
  have hknown (v : Value) : isKnown v = true ↔ ∃ key ∈ knownKeys, v = .text key := by
    cases v <;> simp [isKnown]
  rw [unknownKeys, Value.distinct_eq_nil_iff, List.filter_eq_nil_iff, List.forall_mem_map]
  simp only [Bool.not_eq_true', Bool.not_eq_false, hknown]

/-! ## Fields -/

/-- What goes well is the same whatever errors are called. -/
theorem mapError_eq_ok_iff {ε ε' : Type} {f : ε → ε'} {x : Except ε α} {a : α} :
    x.mapError f = .ok a ↔ x = .ok a := by
  cases x <;> simp [Except.mapError]

/-- Whether a field is what is said of it, or what it is by default if nothing is. -/
def IsField (entries : List (Value × Value)) (key : String) (means : Value → α → Prop)
    (default a : α) : Prop :=
  (∃ v, Says entries key v ∧ means v a) ∨ (∀ entry ∈ entries, entry.1 ≠ .text key) ∧ a = default

/-- Whether a value is a list of names of checks, and these are the checks in their own order. -/
def NamesChecks (v : Value) (checks : List Check) : Prop :=
  ∃ names : List String, v = .list (names.map .text) ∧ (∀ n ∈ names, Check.IsKnown n)
    ∧ checks = Check.named names

/-- Whether a value is the name of a level, in letters of any case. -/
def NamesLevel (v : Value) (level : LogLevel) : Prop :=
  ∃ name, v = .text name ∧ Text.capitals name = level.name

/-- A field is read as what it is, if each value is read as what it means. -/
theorem read_eq_ok_iff {read : Option Value → Except ConfigError α} {means : Value → α → Prop}
    {default a : α} (hnone : read none = .ok default)
    (hsome : ∀ v a, read (some v) = .ok a ↔ means v a) :
    read (lookup? entries key) = .ok a ↔ IsField entries key means default a := by
  cases hlookup : lookup? entries key with
  | none =>
    rw [hnone, Except.ok.injEq]
    constructor
    · rintro rfl
      exact .inr ⟨lookup?_eq_none_iff.1 hlookup, rfl⟩
    · rintro (⟨v, hsays, -⟩ | ⟨-, rfl⟩)
      · rw [lookup?_eq_some_iff.2 hsays] at hlookup
        cases hlookup
      · rfl
  | some v =>
    rw [hsome]
    constructor
    · intro hmeans
      exact .inl ⟨v, lookup?_eq_some_iff.1 hlookup, hmeans⟩
    · rintro (⟨w, hsays, hmeans⟩ | ⟨hnever, -⟩)
      · rw [lookup?_eq_some_iff.2 hsays] at hlookup
        obtain rfl := Option.some.inj hlookup
        exact hmeans
      · rw [lookup?_eq_none_iff.2 hnever] at hlookup
        cases hlookup

/-- A field can be made out just if what is said of it means something. -/
theorem exists_isField_iff {means : Value → α → Prop} {default : α} :
    (∃ a, IsField entries key means default a) ↔ ∀ v, Says entries key v → ∃ a, means v a := by
  constructor
  · rintro ⟨a, ⟨v, hsays, hmeans⟩ | ⟨hnever, -⟩⟩ w hw
    · -- No two values count for one key, because looking it up gives one.
      have hsame : some w = some v :=
        (lookup?_eq_some_iff.2 hw).symm.trans (lookup?_eq_some_iff.2 hsays)
      obtain rfl := Option.some.inj hsame
      exact ⟨a, hmeans⟩
    · have hnone : some w = none :=
        (lookup?_eq_some_iff.2 hw).symm.trans (lookup?_eq_none_iff.2 hnever)
      cases hnone
  · intro h
    cases hlookup : lookup? entries key with
    | none => exact ⟨default, .inr ⟨lookup?_eq_none_iff.1 hlookup, rfl⟩⟩
    | some v =>
      have hsays := lookup?_eq_some_iff.1 hlookup
      obtain ⟨a, hmeans⟩ := h v hsays
      exact ⟨a, .inl ⟨v, hsays, hmeans⟩⟩

/-- A list of texts selects the checks that they name. -/
theorem checksOf_map_text (names : List String) :
    checksOf (some (.list (names.map .text)))
      = (Check.resolve (some names)).mapError .unknownCheck := by
  have htexts : ((names.map Value.text).all fun item => item.codes?.isSome) = true := by
    rw [List.all_map, List.all_eq_true]
    exact fun _ _ => rfl
  have hselect : Check.select Check.ofValue? (names.map .text)
      = (Check.select Check.ofKey? names).mapError .text :=
    Check.select_map Check.ofValue? .text names
  rw [checksOf, if_pos htexts, hselect, Check.resolve]
  cases Check.select Check.ofKey? names <;> rfl

/-- Only texts select checks. -/
theorem exists_names_of_checksOf {v : Value} {checks : List Check}
    (h : checksOf (some v) = .ok checks) : ∃ names : List String, v = .list (names.map .text) := by
  cases v with
  | list items =>
    rw [checksOf] at h
    split at h
    · -- A text that is broken passes for a text here, but no check has such a name.
      have hsome := Check.isSome_of_select (mapError_eq_ok_iff.1 h)
      have hrange : items ∈ Set.range (List.map Value.text) := by
        rw [Set.range_list_map]
        intro item hitem
        obtain ⟨check, hcheck⟩ := Option.isSome_iff_exists.1 (hsome item hitem)
        obtain ⟨name, hname, -⟩ := Option.bind_eq_some_iff.1 hcheck
        exact ⟨name, (text?_eq_some_iff.1 hname).symm⟩
      obtain ⟨names, rfl⟩ := hrange
      exact ⟨names, rfl⟩
    · cases h
  | _ => cases h

/-- A value is read as checks if it names them. -/
theorem checksOf_eq_ok_iff (v : Value) (checks : List Check) :
    checksOf (some v) = .ok checks ↔ NamesChecks v checks := by
  constructor
  · intro h
    obtain ⟨names, rfl⟩ := exists_names_of_checksOf h
    rw [checksOf_map_text, mapError_eq_ok_iff, Check.resolve_eq_ok_iff] at h
    exact ⟨names, rfl, h⟩
  · rintro ⟨names, rfl, h⟩
    rw [checksOf_map_text, mapError_eq_ok_iff, Check.resolve_eq_ok_iff]
    exact h

theorem failFastOf_eq_ok_iff (v : Value) (b : Bool) : failFastOf (some v) = .ok b ↔ v = .bool b := by
  cases v <;> simp [failFastOf]

/-- A value is read as a level if it names it, in letters of any case. -/
theorem logLevelOf_eq_ok_iff (v : Value) (level : LogLevel) :
    logLevelOf (some v) = .ok level ↔ NamesLevel v level := by
  cases v with
  | text name =>
    have hname : NamesLevel (.text name) level ↔ LogLevel.ofName? (Text.capitals name) = some level := by
      rw [LogLevel.ofName?_eq_some_iff, NamesLevel]
      simp
    rw [hname, logLevelOf]
    cases LogLevel.ofName? (Text.capitals name) <;> simp
  | _ => simp [logLevelOf, NamesLevel]

/-! ## Documents -/

/-- Whether a mapping describes a configuration, field by field. -/
structure Describes (entries : List (Value × Value)) (config : Config) : Prop where
  known : ∀ entry ∈ entries, ∃ key ∈ knownKeys, entry.1 = .text key
  checks : IsField entries "checks" NamesChecks Check.all config.checks
  failFast : IsField entries "fail_fast" (fun v b => v = .bool b) true config.failFast
  logLevel : IsField entries "log_level" NamesLevel .warning config.logLevel

/-- Whether a mapping has keys of a configuration only, with values of their kinds. -/
structure IsWellFormed (entries : List (Value × Value)) : Prop where
  known : ∀ entry ∈ entries, ∃ key ∈ knownKeys, entry.1 = .text key
  checks : ∀ v, Says entries "checks" v →
    ∃ names : List String, v = .list (names.map .text) ∧ ∀ n ∈ names, Check.IsKnown n
  failFast : ∀ v, Says entries "fail_fast" v → ∃ b, v = .bool b
  logLevel : ∀ v, Says entries "log_level" v →
    ∃ name, v = .text name ∧ ∃ level : LogLevel, Text.capitals name = level.name

/-- A mapping is read as the configuration that it describes, field by field. -/
theorem ofEntries_eq_ok_iff_describes : ofEntries entries = .ok config ↔ Describes entries config := by
  have hchecks : checksOf (lookup? entries "checks") = .ok config.checks
      ↔ IsField entries "checks" NamesChecks Check.all config.checks :=
    read_eq_ok_iff rfl checksOf_eq_ok_iff
  have hfailFast : failFastOf (lookup? entries "fail_fast") = .ok config.failFast
      ↔ IsField entries "fail_fast" (fun v b => v = .bool b) true config.failFast :=
    read_eq_ok_iff rfl failFastOf_eq_ok_iff
  have hlevel : logLevelOf (lookup? entries "log_level") = .ok config.logLevel
      ↔ IsField entries "log_level" NamesLevel .warning config.logLevel :=
    read_eq_ok_iff rfl logLevelOf_eq_ok_iff
  rw [ofEntries_eq_ok_iff, unknownKeys_eq_nil_iff, hchecks, hfailFast, hlevel]
  constructor
  · rintro ⟨hknown, hchecks, hfailFast, hlevel⟩
    exact ⟨hknown, hchecks, hfailFast, hlevel⟩
  · intro h
    exact ⟨h.known, h.checks, h.failFast, h.logLevel⟩

/-- **A document is read as the configuration that it describes**, and is refused if it describes none. -/
theorem ofValue_eq_ok_iff {v : Value} : ofValue v = .ok config
    ↔ v = .null ∧ config = default ∨ ∃ entries, v = .mapping entries ∧ Describes entries config := by
  cases v with
  | null => simp [ofValue, eq_comm]
  | mapping entries => simp [ofValue, ofEntries_eq_ok_iff_describes]
  | _ => simp [ofValue]

/-- **A mapping describes some configuration just if it is well formed.** -/
theorem exists_describes_iff : (∃ config, Describes entries config) ↔ IsWellFormed entries := by
  constructor
  · rintro ⟨config, h⟩
    constructor
    case known => exact h.known
    case checks =>
      intro v hv
      obtain ⟨-, names, rfl, hnames, -⟩ := exists_isField_iff.1 ⟨_, h.checks⟩ v hv
      exact ⟨names, rfl, hnames⟩
    case failFast => exact exists_isField_iff.1 ⟨_, h.failFast⟩
    case logLevel =>
      intro v hv
      obtain ⟨level, name, rfl, hlevel⟩ := exists_isField_iff.1 ⟨_, h.logLevel⟩ v hv
      exact ⟨name, rfl, level, hlevel⟩
  · intro h
    have hchecks (v : Value) (hv : Says entries "checks" v) : ∃ checks, NamesChecks v checks := by
      obtain ⟨names, rfl, hnames⟩ := h.checks v hv
      exact ⟨_, names, rfl, hnames, rfl⟩
    have hlevel (v : Value) (hv : Says entries "log_level" v) : ∃ level, NamesLevel v level := by
      obtain ⟨name, rfl, level, hname⟩ := h.logLevel v hv
      exact ⟨level, name, rfl, hname⟩
    obtain ⟨checks, hchecks⟩ := exists_isField_iff.2 hchecks
    obtain ⟨failFast, hfailFast⟩ := exists_isField_iff.2 h.failFast
    obtain ⟨level, hlevel⟩ := exists_isField_iff.2 hlevel
    exact ⟨⟨checks, failFast, level⟩, h.known, hchecks, hfailFast, hlevel⟩

/-! ## Written again -/

/-- **A configuration is described by what it is written as**, if its checks stand in their own order. -/
theorem ofValue_toValue (h : config.checks.Sublist Check.all) : ofValue config.toValue = .ok config := by
  refine ofValue_eq_ok_iff.2 (.inr ⟨_, rfl, ?_⟩)
  constructor
  case known => simp [knownKeys]
  case checks =>
    -- The key stands in front of all other entries, so there is none of it behind.
    refine .inl ⟨_, ⟨[], _, rfl, by simp⟩, config.checks.map Check.key, ?_, ?_, ?_⟩
    · rw [List.map_map]
      rfl
    · exact List.forall_mem_map.2 fun check _ => check.isKnown_key
    · exact (Check.named_of_sublist h).symm
  case failFast => exact .inl ⟨_, ⟨[_], _, rfl, by simp⟩, rfl⟩
  case logLevel =>
    refine .inl ⟨_, ⟨[_, _], _, rfl, by simp⟩, config.logLevel.name, rfl, ?_⟩
    cases config.logLevel <;> decide

/-! ## Refusals -/

/-- A refusal that is reported is one of the configuration, or of the name of a check. -/
theorem name_of_fault? {e : ConfigError} {f : Fault} (h : e.fault? = some f) :
    f.name = "InvalidConfigError" ∨ f.name = "UnknownCheckError" := by
  cases e with
  | unorderedKeys => cases h
  | unwritableKey => cases h
  | unsettledKey => cases h
  | unknownCheck e =>
    cases h
    exact .inr rfl
  | _ =>
    cases h
    exact .inl rfl

/-- **A document is read, or refused with a report**, unless it is a mapping with unknown keys of which none can be
reported. -/
theorem ok_or_reported_iff {v : Value} :
    (∃ config, ofValue v = .ok config)
      ∨ (∃ e f, ofValue v = .error e ∧ e.fault? = some f
        ∧ (f.name = "InvalidConfigError" ∨ f.name = "UnknownCheckError"))
    ↔ ¬∃ entries e, v = .mapping entries ∧ Unreported entries e := by
  constructor
  · -- What cannot be reported is not read either, and is refused with this one error.
    rintro hmeets ⟨entries, e, hv, hunreported⟩
    obtain ⟨hrefused, hfault⟩ := ofValue_eq_error_iff.2 ⟨entries, hv, hunreported⟩
    rw [hrefused] at hmeets
    rcases hmeets with ⟨config, hconfig⟩ | ⟨other, f, hother, hreported, -⟩
    · cases hconfig
    · cases hother
      rw [hfault] at hreported
      cases hreported
  · intro hreportable
    cases hread : ofValue v with
    | ok config => exact .inl ⟨config, rfl⟩
    | error e =>
      cases hfault : e.fault? with
      | none =>
        obtain ⟨entries, hv, hunreported⟩ := ofValue_eq_error_iff.1 ⟨hread, hfault⟩
        exact absurd ⟨entries, e, hv, hunreported⟩ hreportable
      | some f => exact .inr ⟨e, f, rfl, hfault, name_of_fault? hfault⟩

/-- **Configurations are validated canonically.** A document is read just if it is empty or a well-formed mapping,
and then as the configuration that it describes. Otherwise it is refused with a report of one of two sorts, unless
the unknown keys of a mapping cannot be compared or the one to report cannot be written, which are the only refusals
without a report; where a key that is no number leaves it open which one that is, none of them must be one that cannot
be written. The checks of a configuration that was read stand in their own order, none of them twice, and what the
configuration is written as is read as the same configuration. -/
theorem validated_canonically (v : Value) :
    (∀ config, ofValue v = .ok config
      ↔ v = .null ∧ config = default ∨ ∃ entries, v = .mapping entries ∧ Describes entries config)
    ∧ ((∃ config, ofValue v = .ok config)
      ↔ v = .null ∨ ∃ entries, v = .mapping entries ∧ IsWellFormed entries)
    ∧ ((∃ config, ofValue v = .ok config)
        ∨ (∃ e f, ofValue v = .error e ∧ e.fault? = some f
          ∧ (f.name = "InvalidConfigError" ∨ f.name = "UnknownCheckError"))
      ↔ ¬∃ entries e, v = .mapping entries ∧ Unreported entries e)
    ∧ (∀ e, ofValue v = .error e ∧ e.fault? = none
      ↔ ∃ entries, v = .mapping entries ∧ Unreported entries e)
    ∧ ∀ config, ofValue v = .ok config →
      config.checks.Sublist Check.all ∧ config.checks.Nodup
      ∧ ofValue config.toValue = .ok config := by
  refine ⟨fun _ => ofValue_eq_ok_iff, ?_, ok_or_reported_iff, fun _ => ofValue_eq_error_iff, ?_⟩
  · simp only [ofValue_eq_ok_iff, ← exists_describes_iff]
    constructor
    · rintro ⟨config, ⟨hnull, -⟩ | ⟨entries, hv, hdescribes⟩⟩
      · exact .inl hnull
      · exact .inr ⟨entries, hv, config, hdescribes⟩
    · rintro (hnull | ⟨entries, hv, config, hdescribes⟩)
      · exact ⟨default, .inl ⟨hnull, rfl⟩⟩
      · exact ⟨config, .inr ⟨entries, hv, hdescribes⟩⟩
  · intro config h
    have hsublist := sublist_all_of_ofValue h
    exact ⟨hsublist, hsublist.nodup Check.nodup_all, ofValue_toValue hsublist⟩

/-- A document that names a check twice, and a level in letters of which two have no dot. -/
def document : Value :=
  .mapping
    [ (.text "log_level", .text "crıtıcal"),
      (.text "checks",
        .list (["balance_statements", "credits_debits_balance", "balance_statements"].map .text)) ]

/-- The document is read with each check once, in the order of all checks, and with the level in capitals. -/
theorem validated_canonically_document :
    ofValue document = .ok ⟨[.totals, .balances], true, .critical⟩
    ∧ [Check.totals, .balances].Sublist Check.all ∧ [Check.totals, .balances].Nodup
    ∧ ofValue (toValue ⟨[.totals, .balances], true, .critical⟩)
      = .ok ⟨[.totals, .balances], true, .critical⟩
    ∧ ∃ entries, document = .mapping entries ∧ IsWellFormed entries := by
  obtain ⟨-, haccepted, -, -, hcanonical⟩ := validated_canonically document
  have hread : ofValue document = .ok ⟨[.totals, .balances], true, .critical⟩ := by rfl
  obtain ⟨hsublist, hnodup, hagain⟩ := hcanonical _ hread
  refine ⟨hread, hsublist, hnodup, hagain, (haccepted.1 ⟨_, hread⟩).resolve_left ?_⟩
  intro hnull
  cases hnull

/-- A document with two unknown keys, of which neither is the lesser. -/
def mixedKeys : Value :=
  .mapping [(.integer 1, .text "x"), (.text "a", .text "y")]

/-- **Unknown keys of several sorts have no report.** -/
theorem not_reported_mixedKeys :
    ¬((∃ config, ofValue mixedKeys = .ok config)
      ∨ ∃ e f, ofValue mixedKeys = .error e ∧ e.fault? = some f
        ∧ (f.name = "InvalidConfigError" ∨ f.name = "UnknownCheckError")) := by
  have hrefused : ofValue mixedKeys = .error .unorderedKeys := by rfl
  rw [hrefused]
  rintro (⟨config, hconfig⟩ | ⟨e, f, he, hfault, -⟩)
  · cases hconfig
  · cases he
    cases hfault

end Config

end Daybook
