import Mathlib.Data.List.Basic
import Recurrence.Settings
import Recurrence.Proofs.Checked
import Recurrence.Proofs.Zone.Name

namespace Recurrence

/-! What a change does to settings.

Each of the five settings is checked on its own.  A check takes what it has made of a value as it stands
(`Setting.check_of_check`), so settings that are good stay so when they are checked once more
(`Settings.valid_iff`).  A change therefore gives each setting the last value named for it, checked, and
keeps the settings that it does not name (`Settings.changed_eq_good_iff`); what it finds wrong is what the
checks of the named settings find (`Settings.issues_changed`).
-/

namespace Value

variable {entries : List (String × Value)} {key name : String}

theorem lookup_replaced_of_ne (other : name ≠ key) (value : Value) :
    (entries.map fun entry => if entry.1 == key then (key, value) else entry).lookup name =
      entries.lookup name := by
  have passed : (name == key) = false := beq_eq_false_iff_ne.mpr other
  induction entries with
  | nil => rfl
  | cons entry rest ih =>
      obtain ⟨first, old⟩ := entry
      rw [List.map_cons]
      by_cases replaced : first = key
      · subst replaced
        rw [if_pos (beq_self_eq_true first), List.lookup_cons, List.lookup_cons, passed]
        exact ih
      · rw [if_neg (by simpa using replaced), List.lookup_cons, List.lookup_cons, ih]

theorem lookup_replaced_self (found : (entries.any fun entry => entry.1 == key) = true)
    (value : Value) :
    (entries.map fun entry => if entry.1 == key then (key, value) else entry).lookup key =
      some value := by
  induction entries with
  | nil => contradiction
  | cons entry rest ih =>
      obtain ⟨first, old⟩ := entry
      rw [List.map_cons]
      by_cases replaced : first = key
      · subst replaced
        rw [if_pos (beq_self_eq_true first), List.lookup_cons_self]
      · have passed : (key == first) = false := beq_eq_false_iff_ne.mpr (Ne.symm replaced)
        have later : (rest.any fun entry => entry.1 == key) = true := by
          simpa [List.any_cons, replaced] using found
        rw [if_neg (by simpa using replaced), List.lookup_cons, passed]
        exact ih later

theorem lookup_setEntry (entries : List (String × Value)) (key name : String) (value : Value) :
    (setEntry entries key value).lookup name =
      if name == key then some value else entries.lookup name := by
  unfold setEntry
  by_cases same : name = key
  · subst same
    rw [if_pos (beq_self_eq_true name)]
    split
    · next found => exact lookup_replaced_self found value
    · next absent =>
        have missing : entries.lookup name = none := by
          refine List.lookup_eq_none_iff.mpr fun entry member => bne_iff_ne.mpr fun equal => ?_
          exact absent (List.any_eq_true.mpr ⟨entry, member, beq_iff_eq.mpr equal.symm⟩)
        rw [List.lookup_append, missing, Option.none_or, List.lookup_cons_self]
  · have passed : (name == key) = false := beq_eq_false_iff_ne.mpr same
    rw [if_neg (Bool.eq_false_iff.mp passed)]
    split
    · exact lookup_replaced_of_ne same value
    · rw [List.lookup_append, List.lookup_cons, passed, List.lookup_nil, Option.or_none]

/-- The value last given for a name. -/
def lastGiven (changes : List (String × Value)) (name : String) : Option Value :=
  changes.reverse.lookup name

theorem lookup_setEntries (entries changes : List (String × Value)) (name : String) :
    (changes.foldl (fun entries change => setEntry entries change.1 change.2) entries).lookup name =
      (lastGiven changes name).or (entries.lookup name) := by
  induction changes generalizing entries with
  | nil => rfl
  | cons change rest ih =>
      rw [List.foldl_cons, ih, lookup_setEntry, lastGiven, lastGiven, List.reverse_cons,
        List.lookup_append, Option.or_assoc]
      congr 1
      rw [List.lookup_cons]
      cases name == change.1 <;> rfl

end Value

namespace Settings

theorem zoneName_eq_good_iff [Zone.Directory] {value : Value} {name : String} :
    zoneName value = .good name ↔ value = .text name ∧ (Zone.resolve? name).isSome = true := by
  cases value with
  | text given =>
      simp only [zoneName, Value.plainText, Checked.refusing]
      cases known : (Zone.resolve? given).isSome with
      | true =>
          constructor
          · intro same
            cases same
            exact ⟨rfl, known⟩
          · intro both
            obtain ⟨⟨⟩, _⟩ := both
            rfl
      | false =>
          constructor
          · intro same
            contradiction
          · intro both
            obtain ⟨⟨⟩, resolved⟩ := both
            rw [known] at resolved
            contradiction
  | _ => exact iff_of_false nofun nofun

theorem level_name (level : Level) : Settings.level (.text level.name) = .good level := by
  have capitals : Letters.capitals level.name = level.name := by
    cases level <;> decide +kernel
  simp only [Settings.level, Value.plainText, Checked.andThen, capitals, Level.ofName?_name]

end Settings

inductive Setting
  | timezone
  | firstWeekday
  | defaultLimit
  | maxRuleLength
  | logLevel
deriving DecidableEq

namespace Setting

def all : List Setting := [timezone, firstWeekday, defaultLimit, maxRuleLength, logLevel]

def name : Setting → String
  | timezone => "timezone"
  | firstWeekday => "first_weekday"
  | defaultLimit => "default_limit"
  | maxRuleLength => "max_rule_length"
  | logLevel => "log_level"

variable [Zone.Directory]

/-- What a value given for a setting is kept as. -/
def check : Setting → Value → Checked Value
  | timezone, value => .text <$> Settings.zoneName value
  | firstWeekday, value => (fun weekday => .text weekday.code) <$> value.listed Weekday.ofCode?
  | defaultLimit, value => .int <$> value.integerFrom 0
  | maxRuleLength, value => .int <$> value.integerFrom 16
  | logLevel, value => (fun level => .text level.name) <$> Settings.level value

/-- A setting as a document of the settings has it. -/
def value (settings : Settings) : Setting → Value
  | timezone => .text settings.timezone
  | firstWeekday => .text settings.firstWeekday.code
  | defaultLimit => .int settings.defaultLimit
  | maxRuleLength => .int settings.maxRuleLength
  | logLevel => .text settings.logLevel.name

/-- The value of a setting in a list of entries, checked; the default one when the entries lack it. -/
def read (setting : Setting) (entries : List (String × Value)) : Checked Value :=
  Value.optional setting.name (setting.value {}) setting.check entries

/-- What a setting is after a change. -/
def changed (setting : Setting) (settings : Settings) (changes : List (String × Value)) :
    Checked Value :=
  match Value.lastGiven changes setting.name with
  | some given => (setting.check given).within (.field setting.name)
  | none => .good (setting.value settings)

/-- Each setting is read as the check of all entries reads it, and then kept as a document has it. -/
theorem read_eq (entries : List (String × Value)) :
    read timezone entries =
        Value.text <$> Value.optional "timezone" "UTC" Settings.zoneName entries ∧
      read firstWeekday entries = (fun weekday : Weekday => Value.text weekday.code) <$>
        Value.optional "first_weekday" .monday (Value.listed Weekday.ofCode?) entries ∧
      read defaultLimit entries =
        Value.int <$> Value.optional "default_limit" 366 (Value.integerFrom 0) entries ∧
      read maxRuleLength entries = Value.int <$>
        Value.optional "max_rule_length" RuleGuard.defaultLimit (Value.integerFrom 16) entries ∧
      read logLevel entries = (fun level : Level => Value.text level.name) <$>
        Value.optional "log_level" .info Settings.level entries :=
  ⟨Value.optional_map _ _ _ _ _, Value.optional_map _ _ _ _ _, Value.optional_map _ _ _ _ _,
    Value.optional_map _ _ _ _ _, Value.optional_map _ _ _ _ _⟩

/-- A check takes what it has made of a value as it stands. -/
theorem check_of_check {setting : Setting} {given kept : Value}
    (checked : setting.check given = .good kept) : setting.check kept = .good kept := by
  cases setting with
  | timezone =>
      obtain ⟨name, named, rfl⟩ := Checked.map_eq_good_iff.mp checked
      obtain ⟨rfl, _⟩ := Settings.zoneName_eq_good_iff.mp named
      exact checked
  | firstWeekday =>
      obtain ⟨weekday, _, rfl⟩ := Checked.map_eq_good_iff.mp checked
      refine Checked.map_eq_good_iff.mpr ⟨weekday, ?_, rfl⟩
      simp only [Value.listed, Weekday.ofCode?_code]
  | defaultLimit | maxRuleLength =>
      obtain ⟨number, read, rfl⟩ := Checked.map_eq_good_iff.mp checked
      have above := Value.le_of_integerFrom read
      exact Checked.map_eq_good_iff.mpr ⟨number, Value.integerFrom_int above, rfl⟩
  | logLevel =>
      obtain ⟨level, _, rfl⟩ := Checked.map_eq_good_iff.mp checked
      exact Checked.map_eq_good_iff.mpr ⟨level, Settings.level_name level, rfl⟩

end Setting

namespace Settings

/-- What holds of all settings in force. -/
structure Valid [Zone.Directory] (settings : Settings) : Prop where
  zone_known : (Zone.resolve? settings.timezone).isSome = true
  nonneg_defaultLimit : 0 ≤ settings.defaultLimit
  le_maxRuleLength : 16 ≤ settings.maxRuleLength

variable {settings later : Settings} {entries changes : List (String × Value)}

theorem text_injective : Function.Injective Value.text := fun _ _ => Value.text.inj

theorem int_injective : Function.Injective Value.int := fun _ _ => Value.int.inj

theorem weekday_injective : Function.Injective fun weekday : Weekday => Value.text weekday.code := by
  intro first second same
  have codes := congrArg Weekday.ofCode? (Value.text.inj same)
  rw [Weekday.ofCode?_code, Weekday.ofCode?_code] at codes
  exact Option.some.inj codes

theorem level_injective : Function.Injective fun level : Level => Value.text level.name := by
  intro first second same
  have names := congrArg Level.ofName? (Value.text.inj same)
  rw [Level.ofName?_name, Level.ofName?_name] at names
  exact Option.some.inj names

theorem lookup_entries (settings : Settings) (setting : Setting) :
    settings.entries.lookup setting.name = some (setting.value settings) := by
  cases setting <;> rfl

variable [Zone.Directory]

theorem valid_iff :
    settings.Valid ↔ ∀ setting : Setting, setting.check (setting.value settings) =
      .good (setting.value settings) := by
  constructor
  · intro valid setting
    obtain ⟨zone_known, nonneg, le⟩ := valid
    cases setting with
    | timezone =>
        exact Checked.map_eq_good_iff.mpr ⟨_, zoneName_eq_good_iff.mpr ⟨rfl, zone_known⟩, rfl⟩
    | firstWeekday =>
        refine Checked.map_eq_good_iff.mpr ⟨settings.firstWeekday, ?_, rfl⟩
        simp only [Setting.value, Value.listed, Weekday.ofCode?_code]
    | defaultLimit => exact Checked.map_eq_good_iff.mpr ⟨_, Value.integerFrom_int nonneg, rfl⟩
    | maxRuleLength => exact Checked.map_eq_good_iff.mpr ⟨_, Value.integerFrom_int le, rfl⟩
    | logLevel => exact Checked.map_eq_good_iff.mpr ⟨_, level_name settings.logLevel, rfl⟩
  · intro good
    have zone := (Checked.map_eq_good_iff_of_injective text_injective).mp (good .timezone)
    have limit := (Checked.map_eq_good_iff_of_injective int_injective).mp (good .defaultLimit)
    have length := (Checked.map_eq_good_iff_of_injective int_injective).mp (good .maxRuleLength)
    exact ⟨(zoneName_eq_good_iff.mp zone).2, Value.le_of_integerFrom limit,
      Value.le_of_integerFrom length⟩

/-- The settings in a list of entries, each as the entries give it. -/
structure ReadFrom (settings : Settings) (entries : List (String × Value)) : Prop where
  timezone : Value.optional "timezone" "UTC" zoneName entries = .good settings.timezone
  firstWeekday : Value.optional "first_weekday" .monday (Value.listed Weekday.ofCode?) entries =
    .good settings.firstWeekday
  defaultLimit : Value.optional "default_limit" 366 (Value.integerFrom 0) entries =
    .good settings.defaultLimit
  maxRuleLength : Value.optional "max_rule_length" RuleGuard.defaultLimit (Value.integerFrom 16)
    entries = .good settings.maxRuleLength
  logLevel : Value.optional "log_level" .info level entries = .good settings.logLevel

theorem ofEntries_eq_good_iff_readFrom :
    ofEntries entries = .good settings ↔ settings.ReadFrom entries := by
  constructor
  · intro good
    simp only [ofEntries, Checked.seq_eq_good_iff, Checked.map_eq_good_iff] at good
    obtain ⟨_, _, ⟨_, _, ⟨_, _, ⟨_, _, ⟨_, first, rfl⟩, second, rfl⟩, third, rfl⟩, fourth, rfl⟩,
      fifth, rfl⟩ := good
    exact ⟨first, second, third, fourth, fifth⟩
  · intro read
    obtain ⟨first, second, third, fourth, fifth⟩ := read
    rw [ofEntries, first, second, third, fourth, fifth]
    rfl

theorem readFrom_iff :
    settings.ReadFrom entries ↔
      ∀ setting : Setting, setting.read entries = .good (setting.value settings) := by
  obtain ⟨zone, weekday, limit, length, logged⟩ := Setting.read_eq entries
  constructor
  · intro read setting
    cases setting with
    | timezone => exact zone.trans (congrArg (_ <$> ·) read.timezone)
    | firstWeekday => exact weekday.trans (congrArg (_ <$> ·) read.firstWeekday)
    | defaultLimit => exact limit.trans (congrArg (_ <$> ·) read.defaultLimit)
    | maxRuleLength => exact length.trans (congrArg (_ <$> ·) read.maxRuleLength)
    | logLevel => exact logged.trans (congrArg (_ <$> ·) read.logLevel)
  · intro good
    exact {
      timezone := (Checked.map_eq_good_iff_of_injective text_injective).mp
        (zone.symm.trans (good .timezone))
      firstWeekday := (Checked.map_eq_good_iff_of_injective weekday_injective).mp
        (weekday.symm.trans (good .firstWeekday))
      defaultLimit := (Checked.map_eq_good_iff_of_injective int_injective).mp
        (limit.symm.trans (good .defaultLimit))
      maxRuleLength := (Checked.map_eq_good_iff_of_injective int_injective).mp
        (length.symm.trans (good .maxRuleLength))
      logLevel := (Checked.map_eq_good_iff_of_injective level_injective).mp
        (logged.symm.trans (good .logLevel)) }

theorem ofEntries_eq_good_iff :
    ofEntries entries = .good settings ↔
      ∀ setting : Setting, setting.read entries = .good (setting.value settings) :=
  ofEntries_eq_good_iff_readFrom.trans readFrom_iff

theorem good_ofEntries_iff :
    (ofEntries entries).Good ↔ ∀ setting : Setting, (setting.read entries).Good := by
  obtain ⟨zone, weekday, limit, length, logged⟩ := Setting.read_eq entries
  simp only [ofEntries, Checked.good_seq, Checked.good_map]
  constructor
  · intro good setting
    obtain ⟨⟨⟨⟨first, second⟩, third⟩, fourth⟩, fifth⟩ := good
    cases setting with
    | timezone => exact zone ▸ Checked.good_map.mpr first
    | firstWeekday => exact weekday ▸ Checked.good_map.mpr second
    | defaultLimit => exact limit ▸ Checked.good_map.mpr third
    | maxRuleLength => exact length ▸ Checked.good_map.mpr fourth
    | logLevel => exact logged ▸ Checked.good_map.mpr fifth
  · intro good
    exact ⟨⟨⟨⟨Checked.good_map.mp (zone ▸ good .timezone),
      Checked.good_map.mp (weekday ▸ good .firstWeekday)⟩,
      Checked.good_map.mp (limit ▸ good .defaultLimit)⟩,
      Checked.good_map.mp (length ▸ good .maxRuleLength)⟩,
      Checked.good_map.mp (logged ▸ good .logLevel)⟩

theorem issues_ofEntries (entries : List (String × Value)) :
    (ofEntries entries).issues =
      Setting.all.flatMap fun setting => (setting.read entries).issues := by
  obtain ⟨zone, weekday, limit, length, logged⟩ := Setting.read_eq entries
  simp only [ofEntries, Checked.issues_seq, Checked.issues_map, Setting.all, List.flatMap_cons,
    List.flatMap_nil, List.append_nil, zone, weekday, limit, length, logged, List.append_assoc]

theorem valid_default : ({} : Settings).Valid :=
  ⟨by rw [Zone.resolve?_utc, Option.isSome_some], by decide, by decide⟩

/-- Settings are valid however they are read: what is given is checked, and the rest has its default. -/
theorem valid_of_ofEntries (good : ofEntries entries = .good settings) : settings.Valid := by
  refine valid_iff.mpr fun setting => ?_
  have read := ofEntries_eq_good_iff.mp good setting
  unfold Setting.read Value.optional at read
  split at read
  · exact Setting.check_of_check (Checked.within_eq_good_iff.mp read)
  · rw [← Checked.good.inj read]
    exact valid_iff.mp valid_default setting

theorem read_changes (valid : settings.Valid) (changes : List (String × Value)) (setting : Setting) :
    setting.read (changes.foldl (fun entries change => Value.setEntry entries change.1 change.2)
      settings.entries) = setting.changed settings changes := by
  simp only [Setting.read, Value.optional, Value.lookup_setEntries, lookup_entries, Setting.changed]
  cases Value.lastGiven changes setting.name with
  | none =>
      rw [Option.none_or]
      exact Checked.within_eq_good_iff.mpr (valid_iff.mp valid setting)
  | some given => rfl

theorem changed_eq_good_iff (valid : settings.Valid) :
    settings.changed changes = .good later ↔
      ∀ setting : Setting, setting.changed settings changes = .good (setting.value later) := by
  rw [changed, ofEntries_eq_good_iff]
  simp only [read_changes valid]

theorem good_changed_iff (valid : settings.Valid) :
    (settings.changed changes).Good ↔
      ∀ setting : Setting, (setting.changed settings changes).Good := by
  rw [changed, good_ofEntries_iff]
  simp only [read_changes valid]

theorem issues_changed (valid : settings.Valid) (changes : List (String × Value)) :
    (settings.changed changes).issues =
      Setting.all.flatMap fun setting => (setting.changed settings changes).issues := by
  rw [changed, issues_ofEntries]
  simp only [read_changes valid]

end Settings

end Recurrence
