import Recurrence.Proofs.Session

namespace Recurrence

/-! What the environment makes of the settings.

A variable is applied as a change of one setting.  It gives that setting its checked value or, when it is
empty or bad, nothing at all, and it leaves the other settings alone (`Session.value_override`).  So each
setting of a loaded session hangs on the document and on its own variable, and the order in which the
variables are applied does not matter (`Session.load_overridden_or_fails`).
-/

def Checked.value? {α : Type} : Checked α → Option α
  | .good value => some value
  | .bad _ => none

theorem Checked.value?_eq_none {α : Type} {checked : Checked α} (notGood : ¬checked.Good) :
    checked.value? = none := by
  cases checked with
  | good value => exact absurd (Checked.good_good value) notGood
  | bad issues => rfl

theorem Value.lastGiven_singleton (key name : String) (given : Value) :
    lastGiven [(key, given)] name = if name = key then some given else none := by
  by_cases same : name = key
  · subst same
    rw [if_pos rfl]
    exact List.lookup_cons_self
  · rw [if_neg same, lastGiven, List.reverse_singleton, List.lookup_cons,
      beq_eq_false_iff_ne.mpr same, List.lookup_nil]

namespace Setting

/-- The variable that overrides a setting.  The greatest length of a rule has none. -/
def source? : Setting → Option String
  | timezone => some "CHRONOS_RRULE_TIMEZONE"
  | firstWeekday => some "CHRONOS_RRULE_FIRST_WEEKDAY"
  | defaultLimit => some "CHRONOS_RRULE_DEFAULT_LIMIT"
  | maxRuleLength => none
  | logLevel => some "CHRONOS_RRULE_LOG_LEVEL"

section

variable [Zone.Directory]

/-- What a variable gives a setting: its checked value, unless it is absent, empty or bad. -/
def given? (setting : Setting) (environment : List (String × String)) (source : String) :
    Option Value :=
  match environment.lookup source with
  | none => none
  | some text => if text.isEmpty then none else (setting.check (.text text)).value?

/-- What a setting is when the environment is put on top of some settings. -/
def overridden (setting : Setting) (environment : List (String × String)) (base : Settings) : Value :=
  (setting.source?.bind (setting.given? environment)).getD (setting.value base)

end

theorem name_injective : Function.Injective name := by
  intro first second same
  cases first <;> cases second <;> first | rfl | exact absurd same (by decide)

theorem mem_overrides_iff {setting : Setting} {source : String} :
    (source, setting.name) ∈ Session.overrides ↔ setting.source? = some source := by
  cases setting <;> simp [Session.overrides, source?, name, eq_comm]

end Setting

/-- Settings are known by what a document of them has. -/
theorem Settings.eq_of_value {first second : Settings}
    (same : ∀ setting : Setting, setting.value first = setting.value second) : first = second := by
  have timezone := text_injective (same .timezone)
  have firstWeekday := weekday_injective (same .firstWeekday)
  have defaultLimit := int_injective (same .defaultLimit)
  have maxRuleLength := int_injective (same .maxRuleLength)
  have logLevel := level_injective (same .logLevel)
  cases first
  cases second
  simp only at timezone firstWeekday defaultLimit maxRuleLength logLevel
  rw [timezone, firstWeekday, defaultLimit, maxRuleLength, logLevel]

namespace Session

section

variable [Zone.Directory] {session : Session} {path : String} {setting : Setting}
  {order : List (String × String)}

/-- What the document holds, if it is an object and every entry for a setting is good. -/
def Holds (session : Session) (settings : Settings) : Prop :=
  ∃ text entries, session.file = .document text ∧
    Value.ofDocument session.reach text = .ok (.object entries) ∧
    ∀ setting : Setting, setting.read entries = .good (setting.value settings)

/-- The settings that the environment is put on: those of the document, or the default ones when the
document is not good as a whole. -/
def IsBase (session : Session) (base : Settings) : Prop :=
  session.Holds base ∨ base = {} ∧ ∀ settings, ¬session.Holds settings

theorem holds_iff {text : String} (isFile : session.file = .document text) {settings : Settings} :
    session.Holds settings ↔ Settings.ofDocument session.reach text = .ok settings := by
  unfold Holds Settings.ofDocument
  constructor
  · intro holds
    obtain ⟨other, entries, same, read, good⟩ := holds
    cases isFile.symm.trans same
    simp only [read, Settings.ofEntries_eq_good_iff.mpr good]
  · intro read
    split at read
    · contradiction
    · next entries isObject =>
        split at read
        · next checked =>
            cases read
            exact ⟨text, entries, isFile, isObject, Settings.ofEntries_eq_good_iff.mp checked⟩
        · contradiction
    · contradiction

theorem isBase_default (noDocument : ∀ text, session.file ≠ .document text) :
    session.IsBase {} := by
  refine .inr ⟨rfl, fun settings holds => ?_⟩
  obtain ⟨text, _, isFile, _⟩ := holds
  exact noDocument text isFile

/-- Reading the document changes the settings alone. -/
theorem exists_base_of_readFile {read : Session × List LogRecord}
    (found : session.readFile path = .ok read) :
    ∃ base, session.IsBase base ∧ read.1 = { session with settings := base } := by
  simp only [readFile] at found
  split at found
  · contradiction
  · contradiction
  · next isFile =>
      cases found
      exact ⟨{}, isBase_default fun text => by simp [isFile], rfl⟩
  · next isFile =>
      cases found
      exact ⟨{}, isBase_default fun text => by simp [isFile], rfl⟩
  · next isFile =>
      cases found
      exact ⟨{}, isBase_default fun text => by simp [isFile], rfl⟩
  · next text isFile =>
      split at found
      · contradiction
      · next unusable =>
          cases found
          refine ⟨{}, .inr ⟨rfl, fun settings holds => ?_⟩, rfl⟩
          rw [holds_iff isFile, unusable] at holds
          contradiction
      · next settings isRead =>
          cases found
          exact ⟨settings, .inl ((holds_iff isFile).mpr isRead), rfl⟩

/-- A variable that is absent or empty does nothing; any other is a change of the setting. -/
theorem override_cases (session : Session) (source entry : String) :
    (session.override source entry).1 = session ∧
        (∀ setting : Setting, setting.given? session.environment source = none) ∨
      ∃ text, (session.override source entry).1 = session.after [(entry, .text text)] ∧
        ∀ setting : Setting, setting.given? session.environment source =
          (setting.check (.text text)).value? := by
  unfold override after
  cases found : session.environment.lookup source with
  | none => exact .inl ⟨rfl, fun setting => by rw [Setting.given?, found]⟩
  | some text =>
      cases empty : text.isEmpty with
      | true => exact .inl ⟨by simp [empty], fun setting => by simp [Setting.given?, found, empty]⟩
      | false =>
          refine .inr ⟨text, ?_, fun setting => by simp [Setting.given?, found, empty]⟩
          simp only [empty, Bool.false_eq_true, if_false]
          cases session.update [(entry, .text text)] <;> rfl

theorem value_after_of_ne (valid : session.settings.Valid) {entry : String} (other : setting.name ≠ entry)
    (given : Value) :
    setting.value (session.after [(entry, given)]).settings = setting.value session.settings := by
  have unnamed : Value.lastGiven [(entry, given)] setting.name = none := by
    rw [Value.lastGiven_singleton, if_neg other]
  have change := change_update valid [(entry, given)]
  unfold after
  cases updated : session.update [(entry, given)] with
  | error issues => rfl
  | ok later =>
      rw [updated] at change
      cases change with
      | applied _ kept => exact kept setting unnamed

theorem value_after_self (valid : session.settings.Valid) (given : Value) :
    setting.value (session.after [(setting.name, given)]).settings =
      (setting.check given).value?.getD (setting.value session.settings) := by
  have change := change_update valid [(setting.name, given)]
  unfold after
  cases updated : session.update [(setting.name, given)] with
  | error issues =>
      rw [updated] at change
      cases change with
      | @refused refused other named notGood =>
          rw [Value.lastGiven_singleton, Option.ite_none_right_eq_some] at named
          obtain ⟨same, equal⟩ := named
          cases Setting.name_injective same
          cases equal
          rw [Checked.value?_eq_none notGood, Option.getD_none]
  | ok later =>
      rw [updated] at change
      cases change with
      | applied good _ =>
          rw [good setting given (by rw [Value.lastGiven_singleton, if_pos rfl]; rfl)]
          rfl

/-- A variable gives its setting the checked value of its own and keeps every other setting. -/
theorem value_override (valid : session.settings.Valid) (setting : Setting) (source entry : String) :
    setting.value (session.override source entry).1.settings =
      if setting.name = entry then
        (setting.given? session.environment source).getD (setting.value session.settings)
      else setting.value session.settings := by
  rcases override_cases session source entry with ⟨unchanged, nothing⟩ | ⟨text, changed, given⟩
  · rw [unchanged, nothing setting, Option.getD_none, ite_self]
  · rw [changed, given setting]
    split
    · next own => rw [← own, value_after_self valid]
    · next other => exact value_after_of_ne valid other _

theorem exists_override (session : Session) (source entry : String) :
    ∃ settings level, (session.override source entry).1 = { session with settings, level } := by
  rcases override_cases session source entry with ⟨unchanged, _⟩ | ⟨text, changed, _⟩
  · exact ⟨session.settings, session.level, unchanged⟩
  · rw [changed]
    unfold after update
    cases session.settings.changed [(entry, .text text)] with
    | good later => exact ⟨later, some later.logLevel, rfl⟩
    | bad issues => exact ⟨session.settings, session.level, rfl⟩

theorem exists_overrideAll (session : Session) (order : List (String × String)) :
    ∃ settings level, (overrideAll session order).1 = { session with settings, level } := by
  induction order generalizing session with
  | nil => exact ⟨session.settings, session.level, rfl⟩
  | cons first rest ih =>
      obtain ⟨settings, level, changed⟩ := exists_override session first.1 first.2
      obtain ⟨later, laterLevel, others⟩ := ih (session.override first.1 first.2).1
      rw [changed] at others
      exact ⟨later, laterLevel, by rw [overrideAll, changed, others]⟩

theorem value_overrideAll_of_not_mem (valid : session.settings.Valid)
    (absent : setting.name ∉ order.map Prod.snd) :
    setting.value (overrideAll session order).1.settings = setting.value session.settings := by
  induction order generalizing session with
  | nil => rfl
  | cons first rest ih =>
      obtain ⟨other, later⟩ := not_or.mp (mt List.mem_cons.mpr absent)
      rw [overrideAll, ih (valid_override valid first.1 first.2) later, value_override valid, if_neg other]

theorem value_overrideAll_of_mem {source : String} (valid : session.settings.Valid)
    (distinct : (order.map Prod.snd).Nodup) (member : (source, setting.name) ∈ order) :
    setting.value (overrideAll session order).1.settings =
      (setting.given? session.environment source).getD (setting.value session.settings) := by
  induction order generalizing session with
  | nil => contradiction
  | cons first rest ih =>
      obtain ⟨new, distinctRest⟩ := List.nodup_cons.mp distinct
      have validFirst := valid_override valid first.1 first.2
      rw [overrideAll]
      rcases List.mem_cons.mp member with now | later
      · subst now
        rw [value_overrideAll_of_not_mem validFirst new, value_override valid, if_pos rfl]
      · have other : setting.name ≠ first.2 := fun same =>
          new (same ▸ List.mem_map_of_mem (f := Prod.snd) later)
        obtain ⟨settings, level, changed⟩ := exists_override session first.1 first.2
        have unchanged := value_override valid setting first.1 first.2
        rw [if_neg other] at unchanged
        rw [ih validFirst distinctRest later, unchanged, changed]

/-- Whatever the order of the variables, each setting is overridden by its own. -/
theorem value_overrideAll (valid : session.settings.Valid) (permuted : order.Perm overrides)
    (setting : Setting) :
    setting.value (overrideAll session order).1.settings =
      setting.overridden session.environment session.settings := by
  have distinct : (order.map Prod.snd).Nodup :=
    (permuted.map Prod.snd).nodup_iff.mpr (by decide)
  unfold Setting.overridden
  cases named : setting.source? with
  | some source =>
      have member := permuted.mem_iff.mpr (Setting.mem_overrides_iff.mpr named)
      rw [value_overrideAll_of_mem valid distinct member, Option.bind_some]
  | none =>
      rw [Option.bind_none, Option.getD_none]
      refine value_overrideAll_of_not_mem valid fun member => ?_
      obtain ⟨⟨source, _⟩, inOrder, rfl⟩ := List.mem_map.mp member
      have sourced := Setting.mem_overrides_iff.mp (permuted.mem_iff.mp inOrder)
      rw [named] at sourced
      contradiction

/-- Loading a session, with the variables applied in some order. -/
def loadInOrder (session : Session) (path : String) (order : List (String × String)) :
    Except LoadFault Session :=
  (session.readFile path).map fun read => (overrideAll read.1 order).1.applyLevel

/-- Each setting of a loaded session is that of the document, or of the default settings when the document
is not good as a whole, unless its own variable gives it another value.  Variables applied in another order
lead to the same session.  Loading breaks off only where reading the document does. -/
theorem load_overridden_or_fails (session : Session) (path : String) :
    (∃ fault, session.load path = .error fault ∧ session.Fails fault) ∨
    ∃ base loaded logs, session.IsBase base ∧ session.load path = .ok (loaded, logs) ∧
      (∀ setting : Setting,
        setting.value loaded.settings = setting.overridden session.environment base) ∧
      ∀ order, order.Perm overrides → session.loadInOrder path order = .ok loaded := by
  cases found : session.readFile path with
  | error fault =>
      refine .inl ⟨fault, ?_, fails_of_readFile found⟩
      rw [load, found]
      rfl
  | ok read =>
      obtain ⟨base, isBase, same⟩ := exists_base_of_readFile found
      have valid : read.1.settings.Valid := valid_of_readFile found
      have overridden (order : List (String × String)) (permuted : order.Perm overrides)
          (setting : Setting) : setting.value (overrideAll read.1 order).1.settings =
            setting.overridden session.environment base := by
        rw [value_overrideAll valid permuted, same]
      refine .inr ⟨base, _, _, isBase, load_of_readFile found, ?_, fun order permuted => ?_⟩
      · exact overridden overrides (List.Perm.refl _)
      · -- The level is set once more at the end, so only the settings could tell two orders apart.
        have settings_eq : (overrideAll read.1 order).1.settings =
            (overrideAll read.1 overrides).1.settings :=
          Settings.eq_of_value fun setting => (overridden order permuted setting).trans
            (overridden overrides (List.Perm.refl _) setting).symm
        obtain ⟨first, firstLevel, ordered⟩ := exists_overrideAll read.1 order
        obtain ⟨second, secondLevel, listed⟩ := exists_overrideAll read.1 overrides
        rw [ordered, listed] at settings_eq
        obtain rfl : first = second := settings_eq
        rw [loadInOrder, found, Except.map, ordered, listed]
        rfl

end

section

attribute [local instance] Zone.table

example : (({ environment := [("CHRONOS_RRULE_TIMEZONE", "Europe/Berlin"),
    ("CHRONOS_RRULE_FIRST_WEEKDAY", "sunday")], reach := 1000 } : Session).loadInOrder ""
      overrides.reverse).toOption.map settings = some { timezone := "Europe/Berlin" } := by
  decide +kernel

/-- A good variable does not always count: a document may keep the session from being loaded. -/
theorem not_forall_load_overridden :
    ¬ ∀ (session : Session) (path text : String), session.file = .document text →
      ∃ base loaded logs, session.IsBase base ∧ session.load path = .ok (loaded, logs) ∧
        ∀ setting : Setting,
          setting.value loaded.settings = setting.overridden session.environment base := by
  intro loads
  obtain ⟨_, loaded, logs, _, found, _⟩ := loads
    { file := .document (nestedLists 1000)
      environment := [("CHRONOS_RRULE_TIMEZONE", "Europe/Berlin")]
      reach := 1000 } "config.json" (nestedLists 1000) rfl
  rw [load_nestedLists rfl] at found
  contradiction

end

end Session

end Recurrence
