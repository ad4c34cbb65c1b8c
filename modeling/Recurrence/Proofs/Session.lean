import Recurrence.Session
import Recurrence.Proofs.Settings
import Recurrence.Proofs.Value.Depth
import Recurrence.Zone.Table

namespace Recurrence

/-! What keeps a session in order.

The settings of a session are valid at every point of loading it and behind every change, and once it is
loaded its level is that of the settings (`Session.Sound`).  A change gives the settings it names the
values they are checked to be, or is refused and leaves the session as it is (`Session.Change`).  Loading
gives no session only when the document has no home, is hidden, or is too deep for its reader, and nothing
looks for that (`Session.Fails`): `Session.load_sound_or_fails`.
-/

namespace Session

section

variable [Zone.Directory] {session updated : Session} {path : String}

structure Sound (session : Session) : Prop where
  valid : session.settings.Valid
  level_eq : session.level = some session.settings.logLevel

/-- How a change ends.  One that is refused reports what the checks of the settings it names find. -/
inductive Change (session : Session) (changes : List (String × Value)) :
    Except (List Issue) Session → Prop
  | refused {setting : Setting} {given : Value}
      (named : Value.lastGiven changes setting.name = some given)
      (notGood : ¬(setting.check given).Good) :
      Change session changes (.error
        (Setting.all.flatMap fun setting => (setting.changed session.settings changes).issues))
  | applied {later : Settings}
      (named : ∀ setting : Setting, ∀ given ∈ Value.lastGiven changes setting.name,
        setting.check given = .good (setting.value later))
      (kept : ∀ setting : Setting, Value.lastGiven changes setting.name = none →
        setting.value later = setting.value session.settings) :
      Change session changes (.ok { session with settings := later, level := some later.logLevel })

/-- The session behind a change; one that is refused leaves the session as it is. -/
def after (session : Session) (changes : List (String × Value)) : Session :=
  match session.update changes with
  | .ok updated => updated
  | .error _ => session

theorem change_update (valid : session.settings.Valid) (changes : List (String × Value)) :
    Change session changes (session.update changes) := by
  unfold update
  cases checked : session.settings.changed changes with
  | good later =>
      have good := (Settings.changed_eq_good_iff valid).mp checked
      refine .applied (fun setting given named => ?_) fun setting unnamed => ?_
      · have kept := good setting
        rw [Setting.changed, Option.mem_def.mp named] at kept
        exact Checked.within_eq_good_iff.mp kept
      · have kept := good setting
        rw [Setting.changed, unnamed] at kept
        exact (Checked.good.inj kept).symm
  | bad issues =>
      have issues_eq := Settings.issues_changed valid changes
      rw [checked] at issues_eq
      have notGood : ¬(session.settings.changed changes).Good :=
        checked ▸ Checked.not_good_bad issues
      rw [Settings.good_changed_iff valid, not_forall] at notGood
      obtain ⟨setting, refused⟩ := notGood
      cases named : Value.lastGiven changes setting.name with
      | none =>
          rw [Setting.changed, named] at refused
          exact absurd (Checked.good_good _) refused
      | some given =>
          rw [Setting.changed, named] at refused
          have notGood : ¬(setting.check given).Good := mt Checked.good_within.mpr refused
          have refusal : Change session changes _ := .refused named notGood
          rw [← issues_eq] at refusal
          exact refusal

theorem sound_of_update {changes : List (String × Value)}
    (done : session.update changes = .ok updated) : updated.Sound := by
  unfold update at done
  split at done
  · contradiction
  · next later checked =>
      cases done
      exact ⟨Settings.valid_of_ofEntries checked, rfl⟩

theorem Sound.after (sound : session.Sound) (changes : List (String × Value)) :
    (session.after changes).Sound := by
  unfold Session.after
  split
  · next done => exact sound_of_update done
  · exact sound

theorem Sound.afterAll (sound : session.Sound) (calls : List (List (String × Value))) :
    (calls.foldl Session.after session).Sound := by
  induction calls generalizing session with
  | nil => exact sound
  | cons changes rest ih => exact ih (sound.after changes)

theorem valid_of_ofDocument {reach : Nat} {text : String} {settings : Settings}
    (read : Settings.ofDocument reach text = .ok settings) : settings.Valid := by
  unfold Settings.ofDocument at read
  split at read
  · contradiction
  · split at read
    · next checked =>
        cases read
        exact Settings.valid_of_ofEntries checked
    · contradiction
  · contradiction

/-- What keeps the document from being read.  Only one that opens more brackets than its reader can stand
inside is too deep. -/
inductive Fails (session : Session) : LoadFault → Prop
  | homeless (isFile : session.file = .homeless) : Fails session .homeless
  | hidden (isFile : session.file = .hidden) : Fails session .hidden
  | tooDeep {text : String} (isFile : session.file = .document text)
      (deep : session.reach < Value.Reader.openings text.toList) : Fails session .tooDeep

theorem fails_of_readFile {fault : LoadFault} (failed : session.readFile path = .error fault) :
    session.Fails fault := by
  simp only [readFile] at failed
  split at failed
  · next isFile =>
      cases failed
      exact .homeless isFile
  · next isFile =>
      cases failed
      exact .hidden isFile
  · contradiction
  · contradiction
  · contradiction
  · next text isFile =>
      split at failed
      · next deep =>
          cases failed
          refine .tooDeep isFile (Value.lt_openings_of_tooDeep ?_)
          unfold Settings.ofDocument at deep
          split at deep
          · next unread =>
              cases deep
              exact unread
          · split at deep <;> cases deep
          · cases deep
      · contradiction
      · contradiction

theorem valid_of_readFile {read : Session × List LogRecord}
    (found : session.readFile path = .ok read) : read.1.settings.Valid := by
  simp only [readFile] at found
  split at found
  · contradiction
  · contradiction
  · cases found
    exact Settings.valid_default
  · cases found
    exact Settings.valid_default
  · cases found
    exact Settings.valid_default
  · split at found
    · contradiction
    · cases found
      exact Settings.valid_default
    · next settings read =>
        cases found
        exact valid_of_ofDocument read

theorem valid_override (valid : session.settings.Valid) (name entry : String) :
    (session.override name entry).1.settings.Valid := by
  unfold override
  split
  · exact valid
  · split
    · exact valid
    · split
      · next done => exact (sound_of_update done).valid
      · exact valid

theorem valid_overrideAll (valid : session.settings.Valid) (names : List (String × String)) :
    (overrideAll session names).1.settings.Valid := by
  induction names generalizing session with
  | nil => exact valid
  | cons name rest ih => exact ih (valid_override valid name.1 name.2)

theorem load_of_readFile {read : Session × List LogRecord} (found : session.readFile path = .ok read) :
    session.load path = .ok ((overrideAll read.1 overrides).1.applyLevel,
      read.2 ++ (overrideAll read.1 overrides).2) := by
  rw [load, found]
  rfl

/-- Whatever the document and the environment say, the settings are valid when the document is read, when
some of the variables have been applied, and behind every change of the loaded session; each change is
one of `Change`.  Loading breaks off only where reading the document does. -/
theorem load_sound_or_fails (session : Session) (path : String) :
    match session.readFile path with
    | .error fault => session.load path = .error fault ∧ session.Fails fault
    | .ok read =>
        (∀ count, (overrideAll read.1 (overrides.take count)).1.settings.Valid) ∧
          ∃ loaded logs, session.load path = .ok (loaded, logs) ∧
            ∀ calls : List (List (String × Value)), (calls.foldl after loaded).Sound ∧
              ∀ changes, Change (calls.foldl after loaded) changes
                ((calls.foldl after loaded).update changes) := by
  cases found : session.readFile path with
  | error fault =>
      refine ⟨?_, fails_of_readFile found⟩
      rw [load, found]
      rfl
  | ok read =>
      have valid := valid_of_readFile found
      have sound : (overrideAll read.1 overrides).1.applyLevel.Sound :=
        ⟨valid_overrideAll valid overrides, rfl⟩
      refine ⟨fun count => valid_overrideAll valid _, _, _, load_of_readFile found, fun calls => ?_⟩
      have kept := sound.afterAll calls
      exact ⟨kept, change_update kept.valid⟩

/-- Lists inside each other, one more than a reader can stand inside. -/
def nestedLists (reach : Nat) : String :=
  String.ofList (List.replicate (reach + 1) '[' ++ List.replicate (reach + 1) ']')

theorem load_nestedLists (isFile : session.file = .document (nestedLists session.reach)) :
    session.load path = .error .tooDeep := by
  have unread : Settings.ofDocument session.reach (nestedLists session.reach) = .error .tooDeep := by
    rw [Settings.ofDocument, nestedLists, Value.ofDocument_brackets]
  simp only [load, readFile, isFile, unread]
  rfl

end

section

attribute [local instance] Zone.table

/-- Not every document leads to a session. -/
theorem not_forall_load_isOk :
    ¬ ∀ (session : Session) (path text : String), session.file = .document text →
      ∃ loaded, session.load path = .ok loaded := by
  intro loads
  obtain ⟨loaded, found⟩ :=
    loads { file := .document (nestedLists 1000), reach := 1000 } "config.json" (nestedLists 1000) rfl
  rw [load_nestedLists rfl] at found
  contradiction

end

end Session

end Recurrence
