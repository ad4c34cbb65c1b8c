import Mathlib.Data.List.Basic
import Recurrence.Value.Reader

namespace Recurrence.Value

/-! How deep a document must be for its reader to give up.

Whatever a reader has taken from a text, it leaves an end of it.  A reader that stands inside as many
brackets as it can has passed every one of them, so a text that is too deep opens more brackets than the
reach of its reader (`lt_openings_of_tooDeep`).  A text of opening brackets only is too deep as soon as
there is one more of them (`ofDocument_brackets`).
-/

namespace Reader

variable {α β : Type} {chars rest : List Char}

theorem skipBlanks_suffix (chars : List Char) : skipBlanks chars <:+ chars :=
  List.dropWhile_suffix _

theorem after?_suffix {word : String} (found : after? word chars = some rest) : rest <:+ chars := by
  unfold after? at found
  split at found
  · cases found
    exact List.drop_suffix _ _
  · contradiction

theorem units_suffix {numbers : List Nat} (read : units chars = some (numbers, rest)) :
    rest <:+ chars := by
  fun_induction units chars generalizing numbers with
  | case1 => contradiction
  | case2 =>
      cases read
      exact List.suffix_cons _ _
  | case3 a b c d tail ih =>
      simp only [Option.bind_eq_bind, Option.bind_eq_some_iff, Option.pure_def, Option.some.injEq,
        Prod.mk.injEq] at read
      obtain ⟨_, _, _, _, _, _, _, _, ⟨_, left⟩, found, _, rfl⟩ := read
      exact (ih found).trans ⟨['\\', 'u', a, b, c, d], rfl⟩
  | case4 letter tail _ ih =>
      simp only [Option.bind_eq_bind, Option.bind_eq_some_iff, Option.pure_def, Option.some.injEq,
        Prod.mk.injEq] at read
      obtain ⟨_, _, ⟨_, left⟩, found, _, rfl⟩ := read
      exact (ih found).trans ⟨['\\', letter], rfl⟩
  | case5 => contradiction
  | case6 c tail _ _ _ _ ih =>
      simp only [Option.bind_eq_bind, Option.bind_eq_some_iff, Option.pure_def, Option.some.injEq,
        Prod.mk.injEq] at read
      obtain ⟨⟨_, left⟩, found, _, rfl⟩ := read
      exact (ih found).trans (List.suffix_cons c tail)

theorem string?_suffix {text : String} (read : string? chars = some (text, rest)) :
    rest <:+ chars := by
  simp only [string?, Option.map_eq_some_iff, Prod.mk.injEq] at read
  obtain ⟨⟨_, left⟩, found, _, rfl⟩ := read
  exact units_suffix found

theorem fraction?_suffix {digits : List Char} (read : fraction? chars = some (digits, rest)) :
    rest <:+ chars := by
  unfold fraction? at read
  split at read
  · next tail =>
      simp only at read
      split at read
      · contradiction
      · cases read
        exact (List.dropWhile_suffix _).trans (List.suffix_cons '.' tail)
  · contradiction

theorem exponent?_suffix {power : Int} (read : exponent? chars = some (power, rest)) :
    rest <:+ chars := by
  unfold exponent? at read
  simp only at read
  split at read
  · next e tail =>
      refine List.IsSuffix.trans ?_ (List.suffix_cons e tail)
      split at read
      · split at read
        all_goals
          simp only [Option.map_eq_some_iff, Prod.mk.injEq] at read
          obtain ⟨_, _, _, rfl⟩ := read
        · exact (List.dropWhile_suffix _).trans (List.suffix_cons '-' _)
        · exact (List.dropWhile_suffix _).trans (List.suffix_cons '+' _)
        · exact List.dropWhile_suffix _
      · contradiction
  · contradiction

theorem unsignedNumber?_suffix {negative : Bool} {number : Value}
    (read : unsignedNumber? negative chars = some (number, rest)) : rest <:+ chars := by
  unfold unsignedNumber? at read
  simp only at read
  split at read
  · contradiction
  · have behindWhole : chars.drop (wholeDigits chars).length <:+ chars := List.drop_suffix _ _
    generalize chars.drop (wholeDigits chars).length = tail at *
    have behindFraction : ((fraction? tail).map Prod.snd).getD tail <:+ chars := by
      cases found : fraction? tail with
      | none => exact behindWhole
      | some taken => exact (fraction?_suffix found).trans behindWhole
    generalize ((fraction? tail).map Prod.snd).getD tail = left at *
    split at read
    · split at read
      · contradiction
      · cases read
        exact behindFraction
    · cases read
      cases found : exponent? left with
      | none => exact behindFraction
      | some taken => exact (exponent?_suffix found).trans behindFraction

theorem number?_suffix {number : Value} (read : number? chars = some (number, rest)) :
    rest <:+ chars := by
  unfold number? at read
  split at read
  · next tail =>
      refine List.IsSuffix.trans ?_ (List.suffix_cons '-' tail)
      split at read
      · next found =>
          cases read
          exact after?_suffix found
      · exact unsignedNumber?_suffix read
  · exact unsignedNumber?_suffix read

theorem scalar?_suffix {scalar : Value} (read : scalar? chars = some (scalar, rest)) :
    rest <:+ chars := by
  unfold scalar? at read
  split at read
  · next tail =>
      simp only [Option.map_eq_some_iff, Prod.mk.injEq] at read
      obtain ⟨⟨_, left⟩, found, _, rfl⟩ := read
      exact (string?_suffix found).trans (List.suffix_cons '"' tail)
  · split at read
    case h_6 => exact number?_suffix read
    all_goals
      cases read
      exact after?_suffix ‹_›

def isOpening (c : Char) : Bool := c == '[' || c == '\x7b'

/-- How many brackets a text opens. -/
def openings (chars : List Char) : Nat := chars.countP isOpening

theorem openings_le_of_suffix (isEnd : rest <:+ chars) : openings rest ≤ openings chars :=
  isEnd.sublist.countP_le

/-- What is known of a text once a reader has tried it: what is left is an end of the text, and a text
that is too deep opens more brackets than the reader can stand inside. -/
def Accounts (reach : Nat) (chars : List Char) : Except DocumentFault (α × List Char) → Prop
  | .ok (_, rest) => rest <:+ chars
  | .error .tooDeep => reach < openings chars
  | .error .unusable => True

namespace Accounts

variable {reach : Nat} {result : Except DocumentFault (α × List Char)}

theorem of_suffix (isEnd : rest <:+ chars) (accounts : Accounts reach rest result) :
    Accounts reach chars result := by
  match result with
  | .ok (_, left) => exact List.IsSuffix.trans accounts isEnd
  | .error .tooDeep => exact Nat.lt_of_lt_of_le accounts (openings_le_of_suffix isEnd)
  | .error .unusable => exact True.intro

theorem map (f : α → β) (accounts : Accounts reach chars result) :
    Accounts reach chars (result.map fun read => (f read.1, read.2)) := by
  match result with
  | .ok (_, left) => exact accounts
  | .error .tooDeep => exact accounts
  | .error .unusable => exact True.intro

/-- Inside a bracket the reader can stand inside one bracket less. -/
theorem opened {c : Char} (opening : isOpening c = true) (accounts : Accounts reach chars result) :
    Accounts (reach + 1) (c :: chars) result := by
  match result with
  | .ok (_, left) => exact List.IsSuffix.trans accounts (List.suffix_cons c chars)
  | .error .tooDeep =>
      have counted : openings (c :: chars) = openings chars + 1 := List.countP_cons_of_pos opening
      have deep : reach < openings chars := accounts
      show reach + 1 < openings (c :: chars)
      omega
  | .error .unusable => exact True.intro

theorem tooDeep {c : Char} (opening : isOpening c = true) :
    Accounts 0 (c :: chars) (.error .tooDeep : Except DocumentFault (α × List Char)) := by
  have counted : openings (c :: chars) = openings chars + 1 := List.countP_cons_of_pos opening
  show 0 < openings (c :: chars)
  omega

theorem error {fault : DocumentFault}
    (accounts : Accounts reach chars (.error fault : Except DocumentFault (α × List Char))) :
    Accounts reach chars (.error fault : Except DocumentFault (β × List Char)) := by
  cases fault with
  | tooDeep => exact accounts
  | unusable => exact True.intro

end Accounts

theorem accounts_scalar (reach : Nat) (chars : List Char) :
    Accounts reach chars (orUnusable (scalar? chars)) := by
  cases read : scalar? chars with
  | none => exact True.intro
  | some taken => exact scalar?_suffix read

section Step

variable {bound : Nat}

theorem accounts_value
    (ofItems : ∀ reach chars, Accounts reach chars (items reach bound chars))
    (ofEntries : ∀ reach before chars, Accounts reach chars (entries reach bound before chars))
    (reach : Nat) (chars : List Char) : Accounts reach chars (value reach (bound + 1) chars) := by
  unfold value
  split
  · exact .tooDeep rfl
  · exact .tooDeep rfl
  · next reach rest =>
      refine .opened rfl (.of_suffix (skipBlanks_suffix rest) ?_)
      split
      · next closed => exact closed ▸ List.suffix_cons _ _
      · exact (ofItems reach _).map _
  · next reach rest =>
      refine .opened rfl (.of_suffix (skipBlanks_suffix rest) ?_)
      split
      · next closed => exact closed ▸ List.suffix_cons _ _
      · exact (ofEntries reach [] _).map _
  · exact accounts_scalar _ _

theorem accounts_items
    (ofValue : ∀ reach chars, Accounts reach chars (value reach bound chars))
    (ofItems : ∀ reach chars, Accounts reach chars (items reach bound chars))
    (reach : Nat) (chars : List Char) : Accounts reach chars (items reach (bound + 1) chars) := by
  unfold items
  have first := ofValue reach chars
  split
  · next fault failed =>
      rw [failed] at first
      exact first.error
  · next item rest read =>
      rw [read] at first
      have behindItem := (skipBlanks_suffix rest).trans first
      split
      · next tail closed =>
          rw [closed] at behindItem
          exact (List.suffix_cons ']' tail).trans behindItem
      · next tail more =>
          rw [more] at behindItem
          have next := (skipBlanks_suffix tail).trans (List.suffix_cons ',' tail)
          exact .of_suffix (next.trans behindItem) ((ofItems reach _).map _)
      · exact True.intro

theorem accounts_entries
    (ofValue : ∀ reach chars, Accounts reach chars (value reach bound chars))
    (ofEntries : ∀ reach before chars, Accounts reach chars (entries reach bound before chars))
    (reach : Nat) (before : List (String × Value)) (chars : List Char) :
    Accounts reach chars (entries reach (bound + 1) before chars) := by
  unfold entries
  split
  · next tail =>
      split
      · exact True.intro
      · next key rest read =>
          have behindKey := (skipBlanks_suffix rest).trans
            ((string?_suffix read).trans (List.suffix_cons '"' tail))
          split
          · next given colon =>
              rw [colon] at behindKey
              have behindColon := (skipBlanks_suffix given).trans
                ((List.suffix_cons ':' given).trans behindKey)
              have inner := ofValue reach (skipBlanks given)
              split
              · next fault failed =>
                  rw [failed] at inner
                  exact .of_suffix behindColon inner.error
              · next given left taken =>
                  rw [taken] at inner
                  have behindValue := (skipBlanks_suffix left).trans (inner.trans behindColon)
                  split
                  · next tail closed =>
                      rw [closed] at behindValue
                      exact (List.suffix_cons _ tail).trans behindValue
                  · next tail more =>
                      rw [more] at behindValue
                      have next := (skipBlanks_suffix tail).trans (List.suffix_cons ',' tail)
                      exact .of_suffix (next.trans behindValue) (ofEntries reach _ _)
                  · exact True.intro
          · exact True.intro
  · exact True.intro

end Step

/-- The readers of a value, of the items of a list and of the entries of an object, together: each calls
the others with a smaller bound. -/
theorem accounts (bound : Nat) :
    (∀ reach chars, Accounts reach chars (value reach bound chars)) ∧
      (∀ reach chars, Accounts reach chars (items reach bound chars)) ∧
      ∀ reach before chars, Accounts reach chars (entries reach bound before chars) := by
  induction bound with
  | zero =>
      refine ⟨fun reach chars => ?_, fun reach chars => ?_, fun reach before chars => ?_⟩
      · rw [value]
        exact True.intro
      · rw [items]
        exact True.intro
      · rw [entries]
        exact True.intro
  | succ bound ih =>
      obtain ⟨ofValue, ofItems, ofEntries⟩ := ih
      exact ⟨accounts_value ofItems ofEntries, accounts_items ofValue ofItems,
        accounts_entries ofValue ofEntries⟩

/-- A reader that meets one bracket more than it can stand inside does not look at what follows. -/
theorem value_brackets (reach : Nat) (rest : List Char) {bound : Nat} (enough : 2 * reach < bound) :
    value reach bound (List.replicate (reach + 1) '[' ++ rest) = .error .tooDeep := by
  induction reach generalizing bound with
  | zero =>
      obtain ⟨less, rfl⟩ := Nat.exists_eq_add_of_le' enough
      rfl
  | succ reach ih =>
      obtain ⟨less, rfl⟩ : ∃ less, bound = less + 1 + 1 := ⟨bound - 2, by omega⟩
      have inner := @ih less (by omega)
      rw [List.replicate_succ, List.cons_append] at inner ⊢
      have opened : value (reach + 1) (less + 1 + 1)
          ('[' :: (List.replicate (reach + 1) '[' ++ rest)) =
            (items reach (less + 1) ('[' :: (List.replicate reach '[' ++ rest))).map
              fun read => (.list read.1, read.2) := rfl
      have first : items reach (less + 1) ('[' :: (List.replicate reach '[' ++ rest)) =
          .error .tooDeep := by
        simp only [items, inner]
      rw [opened, first]
      rfl

end Reader

theorem lt_openings_of_tooDeep {reach : Nat} {document : String}
    (deep : ofDocument reach document = .error .tooDeep) :
    reach < Reader.openings document.toList := by
  have accounts := (Reader.accounts (2 * document.toList.length + 2)).1 reach
    (Reader.skipBlanks document.toList)
  simp only [ofDocument] at deep
  split at deep
  · split at deep <;> cases deep
  · next failed =>
      cases deep
      rw [failed] at accounts
      exact Nat.lt_of_lt_of_le accounts
        (Reader.openings_le_of_suffix (Reader.skipBlanks_suffix document.toList))

theorem ofDocument_brackets (reach : Nat) (rest : List Char) :
    ofDocument reach (String.ofList (List.replicate (reach + 1) '[' ++ rest)) = .error .tooDeep := by
  have noBlank : Reader.skipBlanks (List.replicate (reach + 1) '[' ++ rest) =
      List.replicate (reach + 1) '[' ++ rest := rfl
  have enough : 2 * reach < 2 * (List.replicate (reach + 1) '[' ++ rest).length + 2 := by
    rw [List.length_append, List.length_replicate]
    omega
  simp only [ofDocument, String.toList_ofList, noBlank, Reader.value_brackets reach rest enough]

end Recurrence.Value
