import Lexis.Proofs.SettingsValues
import Lexis.Settings.Load

/-!
# What a settings text says

A member that is known may stand once in an object, wherever it stands, and others do not count
(`Given`). So what an object says of the scanner's options and of the settings is told without going
through its members in order (`DenotesOptions`, `Says`), and a text that is an object is understood
exactly as its members say (`ofText_ok_iff`).
-/

namespace Lexis.Settings

open Json

/-! ## Members that are known -/

/-- The values, as they are written, of the members with a key. -/
def valuesOf (key : String) (ms : List Member) : List (List Char) :=
  (ms.filter (·.1 = key)).map (·.2)

/-- What values make of what is known so far: nothing else may be known if there is one. -/
inductive Fills {α : Type} (D : List Char → α → Prop) :
    Option α → List (List Char) → Option α → Prop
  | keep {known : Option α} : Fills D known [] known
  | fill {v : List Char} {a : α} (h : D v a) : Fills D none [v] (some a)

/-- What the members of an object say of a key: it may stand only once. -/
def Given {α : Type} (key : String) (D : List Char → α → Prop) (ms : List Member)
    (a? : Option α) : Prop := Fills D none (valuesOf key ms) a?

theorem valuesOf_cons_of_eq {key : String} {m : Member} (h : m.1 = key) (ms : List Member) :
    valuesOf key (m :: ms) = m.2 :: valuesOf key ms := by
  simp [valuesOf, h]

/-- A member with the key adds its value. -/
theorem valuesOf_cons_self (key : String) (v : List Char) (ms : List Member) :
    valuesOf key ((key, v) :: ms) = v :: valuesOf key ms := valuesOf_cons_of_eq rfl ms

/-- Members with other keys add nothing. -/
theorem valuesOf_cons_of_ne {key : String} {m : Member} (h : m.1 ≠ key) (ms : List Member) :
    valuesOf key (m :: ms) = valuesOf key ms := by
  simp [valuesOf, h]

/-- A value makes something known that was not. -/
def Learns {α : Type} (D : List Char → α → Prop) (known : Option α) (v : List Char)
    (known' : Option α) : Prop := known = none ∧ ∃ a, D v a ∧ known' = some a

/-- Without values what is known stays. -/
theorem fills_nil_iff {α : Type} {D : List Char → α → Prop} {known a? : Option α} :
    Fills D known [] a? ↔ a? = known := by
  constructor
  · intro h
    cases h
    rfl
  · rintro rfl
    exact .keep

/-- The first value is learnt, and the others meet what is known then. -/
theorem fills_cons_iff {α : Type} {D : List Char → α → Prop} {known a? : Option α}
    {v : List Char} {vs : List (List Char)} :
    Fills D known (v :: vs) a? ↔ ∃ known', Learns D known v known' ∧ Fills D known' vs a? := by
  constructor
  · intro h
    cases h with
    | fill h => exact ⟨_, ⟨rfl, _, h, rfl⟩, .keep⟩
  · rintro ⟨_, ⟨rfl, a, hv, rfl⟩, hs⟩
    cases hs with
    | keep => exact .fill hv

/-! ## The scanner's options -/

/-- An object that may give the limit, or a list of the limit at most. -/
inductive DenotesOptions : List Char → ScannerOptions → Prop
  | object {ms : List Member} {v : List Char} {depth : Option UInt64} (h : IsObject ms v)
      (hdepth : Given ScannerOptions.depthKey DenotesSize ms depth) :
      DenotesOptions v (optionsOf depth)
  | list {sizes : List UInt64} {body : List Char}
      (h : Series (IsElement DenotesSize) true sizes body) (hone : sizes.length ≤ 1) :
      DenotesOptions ('[' :: (body ++ [']'])) (optionsOf sizes.head?)

/-- Options are written as a value, an object or a list. -/
theorem DenotesOptions.isValue {v : List Char} {o : ScannerOptions} (h : DenotesOptions v o) :
    IsValue v := by
  cases h with
  | object h _ => exact h.isValue
  | list h _ => exact h.isValue (b := .list) fun _ _ => IsElement.isEntry DenotesSize.isValue

/-- What a member makes of the limit. -/
def TakesOption (depth : Option UInt64) (m : Member) (depth' : Option UInt64) : Prop :=
  if m.1 = ScannerOptions.depthKey then Learns DenotesSize depth m.2 depth' else depth' = depth

/-- The reader of a member takes from it what the member means, and skips those it does not know. -/
theorem means_optionMembers : optionMembers.Means TakesOption where
  sound := by
    intro depth depth' key cs rest h
    unfold optionMembers at h
    simp only at h
    split at h
    · next hkey =>
      obtain ⟨hnone, n, v, answer, hanswer, hn, rfl, rfl⟩ :=
        exists_of_readMember reads_readSize h
      refine ⟨v, answer, hanswer, ?_, rfl⟩
      rw [TakesOption, if_pos hkey]
      exact ⟨hnone, n, hn, rfl⟩
    · next hkey =>
      obtain ⟨rfl, v, answer, hanswer, rfl⟩ := exists_of_skipMember h
      refine ⟨v, answer, hanswer, ?_, rfl⟩
      rw [TakesOption, if_neg hkey]
  complete := by
    intro depth depth' key v answer rest hanswer h hrest
    unfold optionMembers
    unfold TakesOption at h
    simp only
    split at h
    · next hkey =>
      obtain ⟨rfl, n, hn, rfl⟩ := h
      rw [if_pos hkey]
      exact readMember_append reads_readSize hanswer hn hrest
    · next hkey =>
      rw [if_neg hkey, h]
      exact skipMember_append hanswer hrest

/-- All members together tell the limit by the values of its key. -/
theorem gathers_takesOption_iff {depth depth' : Option UInt64} {ms : List Member} :
    Gathers TakesOption depth ms depth' ↔
      Fills DenotesSize depth (valuesOf ScannerOptions.depthKey ms) depth' := by
  induction ms generalizing depth with
  | nil =>
    rw [gathers_nil_iff]
    exact fills_nil_iff.symm
  | cons m ms ih =>
    rw [gathers_cons_iff]
    by_cases hkey : m.1 = ScannerOptions.depthKey
    · simp only [valuesOf_cons_of_eq hkey, fills_cons_iff, ih, TakesOption, hkey, if_true]
    · simp only [valuesOf_cons_of_ne hkey, TakesOption, hkey, if_false, ih, exists_eq_left]

/-- A list of one size or none is read whole, whatever follows it. -/
theorem readOptionList_append {sizes : List UInt64} {body : List Char}
    (h : Series (IsElement DenotesSize) true sizes body) (hone : sizes.length ≤ 1)
    (rest : List Char) :
    readOptionList (body ++ ']' :: rest) = .ok (optionsOf sizes.head?, rest) := by
  cases h with
  | done hb =>
    -- an empty list
    have hnone : nextElement true (body ++ ']' :: rest) = .ok none :=
      nextElement_none_iff.mpr ⟨body, rest, hb, rfl⟩
    have hend : endList (body ++ ']' :: rest) = .ok rest := endList_ok_iff.mpr ⟨body, hb, rfl⟩
    simp only [readOptionList, hnone, hend]
    rfl
  | @first size sizes element tail hsize hs =>
    cases hsize with
    | @mk before v hb hsize =>
      cases hs with
      | done ha =>
        have hread : readSize (v ++ (tail ++ ']' :: rest)) = .ok (size, tail ++ ']' :: rest) :=
          reads_readSize.complete blank_nil hsize (ha.delimits_close .list rest)
        have hend : endList (tail ++ ']' :: rest) = .ok rest := endList_ok_iff.mpr ⟨tail, ha, rfl⟩
        simp only [List.append_assoc, readOptionList, nextElement_first hb hsize.isValue, hread,
          hend]
        rfl
      | more =>
        -- a second size is one too many
        simp at hone

/-- What is read as a list of options is a series with one size at most. -/
theorem exists_of_readOptionList {cs rest : List Char} {o : ScannerOptions}
    (h : readOptionList cs = .ok (o, rest)) :
    ∃ sizes body, Series (IsElement DenotesSize) true sizes body ∧ sizes.length ≤ 1 ∧
      o = optionsOf sizes.head? ∧ cs = body ++ ']' :: rest := by
  unfold readOptionList at h
  split at h
  · cases h
  · split at h
    · cases h
    · next hend =>
      cases h
      obtain ⟨before, hb, rfl⟩ := endList_ok_iff.mp hend
      exact ⟨[], before, .done hb, Nat.zero_le 1, rfl, rfl⟩
  · next element he =>
    split at h
    · cases h
    · next size tail hsize =>
      split at h
      · cases h
      · next hend =>
        cases h
        obtain ⟨after, ha, rfl⟩ := endList_ok_iff.mp hend
        obtain ⟨lead, v, hl, hv, rfl⟩ := reads_readSize.sound hsize
        obtain ⟨before, hb, rfl⟩ := exists_of_nextElement_first he
        exact ⟨[size], _, .first (.mk (hb.append hl) hv) (.done ha), Nat.le_refl 1, rfl, by simp⟩

/-- The reader of options reads the values that denote options, and nothing else. -/
theorem reads_readOptions : Reads readOptions DenotesOptions where
  isValue := DenotesOptions.isValue
  sound := by
    intro cs rest o h
    unfold readOptions at h
    split at h
    · cases h
    · next c tail hcs =>
      obtain ⟨lead, hlead, rfl⟩ := exists_blank_of_skipBlanks hcs
      split at h
      · next hc =>
        subst hc
        obtain ⟨sizes, body, hbody, hone, rfl, rfl⟩ := exists_of_readOptionList h
        exact ⟨lead, _, hlead, .list hbody hone, by simp⟩
      · split at h
        · next hc =>
          subst hc
          split at h
          · cases h
          · next hmembers =>
            cases h
            obtain ⟨ms, body, hbody, hgathers, rfl⟩ :=
              (readMembers_ok_iff means_optionMembers).mp hmembers
            refine ⟨lead, _, hlead, .object ⟨body, hbody, rfl⟩ ?_, by simp⟩
            exact gathers_takesOption_iff.mp hgathers
        · exact absurd h refuseValue_ne_ok
  complete := by
    intro lead v rest o hlead h hrest
    cases h with
    | @object ms _ depth h hdepth =>
      obtain ⟨body, hbody, rfl⟩ := h
      have hread : readMembers optionMembers true none (body ++ '}' :: rest) = .ok (depth, rest) :=
        (readMembers_ok_iff means_optionMembers).mpr
          ⟨ms, body, hbody, gathers_takesOption_iff.mpr hdepth, rfl⟩
      simp only [List.cons_append, List.append_assoc, List.nil_append]
      rw [readOptions, skipBlanks_append_cons hlead rfl]
      simp [hread]
    | list h hone =>
      simp only [List.cons_append, List.append_assoc, List.nil_append]
      rw [readOptions, skipBlanks_append_cons hlead rfl]
      simp [readOptionList_append h hone]

/-! ## Settings -/

/-- What a member makes of the settings. -/
def TakesSetting (d : Draft) (m : Member) (d' : Draft) : Prop :=
  if m.1 = scannerKey then
    Learns DenotesOptions d.scanner m.2 d'.scanner ∧ d'.files = d.files
  else if m.1 = filesKey then
    Learns DenotesFiles d.files m.2 d'.files ∧ d'.scanner = d.scanner
  else d' = d

/-- The reader of a member of the settings takes from it what the member means. -/
theorem means_settingsMembers : settingsMembers.Means TakesSetting where
  sound := by
    intro d d' key cs rest h
    unfold settingsMembers at h
    simp only at h
    split at h
    · next hkey =>
      obtain ⟨hnone, o, v, answer, hanswer, ho, rfl, rfl⟩ :=
        exists_of_readMember reads_readOptions h
      refine ⟨v, answer, hanswer, ?_, rfl⟩
      rw [TakesSetting, if_pos hkey]
      exact ⟨⟨hnone, o, ho, rfl⟩, rfl⟩
    · next hscanner =>
      split at h
      · next hkey =>
        obtain ⟨hnone, f, v, answer, hanswer, hf, rfl, rfl⟩ :=
          exists_of_readMember reads_readFiles h
        refine ⟨v, answer, hanswer, ?_, rfl⟩
        rw [TakesSetting, if_neg hscanner, if_pos hkey]
        exact ⟨⟨hnone, f, hf, rfl⟩, rfl⟩
      · next hfiles =>
        obtain ⟨rfl, v, answer, hanswer, rfl⟩ := exists_of_skipMember h
        refine ⟨v, answer, hanswer, ?_, rfl⟩
        rw [TakesSetting, if_neg hscanner, if_neg hfiles]
  complete := by
    intro d d' key v answer rest hanswer h hrest
    obtain ⟨scanner, files⟩ := d
    obtain ⟨scanner', files'⟩ := d'
    unfold settingsMembers
    unfold TakesSetting at h
    simp only
    split at h
    · next hkey =>
      obtain ⟨⟨rfl, o, ho, rfl⟩, rfl⟩ := h
      rw [if_pos hkey]
      exact readMember_append reads_readOptions hanswer ho hrest
    · next hscanner =>
      rw [if_neg hscanner]
      split at h
      · next hkey =>
        obtain ⟨⟨rfl, f, hf, rfl⟩, rfl⟩ := h
        rw [if_pos hkey]
        exact readMember_append reads_readFiles hanswer hf hrest
      · next hfiles =>
        rw [if_neg hfiles, h]
        exact skipMember_append hanswer hrest

/-- The two keys do not meddle: each part of the settings is told by the values of its own key. -/
theorem gathers_takesSetting_iff {d d' : Draft} {ms : List Member} :
    Gathers TakesSetting d ms d' ↔
      Fills DenotesOptions d.scanner (valuesOf scannerKey ms) d'.scanner ∧
        Fills DenotesFiles d.files (valuesOf filesKey ms) d'.files := by
  induction ms generalizing d with
  | nil =>
    obtain ⟨scanner, files⟩ := d
    obtain ⟨scanner', files'⟩ := d'
    rw [gathers_nil_iff, Draft.mk.injEq]
    exact and_congr fills_nil_iff.symm fills_nil_iff.symm
  | cons m ms ih =>
    have hkeys : scannerKey ≠ filesKey := by decide
    rw [gathers_cons_iff]
    by_cases hscanner : m.1 = scannerKey
    · have hfiles : m.1 ≠ filesKey := by
        rw [hscanner]
        exact hkeys
      simp only [valuesOf_cons_of_eq hscanner, valuesOf_cons_of_ne hfiles, fills_cons_iff, ih,
        TakesSetting, hscanner, if_true]
      -- Only the options are learnt here; what is known of the files stays.
      constructor
      · rintro ⟨s, ⟨hlearns, hkeep⟩, hfill, hfill'⟩
        exact ⟨⟨s.scanner, hlearns, hfill⟩, hkeep ▸ hfill'⟩
      · rintro ⟨⟨known, hlearns, hfill⟩, hfill'⟩
        exact ⟨⟨known, d.files⟩, ⟨hlearns, rfl⟩, hfill, hfill'⟩
    · by_cases hfiles : m.1 = filesKey
      · simp only [valuesOf_cons_of_ne hscanner, valuesOf_cons_of_eq hfiles, fills_cons_iff, ih,
          TakesSetting, hfiles, hkeys.symm, if_false, if_true]
        constructor
        · rintro ⟨s, ⟨hlearns, hkeep⟩, hfill, hfill'⟩
          exact ⟨hkeep ▸ hfill, s.files, hlearns, hfill'⟩
        · rintro ⟨hfill, known, hlearns, hfill'⟩
          exact ⟨⟨d.scanner, known⟩, ⟨hlearns, rfl⟩, hfill, hfill'⟩
      · simp only [valuesOf_cons_of_ne hscanner, valuesOf_cons_of_ne hfiles, TakesSetting, hscanner,
          hfiles, if_false, ih, exists_eq_left]

/-- The settings that the members of an object make. -/
def Says (ms : List Member) (s : Settings) : Prop :=
  ∃ scanner files, Given scannerKey DenotesOptions ms scanner ∧
    Given filesKey DenotesFiles ms files ∧ s = ⟨scanner.getD {}, files.getD none⟩

/-- A text is understood if all of its characters are read. -/
theorem ofText_ok_iff_readAll {text : String} {s : Settings} :
    ofText text = .ok s ↔ readAll text.toList = .ok s := by
  unfold ofText parse
  split
  · next h => rw [h, Except.ok.injEq, Except.ok.injEq]
  · next h => simp [h]

/-- Only blanks may follow the settings. -/
theorem readAll_ok_iff {cs : List Char} {s : Settings} :
    readAll cs = .ok s ↔ ∃ rest, readSettings cs = .ok (s, rest) ∧ Blank rest := by
  constructor
  · intro h
    unfold readAll at h
    split at h
    · cases h
    · next hread =>
      split at h
      · next hrest =>
        cases h
        obtain ⟨after, hafter, rfl⟩ := exists_blank_of_skipBlanks hrest
        exact ⟨_, hread, by simpa using hafter⟩
      · cases h
  · rintro ⟨rest, hread, hrest⟩
    have hend : skipBlanks rest = [] := by
      have h := skipBlanks_append hrest []
      rwa [List.append_nil] at h
    simp only [readAll, hread, hend]

/-- The settings at the front of a text that starts an object are what its members say. -/
theorem readSettings_ok_iff {lead cs rest : List Char} {s : Settings} (hlead : Blank lead) :
    readSettings (lead ++ '{' :: cs) = .ok (s, rest) ↔
      ∃ ms body, Series IsMember true ms body ∧ Says ms s ∧ cs = body ++ '}' :: rest := by
  have hread : readSettings (lead ++ '{' :: cs) = .ok (s, rest) ↔
      ∃ d, readMembers settingsMembers true .empty cs = .ok (d, rest) ∧ d.settings = s := by
    rw [readSettings, skipBlanks_append_cons hlead rfl]
    simp only [if_true, Char.reduceEq, if_false]
    split
    · next h => simp [h]
    · next h =>
      rw [h]
      simp only [Except.ok.injEq, Prod.mk.injEq]
      constructor
      · rintro ⟨rfl, rfl⟩
        exact ⟨_, ⟨rfl, rfl⟩, rfl⟩
      · rintro ⟨d, ⟨rfl, rfl⟩, rfl⟩
        exact ⟨rfl, rfl⟩
  rw [hread]
  simp only [readMembers_ok_iff means_settingsMembers, gathers_takesSetting_iff]
  constructor
  · rintro ⟨d, ⟨ms, body, hbody, ⟨hscanner, hfiles⟩, rfl⟩, rfl⟩
    exact ⟨ms, body, hbody, ⟨d.scanner, d.files, hscanner, hfiles, rfl⟩, rfl⟩
  · rintro ⟨ms, body, hbody, ⟨scanner, files, hscanner, hfiles, rfl⟩, rfl⟩
    exact ⟨⟨scanner, files⟩, ⟨ms, body, hbody, ⟨hscanner, hfiles⟩, rfl⟩, rfl⟩

/-- A text that is understood and starts an object is one, and its members say the settings. -/
theorem exists_holds_of_ofText {text : String} {s : Settings}
    (hobject : (skipBlanks text.toList).head? = some '{') (h : ofText text = .ok s) :
    ∃ ms, Holds ms text ∧ Says ms s := by
  obtain ⟨rest, hread, hrest⟩ := readAll_ok_iff.mp (ofText_ok_iff_readAll.mp h)
  obtain ⟨tail, htail⟩ := List.head?_eq_some_iff.mp hobject
  obtain ⟨lead, hlead, htext⟩ := exists_blank_of_skipBlanks htail
  rw [htext] at hread
  obtain ⟨ms, body, hbody, hsaid, rfl⟩ := (readSettings_ok_iff hlead).mp hread
  exact ⟨ms, ⟨lead, _, rest, hlead, ⟨body, hbody, rfl⟩, hrest, by simp [htext]⟩, hsaid⟩

/-- The settings of an object are what its members say. -/
theorem ofText_ok_iff {ms : List Member} {text : String} (h : Holds ms text) {s : Settings} :
    ofText text = .ok s ↔ Says ms s := by
  obtain ⟨lead, v, after, hlead, ⟨body, hbody, rfl⟩, hafter, htext⟩ := h
  have htext : text.toList = lead ++ '{' :: (body ++ '}' :: after) := by simp [htext]
  rw [ofText_ok_iff_readAll, readAll_ok_iff, htext]
  constructor
  · rintro ⟨rest, hread, -⟩
    obtain ⟨ms', body', hbody', hsaid, heq⟩ := (readSettings_ok_iff hlead).mp hread
    obtain ⟨rfl, -⟩ := hbody.unique (b := .object) (fun _ _ => IsMember.isEntry) IsMember.unique
      hbody' heq
    exact hsaid
  · intro hsaid
    exact ⟨after, (readSettings_ok_iff hlead).mpr ⟨ms, body, hbody, hsaid, rfl⟩, hafter⟩

end Lexis.Settings
