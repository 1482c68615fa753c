import Mathlib.Data.List.Forall2
import Lexis.Proofs.JsonWriting
import Lexis.Proofs.SettingsReading

/-!
# Only known members matter

What an object says of a key does not depend on the order of its members, nor on members with other
keys (`Given.mixes`). So the members of a settings object may be put in another order and mixed with
unknown ones, and so may those of the scanner's options inside (`Varies`), and the settings stay the
same; what no member gives has its default.
-/

namespace Lexis.Settings

open Json

/-! ## Mixed members -/

/-- The members in any order, with others anywhere among them whose keys are not known. -/
def Mixes (known : List String) (ms ms' : List Member) : Prop :=
  ∃ others, (∀ m ∈ others, m.1 ∉ known) ∧ ms'.Perm (ms ++ others)

theorem valuesOf_append (key : String) (ms others : List Member) :
    valuesOf key (ms ++ others) = valuesOf key ms ++ valuesOf key others := by
  rw [valuesOf, List.filter_append, List.map_append]
  rfl

theorem valuesOf_eq_nil {key : String} {ms : List Member} (h : ∀ m ∈ ms, m.1 ≠ key) :
    valuesOf key ms = [] := by
  induction ms with
  | nil => rfl
  | cons m ms ih =>
    obtain ⟨hm, hms⟩ := List.forall_mem_cons.mp h
    rw [valuesOf_cons_of_ne hm]
    exact ih hms

/-- Mixing keeps the values of a known key, up to their order. -/
theorem Mixes.valuesOf {known : List String} {ms ms' : List Member} (h : Mixes known ms ms')
    {key : String} (hkey : key ∈ known) : (valuesOf key ms').Perm (valuesOf key ms) := by
  obtain ⟨others, hothers, hperm⟩ := h
  have hnil : Settings.valuesOf key others = [] := by
    refine valuesOf_eq_nil ?_
    rintro m hm rfl
    exact hothers m hm hkey
  have hvalues : (Settings.valuesOf key ms').Perm (Settings.valuesOf key (ms ++ others)) :=
    (hperm.filter _).map _
  rwa [valuesOf_append, hnil, List.append_nil] at hvalues

/-- The order of values does not matter, for there is one at most. -/
theorem Fills.perm {α : Type} {D : List Char → α → Prop} {known a? : Option α}
    {vs vs' : List (List Char)} (h : Fills D known vs a?) (hperm : vs'.Perm vs) :
    Fills D known vs' a? := by
  cases h with
  | keep =>
    rw [hperm.eq_nil]
    exact .keep
  | fill h =>
    rw [List.perm_singleton.mp hperm]
    exact .fill h

/-- Mixing keeps what is said of a known key. -/
theorem Given.mixes {α : Type} {key : String} {D : List Char → α → Prop} {ms ms' : List Member}
    {a? : Option α} {known : List String} (h : Given key D ms a?) (hkey : key ∈ known)
    (hmixes : Mixes known ms ms') : Given key D ms' a? := h.perm (hmixes.valuesOf hkey)

/-- Nothing is said of a key that no member has. -/
theorem Given.eq_none {α : Type} {key : String} {D : List Char → α → Prop} {ms : List Member}
    {a? : Option α} (h : Given key D ms a?) (hkey : key ∉ ms.map (·.1)) : a? = none := by
  have hnil : valuesOf key ms = [] := by
    refine valuesOf_eq_nil ?_
    rintro m hm rfl
    exact hkey (List.mem_map_of_mem hm)
  rw [Given, hnil] at h
  exact fills_nil_iff.mp h

/-! ## Settings that vary -/

/-- The same member, or the scanner's options with their members mixed. -/
inductive Alike : Member → Member → Prop
  | same (m : Member) : Alike m m
  | scanner {os os' : List Member} {v v' : List Char} (h : IsObject os v) (h' : IsObject os' v')
      (hmixes : Mixes [ScannerOptions.depthKey] os os') : Alike (scannerKey, v) (scannerKey, v')

/-- The members of the settings mixed, and those of the scanner's options inside. -/
def Varies (ms ms' : List Member) : Prop :=
  ∃ alike, List.Forall₂ Alike ms alike ∧ Mixes [scannerKey, filesKey] alike ms'

theorem IsObject.head {ms : List Member} {v : List Char} (h : IsObject ms v) :
    ∃ tail, v = '{' :: tail := by
  obtain ⟨body, -, rfl⟩ := h
  exact ⟨_, rfl⟩

/-- Options in an object are those that its members give. -/
theorem denotesOptions_iff {os : List Member} {v : List Char} (h : IsObject os v)
    {o : ScannerOptions} : DenotesOptions v o ↔
      ∃ depth, Given ScannerOptions.depthKey DenotesSize os depth ∧ o = optionsOf depth := by
  constructor
  · intro hv
    cases hv with
    | @object os' _ depth h' hdepth =>
      obtain rfl := h.unique h'
      exact ⟨depth, hdepth, rfl⟩
    | list _ _ =>
      obtain ⟨tail, htail⟩ := IsObject.head h
      exact absurd (List.cons.inj htail).1 (by decide)
  · rintro ⟨depth, hdepth, rfl⟩
    exact .object h hdepth

/-- Alike members denote the same options. -/
theorem Alike.denotesOptions {m m' : Member} (h : Alike m m') {o : ScannerOptions}
    (hm : DenotesOptions m.2 o) : DenotesOptions m'.2 o := by
  cases h with
  | same => exact hm
  | scanner h h' hmixes =>
    obtain ⟨depth, hdepth, rfl⟩ := (denotesOptions_iff h).mp hm
    exact .object h' (hdepth.mixes List.mem_cons_self hmixes)

theorem Alike.key_eq {m m' : Member} (h : Alike m m') : m'.1 = m.1 := by
  cases h with
  | same => rfl
  | scanner => rfl

/-- Members other than that of the scanner are the same. -/
theorem Alike.eq_of_ne {m m' : Member} (h : Alike m m') (hm : m.1 ≠ scannerKey) : m' = m := by
  cases h with
  | same => rfl
  | scanner => exact absurd rfl hm

/-- Members that are alike give the same options. -/
theorem fills_scanner_of_alike {ms ms' : List Member} (h : List.Forall₂ Alike ms ms')
    {known scanner : Option ScannerOptions}
    (hfills : Fills DenotesOptions known (valuesOf scannerKey ms) scanner) :
    Fills DenotesOptions known (valuesOf scannerKey ms') scanner := by
  induction h generalizing known with
  | nil => exact hfills
  | @cons m m' ms ms' hm _ ih =>
    -- Where the values differ they are options, and give the same limit.
    by_cases hkey : m.1 = scannerKey
    · rw [valuesOf_cons_of_eq hkey, fills_cons_iff] at hfills
      rw [valuesOf_cons_of_eq (hm.key_eq.trans hkey), fills_cons_iff]
      obtain ⟨known', ⟨hnone, o, ho, hknown⟩, hs⟩ := hfills
      exact ⟨known', ⟨hnone, o, hm.denotesOptions ho, hknown⟩, ih hs⟩
    · rw [valuesOf_cons_of_ne hkey] at hfills
      have hkey' : m'.1 ≠ scannerKey := by
        rw [hm.key_eq]
        exact hkey
      rw [valuesOf_cons_of_ne hkey']
      exact ih hfills

/-- Members that are alike have the same values of other keys. -/
theorem valuesOf_of_alike {ms ms' : List Member} (h : List.Forall₂ Alike ms ms') {key : String}
    (hkey : key ≠ scannerKey) : valuesOf key ms' = valuesOf key ms := by
  induction h with
  | nil => rfl
  | @cons m m' ms ms' hm _ ih =>
    by_cases heq : m.1 = key
    · have hsame : m' = m := hm.eq_of_ne (heq ▸ hkey)
      rw [hsame, valuesOf_cons_of_eq heq, valuesOf_cons_of_eq heq, ih]
    · have hne : m'.1 ≠ key := by
        rw [hm.key_eq]
        exact heq
      rw [valuesOf_cons_of_ne heq, valuesOf_cons_of_ne hne, ih]

/-- Members that vary say the same settings. -/
theorem Says.varies {ms ms' : List Member} {s : Settings} (h : Says ms s)
    (hvaries : Varies ms ms') : Says ms' s := by
  obtain ⟨scanner, files, hscanner, hfiles, rfl⟩ := h
  obtain ⟨alike, halike, hmixes⟩ := hvaries
  have hne : filesKey ≠ scannerKey := by decide
  have hscanner' : Given scannerKey DenotesOptions alike scanner :=
    fills_scanner_of_alike halike hscanner
  have hfiles' : Given filesKey DenotesFiles alike files := by
    rw [Given, valuesOf_of_alike halike hne]
    exact hfiles
  exact ⟨scanner, files, hscanner'.mixes (by simp) hmixes, hfiles'.mixes (by simp) hmixes, rfl⟩

/-! ## Defaults -/

/-- Every field that no member gives has its default. -/
structure Defaults (ms : List Member) (s : Settings) : Prop where
  scanner : scannerKey ∉ ms.map (·.1) → s.scanner = {}
  files : filesKey ∉ ms.map (·.1) → s.files = none
  depth : ∀ {v : List Char} {os : List Member}, (scannerKey, v) ∈ ms → IsObject os v →
    ScannerOptions.depthKey ∉ os.map (·.1) →
    s.scanner.maxInterpolationDepth = ({} : ScannerOptions).maxInterpolationDepth

theorem mem_valuesOf {key : String} {v : List Char} {ms : List Member} :
    v ∈ valuesOf key ms ↔ (key, v) ∈ ms := by
  simp [valuesOf]

/-- What is not said has its default. -/
theorem Says.defaults {ms : List Member} {s : Settings} (h : Says ms s) : Defaults ms s := by
  obtain ⟨scanner, files, hscanner, hfiles, rfl⟩ := h
  refine ⟨?_, ?_, ?_⟩
  · intro hkey
    rw [hscanner.eq_none hkey]
    rfl
  · intro hkey
    rw [hfiles.eq_none hkey]
    rfl
  · intro v os hmem hobject hkey
    -- The options stand once among the members, so they are the object in question.
    have hv := mem_valuesOf.mpr hmem
    unfold Given at hscanner
    generalize valuesOf scannerKey ms = vs at hscanner hv
    cases hscanner with
    | keep => exact absurd hv List.not_mem_nil
    | fill ho =>
      rw [List.mem_singleton] at hv
      subst hv
      obtain ⟨depth, hdepth, rfl⟩ := (denotesOptions_iff hobject).mp ho
      rw [hdepth.eq_none hkey]
      rfl

/-! ## Only known members matter -/

/-- The first character that is no blank opens an object. -/
def OpensObject (text : String) : Prop := (skipBlanks text.toList).head? = some '{'

/-- **Settings that an object gives stay the same however its members and those of the scanner's
options are ordered and mixed with unknown ones; what no member gives has its default.** -/
theorem ofText_of_varies {text : String} {s : Settings} (hobject : OpensObject text)
    (hok : ofText text = .ok s) :
    (∃ ms, Holds ms text) ∧ ∀ ms, Holds ms text → Defaults ms s ∧
      ∀ ms' text', Varies ms ms' → Holds ms' text' → ofText text' = .ok s := by
  constructor
  · obtain ⟨ms, hholds, -⟩ := exists_holds_of_ofText hobject hok
    exact ⟨ms, hholds⟩
  · intro ms hholds
    have hsaid : Says ms s := (ofText_ok_iff hholds).mp hok
    refine ⟨hsaid.defaults, ?_⟩
    intro ms' text' hvaries hholds'
    exact (ofText_ok_iff hholds').mpr (hsaid.varies hvaries)

/-- The files are put first, and a list of a number beyond all bounds and of half a surrogate pair
is added, as is an empty object among the options. -/
theorem ofText_of_varies_reordered :
    OpensObject r#"{"scanner":{"maxInterpolationDepth":7},"files":[]}"# ∧
      ofText r#"{"scanner":{"maxInterpolationDepth":7},"files":[]}"# = .ok ⟨⟨7⟩, some []⟩ ∧
      ofText (r#"{"files":[],"more":[1e999,"\ud800"],"scanner":"# ++
        r#"{"maxDepth":{},"maxInterpolationDepth":7}}"#) = .ok ⟨⟨7⟩, some []⟩ := by
  have hopens : OpensObject r#"{"scanner":{"maxInterpolationDepth":7},"files":[]}"# := rfl
  have hok : ofText r#"{"scanner":{"maxInterpolationDepth":7},"files":[]}"#
      = .ok ⟨⟨7⟩, some []⟩ := by decide +kernel
  have hdepth : IsObject [(ScannerOptions.depthKey, ['7'])]
      (writeObject [(ScannerOptions.depthKey, ['7'])]) :=
    isObject_writeObject (by decide +kernel)
  have hdepth' : IsObject [("maxDepth", ['{', '}']), (ScannerOptions.depthKey, ['7'])]
      (writeObject [("maxDepth", ['{', '}']), (ScannerOptions.depthKey, ['7'])]) :=
    isObject_writeObject (by decide +kernel)
  have hvaries : Varies
      [(scannerKey, writeObject [(ScannerOptions.depthKey, ['7'])]), (filesKey, ['[', ']'])]
      [(filesKey, ['[', ']']), ("more", "[1e999,\"\\ud800\"]".toList), (scannerKey,
        writeObject [("maxDepth", ['{', '}']), (ScannerOptions.depthKey, ['7'])])] := by
    have hmixes : Mixes [ScannerOptions.depthKey] [(ScannerOptions.depthKey, ['7'])]
        [("maxDepth", ['{', '}']), (ScannerOptions.depthKey, ['7'])] :=
      ⟨[("maxDepth", ['{', '}'])], by decide, by decide⟩
    exact ⟨_, .cons (.scanner hdepth hdepth' hmixes) (.cons (.same _) .nil),
      [("more", "[1e999,\"\\ud800\"]".toList)], by decide, by decide +kernel⟩
  refine ⟨hopens, hok, ((ofText_of_varies hopens hok).2 _ ?_).2 _ _ hvaries ?_⟩
  · exact holds_of_writeObject (by decide +kernel) (by decide +kernel)
  · exact holds_of_writeObject (by decide +kernel) (by decide +kernel)

end Lexis.Settings
