import Lexis.Json.Container
import Lexis.Settings

/-!
# Reading settings

Settings are read from JSON in one pass: what is wrong first in the text is what is reported. An
object gives its members in any order, keys nobody knows are skipped, a known key may stand only
once, and a missing one takes its default. In place of an object a list gives the same values in
their fixed order, and may break off early.
-/

namespace Lexis.Settings

open Json

/-! ## Values -/

/-- Takes a number as the nesting limit: a whole number of 64 bits. -/
def sizeOf : Number → List Char → Reading UInt64
  | .whole n, rest => .ok (UInt64.ofNat n, rest)
  | .negated n, rest => refuseBefore (.wrongValue (Number.negated n).met .size) rest
  | .float negative x, rest => refuseMet (.float negative x) .size rest

/-- Reads a nesting limit. -/
def readSize (cs : List Char) : Reading UInt64 :=
  match skipBlanks cs with
  | [] => refuseBefore .eofInValue []
  | c :: rest =>
    if c = '-' || isDigit c then
      match readNumber (c = '-') (if c = '-' then rest else c :: rest) with
      | .error r => .error r
      | .ok (n, rest) => sizeOf n rest
    else refuseValue .size (c :: rest)

/-- Reads the name of a file. -/
def readName (cs : List Char) : Reading String :=
  match skipBlanks cs with
  | [] => refuseBefore .eofInValue []
  | c :: rest =>
    if c = '"' then
      match readString rest with
      | .error r => .error r
      | .ok (name, rest) => .ok (String.ofList name, rest)
    else refuseValue .string (c :: rest)

/-- A limit is settled without reading on. -/
theorem length_of_sizeOf {n : Number} {cs rest : List Char} {size : UInt64}
    (h : sizeOf n cs = .ok (size, rest)) : rest = cs := by
  unfold sizeOf at h
  split at h
  · simp_all
  · simp [refuseBefore] at h
  · simp [refuseMet, refuseBefore] at h

/-- A value of the wrong sort is never read. -/
theorem refuseValue_ne_ok {α : Type} {wanted : Wanted} {cs : List Char} {a : α} :
    refuseValue wanted cs ≠ .ok a := by
  unfold refuseValue refuseWord refuseNumber refuseString refuseMet refuseUpon refuseBefore
  repeat' split
  all_goals simp

theorem length_of_readSize {cs rest : List Char} {size : UInt64}
    (h : readSize cs = .ok (size, rest)) : rest.length < cs.length := by
  have hb := length_skipBlanks cs
  unfold readSize at h
  split at h
  · simp [refuseBefore] at h
  · next hc =>
    rw [hc, List.length_cons] at hb
    split at h
    · split at h
      · simp at h
      · next hn =>
        have := length_of_readNumber hn
        rw [length_of_sizeOf h]
        split at this
        · omega
        · simp only [List.length_cons] at this
          omega
    · exact absurd h refuseValue_ne_ok

theorem length_of_readName {cs rest : List Char} {name : String}
    (h : readName cs = .ok (name, rest)) : rest.length < cs.length := by
  have hb := length_skipBlanks cs
  unfold readName at h
  split at h
  · simp [refuseBefore] at h
  · next hc =>
    rw [hc, List.length_cons] at hb
    split at h
    · split at h
      · simp at h
      · next hs =>
        have := length_of_readString hs
        simp_all
        omega
    · exact absurd h refuseValue_ne_ok

/-- Reads the names in a list, up to its closing bracket, which stays ahead. -/
def readNames (first : Bool) (cs : List Char) : Reading (List String) :=
  match _he : nextElement first cs with
  | .error r => .error r
  | .ok none => .ok ([], cs)
  | .ok (some element) =>
    match _hn : readName element with
    | .error r => .error r
    | .ok (name, rest) =>
      match readNames false rest with
      | .error r => .error r
      | .ok (names, rest) => .ok (name :: names, rest)
termination_by cs.length
decreasing_by
  have := length_of_nextElement _he
  have := length_of_readName _hn
  omega

/-- There may be no names. -/
theorem length_of_readNames {first : Bool} {cs rest : List Char} {names : List String}
    (h : readNames first cs = .ok (names, rest)) : rest.length ≤ cs.length := by
  fun_induction readNames first cs generalizing names rest with
  | case1 => simp at h
  | case2 => simp_all
  | case3 => simp at h
  | case4 => simp at h
  | case5 _ _ _ he _ _ hn _ _ hr ih =>
    have := length_of_nextElement he
    have := length_of_readName hn
    have := ih hr
    simp_all
    omega

/-- Reads the list of files, or the word that says there is none. -/
def readFiles (cs : List Char) : Reading (Option (List String)) :=
  match skipBlanks cs with
  | [] => refuseBefore .eofInValue []
  | c :: rest =>
    if c = 'n' then
      match passWord ['u', 'l', 'l'] rest with
      | .error r => .error r
      | .ok rest => .ok (none, rest)
    else if c = '[' then
      match readNames true rest with
      | .error r => .error r
      | .ok (names, rest) =>
        match endList rest with
        | .error r => .error r
        | .ok rest => .ok (some names, rest)
    else refuseValue .sequence (c :: rest)

theorem length_of_readFiles {cs rest : List Char} {files : Option (List String)}
    (h : readFiles cs = .ok (files, rest)) : rest.length < cs.length := by
  have hb := length_skipBlanks cs
  unfold readFiles at h
  split at h
  · simp [refuseBefore] at h
  · next hc =>
    rw [hc, List.length_cons] at hb
    split at h
    · split at h
      · simp at h
      · next hw =>
        have := length_of_passWord hw
        simp_all
        omega
    · split at h
      · split at h
        · simp at h
        · next hn =>
          have := length_of_readNames hn
          split at h
          · simp at h
          · next he =>
            have := length_of_endList he
            simp_all
            omega
      · exact absurd h refuseValue_ne_ok

/-! ## The scanner's options -/

/-- The members of the scanner's options; the value gathered is the limit, once it is known. -/
def optionMembers : MemberReader (Option UInt64) where
  read depth key cs :=
    if key = ScannerOptions.depthKey then readMember key depth.isSome readSize some cs
    else skipMember depth cs
  length_le h := by
    split at h
    · exact length_of_readMember (fun hv => Nat.le_of_lt (length_of_readSize hv)) h
    · exact length_of_skipMember h

/-- The options with a limit, or with the default. -/
def optionsOf (depth : Option UInt64) : ScannerOptions :=
  ⟨depth.getD ({} : ScannerOptions).maxInterpolationDepth⟩

/-- Reads the scanner's options from a list whose opening bracket has been passed. -/
def readOptionList (cs : List Char) : Reading ScannerOptions :=
  match nextElement true cs with
  | .error r => .error r
  | .ok none =>
    match endList cs with
    | .error r => .error r
    | .ok rest => .ok ({}, rest)
  | .ok (some element) =>
    match readSize element with
    | .error r => .error r
    | .ok (depth, rest) =>
      match endList rest with
      | .error r => .error r
      | .ok rest => .ok (optionsOf (some depth), rest)

/-- Reads the scanner's options. -/
def readOptions (cs : List Char) : Reading ScannerOptions :=
  match skipBlanks cs with
  | [] => refuseBefore .eofInValue []
  | c :: rest =>
    if c = '[' then readOptionList rest
    else if c = '{' then
      match readMembers optionMembers true none rest with
      | .error r => .error r
      | .ok (depth, rest) => .ok (optionsOf depth, rest)
    else refuseValue .scannerOptions (c :: rest)

theorem length_of_readOptionList {cs rest : List Char} {o : ScannerOptions}
    (h : readOptionList cs = .ok (o, rest)) : rest.length ≤ cs.length := by
  unfold readOptionList at h
  split at h
  · simp at h
  · split at h
    · simp at h
    · next he =>
      have := length_of_endList he
      simp_all
      omega
  · next hn =>
    have := length_of_nextElement hn
    split at h
    · simp at h
    · next hs =>
      have := length_of_readSize hs
      split at h
      · simp at h
      · next he =>
        have := length_of_endList he
        simp_all
        omega

/-- Options have brackets, so something is read. -/
theorem length_of_readOptions {cs rest : List Char} {o : ScannerOptions}
    (h : readOptions cs = .ok (o, rest)) : rest.length < cs.length := by
  have hb := length_skipBlanks cs
  unfold readOptions at h
  split at h
  · simp [refuseBefore] at h
  · next hc =>
    rw [hc, List.length_cons] at hb
    split at h
    · have := length_of_readOptionList h
      omega
    · split at h
      · split at h
        · simp at h
        · next hm =>
          have := length_of_readMembers hm
          simp_all
          omega
      · exact absurd h refuseValue_ne_ok

/-! ## The settings -/

/-- The members of a settings object that have been read. -/
structure Draft where
  scanner : Option ScannerOptions
  files : Option (Option (List String))
  deriving DecidableEq, Repr

namespace Draft

def empty : Draft := ⟨none, none⟩

/-- The settings, with the default for what is missing. -/
def settings (d : Draft) : Settings := ⟨d.scanner.getD {}, d.files.getD none⟩

end Draft

/-- The members of the settings. -/
def settingsMembers : MemberReader Draft where
  read d key cs :=
    if key = scannerKey then
      readMember key d.scanner.isSome readOptions (fun o => { d with scanner := some o }) cs
    else if key = filesKey then
      readMember key d.files.isSome readFiles (fun f => { d with files := some f }) cs
    else skipMember d cs
  length_le h := by
    split at h
    · exact length_of_readMember (fun hv => Nat.le_of_lt (length_of_readOptions hv)) h
    · split at h
      · exact length_of_readMember (fun hv => Nat.le_of_lt (length_of_readFiles hv)) h
      · exact length_of_skipMember h

/-- Reads the second value of a settings list, and its end. -/
def readListFiles (scanner : ScannerOptions) (cs : List Char) : Reading Settings :=
  match nextElement false cs with
  | .error r => .error r
  | .ok none =>
    match endList cs with
    | .error r => .error r
    | .ok rest => .ok (⟨scanner, none⟩, rest)
  | .ok (some element) =>
    match readFiles element with
    | .error r => .error r
    | .ok (files, rest) =>
      match endList rest with
      | .error r => .error r
      | .ok rest => .ok (⟨scanner, files⟩, rest)

/-- Reads the settings from a list whose opening bracket has been passed. -/
def readList (cs : List Char) : Reading Settings :=
  match nextElement true cs with
  | .error r => .error r
  | .ok none =>
    match endList cs with
    | .error r => .error r
    | .ok rest => .ok ({}, rest)
  | .ok (some element) =>
    match readOptions element with
    | .error r => .error r
    | .ok (scanner, rest) => readListFiles scanner rest

/-- Reads the settings at the front of a text. -/
def readSettings (cs : List Char) : Reading Settings :=
  match skipBlanks cs with
  | [] => refuseBefore .eofInValue []
  | c :: rest =>
    if c = '[' then readList rest
    else if c = '{' then
      match readMembers settingsMembers true .empty rest with
      | .error r => .error r
      | .ok (draft, rest) => .ok (draft.settings, rest)
    else refuseValue .settings (c :: rest)

/-- Reads settings that are the whole text. -/
def readAll (cs : List Char) : Except Refusal Settings :=
  match readSettings cs with
  | .error r => .error r
  | .ok (s, rest) =>
    match skipBlanks rest with
    | [] => .ok s
    | c :: rest => refuseUpon .trailingCharacters (c :: rest)

/-- The settings that a text holds, or what is wrong with it and where. -/
def parse (text : String) : Except Refusal Settings := readAll text.toList

end Lexis.Settings
