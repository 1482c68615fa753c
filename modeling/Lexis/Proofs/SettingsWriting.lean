import Lexis.Proofs.JsonWriting
import Lexis.Proofs.SettingsReading

/-!
# Written settings are read back

Each part of the settings is written as a value of JSON that denotes it: the limit as its digits, a
list of names as a series of strings, no list as the word for none. So what is written is an object
whose members say the settings (`ofText_write`).
-/

namespace Lexis

open Json

/-! ## Options -/

namespace ScannerOptions

/-- The limit is written as its digits. -/
theorem denotesSize_toString (n : UInt64) : Settings.DenotesSize (toString n.toNat).toList n := by
  have hdigits : (toString n.toNat).toList = Nat.toDigits 10 n.toNat := by
    show n.toNat.repr.toList = _
    rw [Nat.repr_eq_ofList_toDigits, String.toList_ofList]
  rw [hdigits]
  exact ⟨isWhole_toDigits n.toNat, decimal_toDigits n.toNat⟩

/-- Options are written as an object with one member. -/
theorem isObject_write (o : ScannerOptions) :
    IsObject [(depthKey, (toString o.maxInterpolationDepth.toNat).toList)] o.write.toList := by
  have htext : o.write.toList =
      writeObject [(depthKey, (toString o.maxInterpolationDepth.toNat).toList)] := by
    simp [ScannerOptions.write, writeObject, writeMember, List.intercalate]
  rw [htext]
  refine isObject_writeObject ?_
  simpa using (denotesSize_toString o.maxInterpolationDepth).isValue

/-- What is written of options denotes them. -/
theorem denotesOptions_write (o : ScannerOptions) : Settings.DenotesOptions o.write.toList o := by
  have hgiven : Settings.Given depthKey Settings.DenotesSize
      [(depthKey, (toString o.maxInterpolationDepth.toNat).toList)]
      (some o.maxInterpolationDepth) := by
    rw [Settings.Given, Settings.valuesOf_cons_self]
    exact .fill (denotesSize_toString o.maxInterpolationDepth)
  exact .object (isObject_write o) hgiven

end ScannerOptions

/-! ## Settings -/

namespace Settings

theorem denotesName_write (name : String) : DenotesName (writeString name).toList name := by
  rw [toList_writeString]
  exact .mk (spells_writeChars name.toList)

/-- A list of names is written as a list that denotes it. -/
theorem denotesFiles_writeList (names : List String) :
    DenotesFiles (writeList names).toList (some names) := by
  have hname : ∀ name ∈ names, IsElement DenotesName name (writeString name).toList :=
    fun name _ => .bare (denotesName_write name)
  have htext : (writeList names).toList =
      '[' :: ([','].intercalate (names.map fun name => (writeString name).toList) ++ [']']) := by
    simp [writeList, String.toList_intercalate, Function.comp_def]
  rw [htext]
  exact .list (series_intercalate hname)

/-- The list of files as it is written, or the word for none. -/
def writeFiles (files : Option (List String)) : String := (files.map writeList).getD "null"

theorem denotesFiles_writeFiles (files : Option (List String)) :
    DenotesFiles (writeFiles files).toList files := by
  cases files with
  | none => exact .none
  | some names => exact denotesFiles_writeList names

/-- The members that are written. -/
def members (s : Settings) : List Member :=
  [(scannerKey, s.scanner.write.toList), (filesKey, (writeFiles s.files).toList)]

/-- The settings are written as an object of two members. -/
theorem holds_write (s : Settings) : Holds s.members s.write := by
  have htext : s.write.toList = writeObject s.members := by
    simp [write, writeFiles, members, writeObject, writeMember, List.intercalate]
  refine holds_of_writeObject htext ?_
  simp only [members, List.forall_mem_cons]
  exact ⟨(ScannerOptions.denotesOptions_write s.scanner).isValue,
    (denotesFiles_writeFiles s.files).isValue, by simp⟩

/-- The members that are written say the settings. -/
theorem says_members (s : Settings) : Says s.members s := by
  have hkeys : scannerKey ≠ filesKey := by decide
  refine ⟨some s.scanner, some s.files, ?_, ?_, rfl⟩
  · rw [members, Given, valuesOf_cons_self, valuesOf_cons_of_ne hkeys.symm]
    exact .fill (ScannerOptions.denotesOptions_write s.scanner)
  · rw [members, Given, valuesOf_cons_of_ne hkeys, valuesOf_cons_self]
    exact .fill (denotesFiles_writeFiles s.files)

/-- **Settings that are written are read back.** -/
theorem ofText_write (s : Settings) : ofText s.write = .ok s :=
  (ofText_ok_iff (holds_write s)).mpr (says_members s)

end Settings

end Lexis
