import StatusLine.Store.Cache

/-!
Texts in files. A text is read from its file with its line ends unified, so just a text without
carriage returns is read as it was written.
-/

namespace StatusLine

theorem loop_toList (bytes : ByteArray) (index : Nat) (taken : List UInt8) :
    ByteArray.toList.loop bytes index taken = taken.reverse ++ bytes.data.toList.drop index := by
  fun_induction ByteArray.toList.loop bytes index taken with
  | case1 index taken inside ih =>
      have bound : index < bytes.data.toList.length := by simpa using inside
      have here : bytes.get! index = bytes.data.toList[index] := by
        show bytes.data[index]! = bytes.data.toList[index]
        simp [getElem!_pos bytes.data index (by simpa using bound)]
      rw [ih, here, List.drop_eq_getElem_cons bound]
      simp
  | case2 index taken outside =>
      have beyond : bytes.data.toList.length ≤ index := by
        simpa using outside
      simp [List.drop_eq_nil_of_le beyond]

theorem data_toList (bytes : ByteArray) : bytes.toList = bytes.data.toList := by
  show ByteArray.toList.loop bytes 0 [] = bytes.data.toList
  simpa using loop_toList bytes 0 []

namespace Fingerprint

theorem utf8_eq (text : List Char) : utf8 text = text.flatMap String.utf8EncodeChar := by
  rw [utf8, data_toList]
  show (text.flatMap String.utf8EncodeChar).toByteArray.data.toList = _
  rw [List.data_toByteArray]

end Fingerprint

namespace Text

theorem return_not_mem_unifyLineEnds (text : List Char) : '\r' ∉ unifyLineEnds text := by
  fun_induction unifyLineEnds text with
  | case1 => exact List.not_mem_nil
  | case2 rest ih => simpa using ih
  | case3 c rest _ ih =>
      by_cases isReturn : c = '\r'
      · simpa [isReturn] using ih
      · simpa [isReturn, Ne.symm isReturn] using ih

theorem unifyLineEnds_eq_self_iff (text : List Char) :
    unifyLineEnds text = text ↔ '\r' ∉ text := by
  constructor
  · intro same
    rw [← same]
    exact return_not_mem_unifyLineEnds text
  · exact unifyLineEnds_eq_self text

end Text

namespace Cache

theorem textOfFile_utf8 (text : List Char) :
    textOfFile (Fingerprint.utf8 text) = .ok (Text.unifyLineEnds text) := by
  have bytes : (⟨(Fingerprint.utf8 text).toArray⟩ : ByteArray) = (String.ofList text).toUTF8 := by
    simp [Fingerprint.utf8, data_toList]
  have valid : (String.ofList text).toUTF8.IsValidUTF8 := (String.ofList text).isValidUTF8
  have back : String.fromUTF8? (String.ofList text).toUTF8 = some (String.ofList text) := by
    rw [String.fromUTF8?, dif_pos valid]
    rfl
  rw [textOfFile, bytes, back]
  simp

theorem textOfFile_utf8_of_free {text : List Char} (free : '\r' ∉ text) :
    textOfFile (Fingerprint.utf8 text) = .ok text := by
  rw [textOfFile_utf8, Text.unifyLineEnds_eq_self text free]

end Cache

end StatusLine
