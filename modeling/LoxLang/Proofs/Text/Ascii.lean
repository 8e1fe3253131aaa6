import LoxLang.Text.Utf8

/-! A text of seven-bit characters has a byte for each of them, and the bytes are read as the same text. -/
namespace LoxLang.Text

theorem toList_loop (bytes : ByteArray) (i : Nat) (front : List UInt8) :
    ByteArray.toList.loop bytes i front = front.reverse ++ bytes.data.toList.drop i := by
  fun_induction ByteArray.toList.loop bytes i front with
  | case1 i front inside ih =>
    have bound : i < bytes.data.toList.length := inside
    have byte : bytes.get! i = bytes.data.toList[i] := getElem!_pos bytes.data i inside
    rw [ih, List.drop_eq_getElem_cons bound, byte]
    simp
  | case2 i front outside =>
    have short : bytes.data.toList.length ≤ i := Nat.le_of_not_lt outside
    rw [List.drop_eq_nil_of_le short, List.append_nil]

theorem toList_bytes (bytes : ByteArray) : bytes.toList = bytes.data.toList := by
  simp [ByteArray.toList, toList_loop]

theorem bytes_ascii (ascii : ∀ c ∈ text, c.toNat < 0x80) :
    (String.ofList text).toUTF8.toList = text.map fun c => UInt8.ofNat c.toNat := by
  rw [String.toUTF8, String.toByteArray_ofList, toList_bytes, List.utf8Encode, List.toList_data_toByteArray]
  induction text with
  | nil => rfl
  | cons c text ih =>
    obtain ⟨first, later⟩ := List.forall_mem_cons.mp ascii
    have own : String.utf8EncodeChar c = [UInt8.ofNat c.toNat] := if_pos (Nat.le_of_lt_succ first)
    rw [List.flatMap_cons, own, ih later]
    rfl

theorem sequence?_ascii {c : Char} (ascii : c.toNat < 0x80) (rest : List UInt8) :
    sequence? (UInt8.ofNat c.toNat) rest = some (c, 0) := by
  have code : (UInt8.ofNat c.toNat).toNat = c.toNat := by
    rw [UInt8.toNat_ofNat']
    omega
  have valid : c.toNat.isValidChar := .inl (by omega)
  simp [sequence?, leadByte?, code, ascii, valid]

/-- One byte for each character, so encoding and decoding can be followed character by character. -/
theorem decodeUtf8_ascii (ascii : ∀ c ∈ text, c.toNat < 0x80) :
    decodeUtf8 (String.ofList text).toUTF8.toList = text := by
  rw [bytes_ascii ascii]
  induction text with
  | nil => simp [decodeUtf8]
  | cons c text ih =>
    obtain ⟨first, later⟩ := List.forall_mem_cons.mp ascii
    rw [List.map_cons, decodeUtf8, sequence?_ascii first]
    simp only [List.drop_zero, ih later]

end LoxLang.Text
