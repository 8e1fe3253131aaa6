import LoxLang.Text.Utf8

/-! A newline is a byte of its own wherever it stands: no longer sequence contains it, so the bytes before
it and the bytes after it are read apart, also when a sequence is cut short there. -/
namespace LoxLang.Text

theorem sequence?_newline (rest : List UInt8) : sequence? 10 rest = some ('\n', 0) := by
  simp [sequence?, leadByte?]

/-- A newline after the bytes does not change what is read first. -/
theorem sequence?_seam (b : UInt8) (first second : List UInt8) :
    sequence? b (first ++ 10 :: second) = sequence? b first := by
  unfold sequence?
  cases lead : leadByte? b.toNat with
  | none => rfl
  | some found =>
    obtain ⟨count, bits, least⟩ := found
    simp only [Option.bind_eq_bind, Option.bind_some]
    by_cases enough : count ≤ first.length
    · rw [List.take_append_of_le_length enough]
    · have short : (first.take count).length ≠ count := by
        rw [List.length_take]
        omega
      have inside : (10 : UInt8) ∈ (first ++ 10 :: second).take count := by
        have place : (first ++ 10 :: second)[first.length]? = some 10 := by simp
        exact List.mem_of_getElem? ((List.getElem?_take_of_lt (Nat.lt_of_not_le enough)).trans place)
      have broken : ((first ++ 10 :: second).take count).all isContinuation = false :=
        List.all_eq_false.mpr ⟨10, inside, by decide⟩
      rw [if_neg (by simp [broken]), if_neg fun valid => short valid.1]

theorem sequence?_count (found : sequence? b rest = some (c, count)) : count ≤ rest.length := by
  unfold sequence? at found
  cases lead : leadByte? b.toNat with
  | none => simp [lead] at found
  | some values =>
    obtain ⟨expected, bits, least⟩ := values
    simp only [lead, Option.bind_eq_bind, Option.bind_some] at found
    split at found
    · rename_i valid
      obtain ⟨_, rfl⟩ := Prod.mk.inj (Option.some.inj found)
      have taken := valid.1
      rw [List.length_take] at taken
      omega
    · contradiction

/-- A line feed is never part of a longer sequence, not even of a broken one. -/
theorem decodeUtf8_seam (first second : List UInt8) :
    decodeUtf8 (first ++ 10 :: second) = decodeUtf8 first ++ '\n' :: decodeUtf8 second := by
  fun_induction decodeUtf8 first with
  | case1 =>
    rw [List.nil_append, decodeUtf8, sequence?_newline]
    rfl
  | case2 b rest c count found ih =>
    have enough := sequence?_count found
    rw [List.cons_append, decodeUtf8, sequence?_seam, found]
    simp only
    rw [List.drop_append_of_le_length enough, ih, List.cons_append]
  | case3 b rest none ih =>
    rw [List.cons_append, decodeUtf8, sequence?_seam, none]
    simp only
    rw [ih, List.cons_append]

end LoxLang.Text
