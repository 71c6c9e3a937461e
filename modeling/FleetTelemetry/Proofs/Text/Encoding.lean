import FleetTelemetry.Json.Scalar

/-!
# Bytes of texts

The bytes of a text are those of its characters, one after another, and they determine the text.
-/

namespace FleetTelemetry.Text

/-- The UTF-8 bytes of some characters. -/
def encode (s : List Char) : List UInt8 := s.flatMap String.utf8EncodeChar

@[simp] theorem encode_nil : encode [] = [] := rfl

theorem encode_cons (c : Char) (s : List Char) :
    encode (c :: s) = String.utf8EncodeChar c ++ encode s := by
  simp [encode]

theorem encode_append (s t : List Char) : encode (s ++ t) = encode s ++ encode t := by
  simp [encode]

theorem encode_cons_of_lt {c : Char} (h : c.toNat < 0x80) (s : List Char) :
    encode (c :: s) = UInt8.ofNat c.toNat :: encode s := by
  have hle : c.val.toNat ≤ 0x7f := Nat.le_of_lt_succ h
  rw [encode_cons, String.utf8EncodeChar, if_pos hle]
  rfl

theorem le_of_mem_utf8EncodeChar {c : Char} (h : 0x80 ≤ c.toNat) {b : UInt8}
    (hb : b ∈ String.utf8EncodeChar c) : 0x80 ≤ b := by
  have hlt : ¬ c.val.toNat ≤ 0x7f := Nat.not_le.mpr h
  rw [String.utf8EncodeChar, if_neg hlt] at hb
  rw [UInt8.le_iff_toNat_le]
  split at hb
  · simp only [List.mem_cons, List.not_mem_nil, or_false] at hb
    rcases hb with rfl | rfl <;> simp <;> omega
  · split at hb
    · simp only [List.mem_cons, List.not_mem_nil, or_false] at hb
      rcases hb with rfl | rfl | rfl <;> simp <;> omega
    · simp only [List.mem_cons, List.not_mem_nil, or_false] at hb
      rcases hb with rfl | rfl | rfl | rfl <;> simp <;> omega

private theorem toList_loop_eq (bytes : ByteArray) (i : Nat) (r : List UInt8) :
    ByteArray.toList.loop bytes i r = r.reverse ++ bytes.data.toList.drop i := by
  unfold ByteArray.toList.loop
  split
  case isTrue hlt =>
    have hlength : i < bytes.data.toList.length := hlt
    have hget : bytes.get! i = bytes.data.toList[i] := by
      show bytes.data[i]! = bytes.data.toList[i]
      rw [getElem!_pos bytes.data i hlt, Array.getElem_toList]
    rw [toList_loop_eq bytes (i + 1) _, List.reverse_cons, List.append_assoc, hget,
      List.drop_eq_getElem_cons hlength]
    rfl
  case isFalse hlt =>
    have hlength : bytes.data.toList.length ≤ i := Nat.le_of_not_lt hlt
    rw [List.drop_eq_nil_of_le hlength, List.append_nil]
termination_by bytes.size - i

theorem toList_toUTF8_ofList (s : List Char) : (String.ofList s).toUTF8.toList = encode s := by
  rw [ByteArray.toList, toList_loop_eq]
  simp [encode, List.utf8Encode]

private theorem toList_toUTF8 (s : String) : s.toUTF8.toList = encode s.toList := by
  rw [← toList_toUTF8_ofList, String.ofList_toList]

theorem toList_toUTF8_join (texts : List String) :
    (String.join texts).toUTF8.toList = texts.flatMap fun text => text.toUTF8.toList := by
  simp only [toList_toUTF8, encode, String.toList_join, List.flatMap_assoc]

theorem fromUTF8?_toUTF8 (s : String) : String.fromUTF8? s.toUTF8 = some s := by
  have hvalid : s.toUTF8.IsValidUTF8 := s.isValidUTF8
  unfold String.fromUTF8?
  rw [dif_pos hvalid]
  rfl

theorem textOfBytes?_encode (s : String) : Json.textOfBytes? (encode s.toList) = some s := by
  have hbytes : (⟨(encode s.toList).toArray⟩ : ByteArray) = s.toUTF8 := by
    apply ByteArray.ext
    apply Array.toList_inj.mp
    have hdata : s.toUTF8 = s.toList.utf8Encode := by simp
    rw [hdata]
    simp [encode, List.utf8Encode]
  rw [Json.textOfBytes?, hbytes, fromUTF8?_toUTF8]

theorem textOfBytes?_eq_some_iff {bytes : List UInt8} {s : String} :
    Json.textOfBytes? bytes = some s ↔ bytes = encode s.toList := by
  constructor
  · intro h
    simp only [Json.textOfBytes?, String.fromUTF8?, Option.dite_none_right_eq_some,
      Option.some.injEq] at h
    obtain ⟨hvalid, hs⟩ := h
    have hbytes : s.toUTF8 = ⟨bytes.toArray⟩ := by
      rw [← hs]
      rfl
    rw [← toList_toUTF8_ofList, String.ofList_toList, hbytes, ByteArray.toList, toList_loop_eq]
    simp
  · rintro rfl
    exact textOfBytes?_encode s

end FleetTelemetry.Text
