/-! # The order of bytes

Texts are ordered by their characters. Their UTF-8 bytes are in the same order.
-/

namespace ImsProvisioning.Text

def bytes (s : String) : List UInt8 := s.toUTF8.data.toList

theorem bytes_eq (s : String) : bytes s = s.toList.flatMap String.utf8EncodeChar := by
  have h : s.toUTF8 = s.toList.utf8Encode := by
    rw [String.toUTF8_eq_toByteArray, ← String.toByteArray_ofList, String.ofList_toList]
  rw [bytes, h]
  exact List.toList_data_toByteArray

theorem ofNat_lt_ofNat {m n : Nat} (h : m < n) (bound : n < 256) :
    UInt8.ofNat m < UInt8.ofNat n := by
  rw [UInt8.lt_iff_toNat_lt, UInt8.toNat_ofNat', UInt8.toNat_ofNat']
  omega

/-- Bytes in front decide, and where they agree the bytes behind them do. -/
theorem cons_ofNat_lt {m n : Nat} {x y : List UInt8} (le : m ≤ n) (bound : n < 256)
    (h : m = n → x < y) : UInt8.ofNat m :: x < UInt8.ofNat n :: y := by
  rw [List.cons_lt_cons_iff]
  rcases Nat.lt_or_eq_of_le le with lt | eq
  · exact .inl (ofNat_lt_ofNat lt bound)
  · exact .inr ⟨congrArg UInt8.ofNat eq, h eq⟩

/-- The bytes of a lesser character come first, whatever follows. -/
theorem utf8EncodeChar_lt {c d : Char} (h : c < d) (x y : List UInt8) :
    String.utf8EncodeChar c ++ x < String.utf8EncodeChar d ++ y := by
  have lt : c.val.toNat < d.val.toNat := h
  have bound : d.val.toNat < 0x110000 := by
    have valid := d.valid
    simp only [UInt32.isValidChar, Nat.isValidChar] at valid
    omega
  simp only [String.utf8EncodeChar]
  generalize c.val.toNat = m at lt ⊢
  generalize d.val.toNat = n at lt bound ⊢
  -- A longer encoding begins with a greater byte; of one length, the bytes are digits.
  (repeat' split) <;> (try omega) <;>
    (repeat (refine cons_ofNat_lt (by omega) (by omega) fun _ => ?_)) <;> omega

theorem nil_lt_utf8EncodeChar (c : Char) (x : List UInt8) : [] < String.utf8EncodeChar c ++ x := by
  simp only [String.utf8EncodeChar]
  (repeat' split) <;> exact List.nil_lt_cons ..

theorem bytes_lt {s t : String} (h : s < t) : bytes s < bytes t := by
  rw [bytes_eq, bytes_eq]
  have hlist : s.toList < t.toList := String.lt_iff.1 h
  generalize s.toList = cs at hlist
  generalize t.toList = ds at hlist
  induction hlist with
  | nil => exact nil_lt_utf8EncodeChar _ _
  | cons _ ih =>
    rw [List.flatMap_cons, List.flatMap_cons]
    exact List.append_left_lt ih
  | rel lt => exact utf8EncodeChar_lt lt _ _

end ImsProvisioning.Text
