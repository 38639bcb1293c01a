/-!
# Text as bytes

* `Text.byteLength` : the number of bytes of a text's UTF-8 form, which offsets and columns count;
* `Text.bytes` : the bytes themselves. A character below 128 is one of them, and the first byte of
  any other is 128 or above.
-/

namespace MicroFrontends.Text

/-- The number of bytes of a text in UTF-8. -/
def byteLength (cs : List Char) : Nat := cs.foldr (fun c n => c.utf8Size + n) 0

@[simp] theorem byteLength_nil : byteLength [] = 0 := rfl

@[simp] theorem byteLength_cons (c : Char) (cs : List Char) :
    byteLength (c :: cs) = c.utf8Size + byteLength cs := rfl

@[simp] theorem byteLength_append (as bs : List Char) :
    byteLength (as ++ bs) = byteLength as + byteLength bs := by
  induction as with
  | nil => simp
  | cons c as ih => simp [ih, Nat.add_assoc]

theorem utf8ByteSize_ofList (cs : List Char) : (String.ofList cs).utf8ByteSize = byteLength cs := by
  induction cs with
  | nil => rfl
  | cons c cs ih => simp [String.ofList_cons, ih]

theorem byteLength_toList (s : String) : byteLength s.toList = s.utf8ByteSize := by
  rw [← utf8ByteSize_ofList, String.ofList_toList]

/-- The bytes of a text in UTF-8. -/
def bytes (cs : List Char) : List UInt8 := cs.flatMap String.utf8EncodeChar

theorem bytes_cons_of_lt {c : Char} (h : c.toNat < 128) (cs : List Char) :
    bytes (c :: cs) = c.toUInt8 :: bytes cs := by
  have hsize : c.utf8Size = 1 :=
    Char.utf8Size_eq_one_iff.mpr (UInt32.le_iff_toNat_le.mpr (Nat.le_of_lt_succ h))
  rw [bytes, List.flatMap_cons, String.utf8EncodeChar_eq_singleton hsize]
  rfl

/-- The bytes of a character from 128 on begin with `110`, `1110` or `11110` in binary. -/
theorem bytes_cons_of_le {c : Char} (h : 128 ≤ c.toNat) (cs : List Char) :
    ∃ b bs, bytes (c :: cs) = b :: bs ∧ 128 ≤ b := by
  have hhigh {n : Nat} (hn : 128 ≤ n) (hlt : n < 256) : 128 ≤ UInt8.ofNat n := by
    rw [UInt8.le_iff_toNat_le, UInt8.toNat_ofNat_of_lt' hlt]
    exact hn
  have hascii : ¬ c.val.toNat ≤ 127 := Nat.not_le.mpr h
  rw [bytes, List.flatMap_cons, String.utf8EncodeChar]
  simp only [if_neg hascii]
  split
  · exact ⟨_, _, rfl, hhigh (by omega) (by omega)⟩
  · split
    · exact ⟨_, _, rfl, hhigh (by omega) (by omega)⟩
    · exact ⟨_, _, rfl, hhigh (by omega) (by omega)⟩

end MicroFrontends.Text
