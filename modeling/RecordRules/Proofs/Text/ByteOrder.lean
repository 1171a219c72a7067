import Mathlib.Algebra.Group.Nat.Defs
import Mathlib.Data.List.Lex
import Mathlib.Tactic.SplitIfs
import RecordRules.Text

/-!
# Bytes and code points order texts alike

Texts are compared by their UTF-8 bytes, and the outcome is the lexicographic order of their
code points:

    byteOrder s t = .lt  ↔  List.Lex (· < ·) (codePoints s) (codePoints t)   (byteOrder_eq_lt_iff)
    byteOrder s t = .eq  ↔  codePoints s = codePoints t                      (byteOrder_eq_eq_iff)
    byteOrder s t = .gt  ↔  List.Lex (· < ·) (codePoints t) (codePoints s)   (byteOrder_eq_gt_iff)

The bytes of a character are a first byte, which grows with the number of bytes that follow,
and then the digits of the code point in base 64, the highest first.  So of two characters the
one with the greater code point has the greater byte at the first place where their bytes
differ, whatever comes after them (`lex_utf8EncodeChar`).
-/

namespace RecordRules.Text

/-- The code points of a text. -/
def codePoints (s : String) : List ℕ := s.toList.map Char.toNat

/-- The bytes are those of the standard encoding. -/
theorem toUTF8_eq_utf8 (s : String) : s.toUTF8.data.toList = utf8 s := by
  have hs : s.toUTF8 = s.toList.utf8Encode := by
    rw [String.toUTF8_eq_toByteArray, ← String.toByteArray_ofList, String.ofList_toList]
  rw [hs, List.utf8Encode, List.toList_data_toByteArray, utf8]

/-! ## One character -/

theorem toNat_lt_limit (c : Char) : c.toNat < 0x110000 := by
  have hvalid : c.toNat < 0xd800 ∨ 0xdfff < c.toNat ∧ c.toNat < 0x110000 := c.valid
  omega

/-- The number of bytes after the first one. -/
def following (n : ℕ) : ℕ :=
  if n ≤ 0x7f then 0 else if n ≤ 0x7ff then 1 else if n ≤ 0xffff then 2 else 3

/-- The least first byte before so many others. -/
def firstMark : ℕ → ℕ
  | 0 => 0
  | 1 => 0xc0
  | 2 => 0xe0
  | _ => 0xf0

/-- The first byte, as a number. -/
def firstByte (n : ℕ) : ℕ := firstMark (following n) + n / 64 ^ following n

/-- The bytes for the last `k` digits in base 64. -/
def digitBytes (n : ℕ) : ℕ → List UInt8
  | 0 => []
  | k + 1 => UInt8.ofNat (n / 64 ^ k % 64 + 0x80) :: digitBytes n k

theorem utf8EncodeChar_eq (c : Char) :
    String.utf8EncodeChar c =
      UInt8.ofNat (firstByte c.toNat) :: digitBytes c.toNat (following c.toNat) := by
  have hlimit := toNat_lt_limit c
  obtain ⟨n, hn⟩ : ∃ n, c.toNat = n := ⟨_, rfl⟩
  have hval : c.val.toNat = n := hn
  rw [hn] at hlimit ⊢
  simp only [String.utf8EncodeChar, hval, firstByte, following]
  split_ifs
  · simp [firstMark, digitBytes]
  · have hfirst : n / 64 % 32 + 192 = 192 + n / 64 := by omega
    simp [firstMark, digitBytes, hfirst]
  · have hfirst : n / 4096 % 16 + 224 = 224 + n / 4096 := by omega
    simp [firstMark, digitBytes, hfirst]
  · have hfirst : n / 262144 % 8 + 240 = 240 + n / 262144 := by omega
    simp [firstMark, digitBytes, hfirst]

/-- The first byte is a byte. -/
theorem firstByte_lt {n : ℕ} (hn : n < 0x110000) : firstByte n < 256 := by
  unfold firstByte following
  split_ifs <;> simp only [firstMark] <;> omega

/-- Of two code points the greater has the greater first byte, or as many bytes and the same
digits before those that follow. -/
theorem firstByte_lt_or_eq {n m : ℕ} (hnm : n < m) (hm : m < 0x110000) :
    firstByte n < firstByte m ∨
      following n = following m ∧ n / 64 ^ following n = m / 64 ^ following n := by
  unfold firstByte following
  split_ifs <;> simp only [firstMark, true_and] <;> omega

/-- With the digits before them the same, the bytes of the last digits are in the order of the
numbers.  By induction on their number: the first of them that differ decide. -/
theorem lex_digitBytes {n m : ℕ} (hnm : n < m) {k : ℕ} (hbefore : n / 64 ^ k = m / 64 ^ k)
    (bs bs' : List UInt8) :
    List.Lex (· < ·) (digitBytes n k ++ bs) (digitBytes m k ++ bs') := by
  induction k with
  | zero =>
    rw [Nat.pow_zero, Nat.div_one, Nat.div_one] at hbefore
    omega
  | succ k ih =>
    rw [Nat.pow_succ, ← Nat.div_div_eq_div_mul, ← Nat.div_div_eq_div_mul] at hbefore
    have hle : n / 64 ^ k ≤ m / 64 ^ k := Nat.div_le_div_right hnm.le
    rw [digitBytes, digitBytes, List.cons_append, List.cons_append, List.cons_lex_cons_iff]
    rcases hle.lt_or_eq with hlt | heq
    · left
      rw [UInt8.lt_iff_toNat_lt, UInt8.toNat_ofNat', UInt8.toNat_ofNat']
      omega
    · right
      rw [heq]
      exact ⟨rfl, ih heq⟩

/-- The bytes of two characters are in the order of their code points, whatever follows. -/
theorem lex_utf8EncodeChar {c d : Char} (h : c.toNat < d.toNat) (bs bs' : List UInt8) :
    List.Lex (· < ·) (String.utf8EncodeChar c ++ bs) (String.utf8EncodeChar d ++ bs') := by
  have hd := firstByte_lt (toNat_lt_limit d)
  rw [utf8EncodeChar_eq, utf8EncodeChar_eq, List.cons_append, List.cons_append,
    List.cons_lex_cons_iff]
  rcases firstByte_lt_or_eq h (toNat_lt_limit d) with hlt | ⟨hfollowing, hdigits⟩
  · left
    rw [UInt8.lt_iff_toNat_lt, UInt8.toNat_ofNat', UInt8.toNat_ofNat']
    omega
  · right
    constructor
    · rw [firstByte, firstByte, ← hfollowing, hdigits]
    · rw [← hfollowing]
      exact lex_digitBytes h hdigits bs bs'

/-! ## Texts -/

/-- Characters in lexicographic order have their bytes in lexicographic order. -/
theorem lex_flatMap_of_lex {cs ds : List Char}
    (h : List.Lex (· < ·) (cs.map Char.toNat) (ds.map Char.toNat)) :
    List.Lex (· < ·) (cs.flatMap String.utf8EncodeChar) (ds.flatMap String.utf8EncodeChar) := by
  induction cs generalizing ds with
  | nil =>
    cases ds with
    | nil => cases h
    | cons d ds =>
      rw [List.flatMap_nil, List.flatMap_cons, utf8EncodeChar_eq]
      exact .nil
  | cons c cs ih =>
    cases ds with
    | nil => cases h
    | cons d ds =>
      rw [List.flatMap_cons, List.flatMap_cons]
      rw [List.map_cons, List.map_cons, List.cons_lex_cons_iff] at h
      rcases h with hlt | ⟨heq, hlex⟩
      · exact lex_utf8EncodeChar hlt _ _
      · obtain rfl : c = d := Char.toNat_inj.1 heq
        exact (ih hlex).append_left _ _

theorem codePoints_injective : Function.Injective codePoints := by
  intro s t h
  have hchar : Function.Injective Char.toNat := fun c d => Char.toNat_inj.1
  exact String.toList_inj.1 (List.map_injective_iff.2 hchar h)

/-- The bytes of two texts are in the order of their code points. -/
theorem lex_utf8_iff {s t : String} :
    List.Lex (· < ·) (utf8 s) (utf8 t) ↔ List.Lex (· < ·) (codePoints s) (codePoints t) := by
  refine ⟨fun h => ?_, lex_flatMap_of_lex⟩
  -- were the code points equal or in the other order, so would be the bytes
  rcases trichotomous_of (List.Lex (· < ·)) (codePoints s) (codePoints t) with hlt | heq | hgt
  · exact hlt
  · rw [codePoints_injective heq] at h
    exact absurd h (irrefl _)
  · exact absurd (lex_flatMap_of_lex hgt) (asymm h)

/-! ## The order of texts -/

theorem compare_bytes_eq_lt_iff {xs ys : List UInt8} :
    compare xs ys = .lt ↔ List.Lex (· < ·) xs ys := by
  induction xs generalizing ys with
  | nil =>
    cases ys with
    | nil => simp
    | cons y ys => simp
  | cons x xs ih =>
    cases ys with
    | nil => simp
    | cons y ys =>
      rw [List.compare_cons_cons, Ordering.then_eq_lt, List.cons_lex_cons_iff, ih,
        Std.compare_eq_lt, Std.LawfulEqOrd.compare_eq_iff_eq]

theorem compare_bytes_eq_gt_iff {xs ys : List UInt8} :
    compare xs ys = .gt ↔ List.Lex (· < ·) ys xs := by
  rw [Std.OrientedCmp.gt_iff_lt, compare_bytes_eq_lt_iff]

theorem byteOrder_eq_lt_iff {s t : String} :
    byteOrder s t = .lt ↔ List.Lex (· < ·) (codePoints s) (codePoints t) := by
  rw [byteOrder, compare_bytes_eq_lt_iff, lex_utf8_iff]

theorem byteOrder_eq_gt_iff {s t : String} :
    byteOrder s t = .gt ↔ List.Lex (· < ·) (codePoints t) (codePoints s) := by
  rw [byteOrder, compare_bytes_eq_gt_iff, lex_utf8_iff]

theorem byteOrder_eq_eq_iff {s t : String} :
    byteOrder s t = .eq ↔ codePoints s = codePoints t := by
  constructor
  · intro h
    have hlt : byteOrder s t ≠ .lt := by simp [h]
    have hgt : byteOrder s t ≠ .gt := by simp [h]
    rw [Ne, byteOrder_eq_lt_iff] at hlt
    rw [Ne, byteOrder_eq_gt_iff] at hgt
    exact Std.Trichotomous.trichotomous _ _ hlt hgt
  · intro h
    rw [codePoints_injective h, byteOrder, Std.LawfulEqOrd.compare_eq_iff_eq]

end RecordRules.Text
