import Mathlib.Data.Nat.Notation
import Mathlib.Data.String.Basic

/-!
# The byte order of texts

Texts are compared character by character, and a character by its number. Its bytes
are chosen so that this is the order of the bytes as well: of two characters, the
first byte in which they differ tells which is the greater one.

* `Text.encodeChar_lt`: a smaller character makes smaller bytes, whatever follows.
* `Text.lt_iff_bytes`: the order of texts is the order of their bytes.
-/

namespace ChargeLink.Text

/-- The bytes of a text. -/
def bytes (s : String) : List UInt8 :=
  s.toUTF8.data.toList

theorem bytes_eq (s : String) : bytes s = s.toList.flatMap String.utf8EncodeChar := by
  rw [bytes, String.toUTF8, ← String.utf8Encode_toList, List.utf8Encode]
  simp

theorem encodeChar_lt {c d : Char} (h : c < d) (x y : List UInt8) :
    String.utf8EncodeChar c ++ x < String.utf8EncodeChar d ++ y := by
  have less : c.val.toNat < d.val.toNat := h
  have bound : d.val.toNat < 0x110000 := by
    have := d.valid
    simp only [UInt32.isValidChar, Nat.isValidChar] at this
    omega
  unfold String.utf8EncodeChar
  generalize c.val.toNat = m at *
  generalize d.val.toNat = n at *
  -- the bytes are digits of six bits, and the first one tells how many there are
  have second : ∀ k : ℕ, k / 4096 = k / 64 / 64 := fun k => by
    rw [Nat.div_div_eq_div_mul]
  have third : ∀ k : ℕ, k / 262144 = k / 64 / 64 / 64 := fun k => by
    rw [Nat.div_div_eq_div_mul, Nat.div_div_eq_div_mul]
  simp only [second, third]
  repeat' split
  all_goals
    simp only [List.cons_append, List.nil_append, List.cons_lt_cons_iff, UInt8.lt_iff_toNat_lt,
      ← UInt8.toNat_inj, UInt8.toNat_ofNat']
    omega

theorem append_lt_append {a b : List UInt8} (h : a < b) (p : List UInt8) : p ++ a < p ++ b := by
  induction p with
  | nil => exact h
  | cons x p ih => exact List.cons_lt_cons_iff.2 (.inr ⟨rfl, ih⟩)

theorem flatMap_lt {cs ds : List Char} (h : cs < ds) :
    cs.flatMap String.utf8EncodeChar < ds.flatMap String.utf8EncodeChar := by
  induction h with
  | @nil d ds =>
    rw [List.flatMap_cons]
    cases bytes : String.utf8EncodeChar d with
    | nil => exact absurd bytes (String.utf8EncodeChar_ne_nil)
    | cons x r => exact List.nil_lt_cons ..
  | cons _ ih => exact append_lt_append ih _
  | rel h => exact encodeChar_lt h _ _

/-- **The order of texts is the order of their bytes.** -/
theorem lt_iff_bytes (s t : String) : s < t ↔ bytes s < bytes t := by
  have mono : ∀ {s t : String}, s < t → bytes s < bytes t := by
    intro s t h
    rw [bytes_eq, bytes_eq]
    exact flatMap_lt (String.lt_iff_toList_lt.1 h)
  refine ⟨mono, fun h => ?_⟩
  rcases lt_trichotomy s t with less | rfl | greater
  · exact less
  · exact absurd h (List.lt_irrefl _)
  · exact absurd (mono greater) (List.lt_asymm h)

end ChargeLink.Text
