set_option autoImplicit false

/-!
# Integers of fixed width

Numbers from a text are integers without bound; instructions and records hold words of 32
bits. A number that does not fit is refused, never cut.

## Main definitions

* `Word.int32?` — the word with a sign that an integer fits in.
* `Word.uint32?` — the word without a sign that an integer fits in.

## Main results

* `Word.int32?_toInt`, `Word.uint32?_toNat` — the number of a word fits and gives the word.
* `Word.toInt_of_int32?`, `Word.toNat_of_uint32?` — a word keeps the number it was made from.
-/

namespace StickerBot.Word

/-- The word with a sign that an integer fits in. -/
def int32? (n : Int) : Option Int32 :=
  if Int32.minValue.toInt ≤ n ∧ n ≤ Int32.maxValue.toInt then some (Int32.ofInt n) else none

/-- The word without a sign that an integer fits in. -/
def uint32? (n : Int) : Option UInt32 :=
  if 0 ≤ n ∧ n < UInt32.size then some (UInt32.ofNat n.toNat) else none

/-- The number of a word with a sign fits and gives the word. -/
@[simp] theorem int32?_toInt (w : Int32) : int32? w.toInt = some w := by
  rw [int32?, if_pos ⟨w.minValue_le_toInt, w.toInt_le⟩, Int32.ofInt_toInt]

/-- The number of a word without a sign fits and gives the word. -/
@[simp] theorem uint32?_toNat (w : UInt32) : uint32? w.toNat = some w := by
  have h : (0 : Int) ≤ w.toNat ∧ (w.toNat : Int) < UInt32.size :=
    ⟨Int.natCast_nonneg _, Int.ofNat_lt.2 w.toNat_lt_size⟩
  rw [uint32?, if_pos h, Int.toNat_natCast, UInt32.ofNat_toNat]

/-- A word with a sign keeps the number it was made from. -/
theorem toInt_of_int32? {n : Int} {w : Int32} (h : int32? n = some w) : w.toInt = n := by
  unfold int32? at h
  split at h
  · rename_i hn
    obtain rfl := Option.some.inj h
    have hlow := Int32.toInt_minValue
    have hhigh := Int32.toInt_maxValue_add_one
    exact Int32.toInt_ofInt_of_le (by omega) (by omega)
  · exact absurd h (by simp)

/-- A word without a sign keeps the number it was made from. -/
theorem toNat_of_uint32? {n : Int} {w : UInt32} (h : uint32? n = some w) :
    (w.toNat : Int) = n := by
  unfold uint32? at h
  split at h
  · rename_i hn
    obtain rfl := Option.some.inj h
    have hlt : n.toNat < UInt32.size := by omega
    rw [UInt32.toNat_ofNat_of_lt' hlt]
    omega
  · exact absurd h (by simp)

end StickerBot.Word
