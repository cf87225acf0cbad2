import Mathlib.Tactic
import McpRe.Lib.Text

/-!
# ASCII text

Text of characters below 128 is written one byte a character.
-/

namespace Lib.Text

def IsAscii (s : Str) : Prop := ∀ c ∈ s, c.toNat < 128

theorem utf8EncodeChar_of_ascii {c : Char} (h : c.toNat < 128) :
    String.utf8EncodeChar c = [c.toUInt8] := by
  have hsize : c.utf8Size = 1 := by
    rw [Char.utf8Size_eq_one_iff]
    exact UInt32.le_iff_toNat_le.2 (Nat.le_of_lt_succ h)
  exact String.utf8EncodeChar_eq_singleton hsize

theorem utf8_of_ascii {s : Str} (h : IsAscii s) : utf8 s = s.map Char.toUInt8 := by
  induction s with
  | nil => rfl
  | cons c s ih =>
    have htail := ih fun d hd => h d (List.mem_cons_of_mem c hd)
    unfold utf8 at htail ⊢
    rw [List.flatMap_cons, utf8EncodeChar_of_ascii (h c List.mem_cons_self), htail]
    rfl

theorem toNat_toUInt8_of_ascii {c : Char} (h : c.toNat < 128) : c.toUInt8.toNat = c.toNat := by
  change c.toNat % 256 = c.toNat
  exact Nat.mod_eq_of_lt (by omega)

end Lib.Text
