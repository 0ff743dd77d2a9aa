import DesignComponents.Css.Color
import Mathlib.Data.List.Basic

/-!
Channels of colours in hexadecimal digits.
-/

namespace DesignComponents.Css

def upperHexDigits : List Char := "0123456789ABCDEF".toList

theorem upperHexDigit_mem (n : Nat) : upperHexDigit n ∈ upperHexDigits := by
  rw [upperHexDigit, List.getD_eq_getElem?_getD]
  cases h : "0123456789ABCDEF".toList[n]? with
  | none => decide
  | some c => exact List.mem_of_getElem? h

theorem mem_upperHex (n : Nat) : ∀ c ∈ upperHex n, c ∈ upperHexDigits := by
  fun_induction upperHex n with
  | case1 n => simpa using upperHexDigit_mem n
  | case2 n _ ih =>
    rw [List.forall_mem_append, List.forall_mem_singleton]
    exact ⟨ih, upperHexDigit_mem _⟩

theorem idxOf?_upperHexDigit : ∀ n < 16, upperHexDigits.idxOf? (upperHexDigit n) = some n := by
  decide

/-- A byte has two digits, the first of which may be zero. -/
theorem hexPair_natCast {k : ℕ} (hk : k < 256) :
    hexPair k = [upperHexDigit (k / 16), upperHexDigit (k % 16)] := by
  have hdigit {n : ℕ} (hn : n < 16) : upperHex n = [upperHexDigit n] := by
    rw [upperHex, dif_pos hn]
  rw [hexPair, if_neg (by omega), Int.natAbs_natCast]
  rcases Nat.lt_or_ge k 16 with h | h
  · rw [hdigit h, Nat.div_eq_of_lt h, Nat.mod_eq_of_lt h]
    rfl
  · rw [upperHex, dif_neg (by omega), hdigit (by omega)]
    rfl

end DesignComponents.Css
