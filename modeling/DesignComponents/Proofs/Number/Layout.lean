import DesignComponents.Number.Basic
import Mathlib.Data.List.Basic

/-!
What number texts are made of: digits, a point, signs, and the mark of an exponent.
-/

namespace DesignComponents

/-- A class of characters that digits and a point belong to. -/
structure AdmitsDigits (P : Char → Prop) : Prop where
  digit : ∀ c, c.isDigit = true → P c
  point : P '.'

/-- A class of characters that all texts of finite numbers belong to. -/
structure AdmitsNumbers (P : Char → Prop) : Prop extends AdmitsDigits P where
  mark : P 'e'
  plus : P '+'
  minus : P '-'

variable {P : Char → Prop}

namespace AdmitsDigits

theorem ne {c : Char} (hdigit : c.isDigit = false) (hpoint : '.' ≠ c) : AdmitsDigits (· ≠ c) where
  digit d hd := by
    rintro rfl
    rw [hdigit] at hd
    cases hd
  point := hpoint

variable (h : AdmitsDigits P)
include h

theorem digits (n : Nat) : ∀ c ∈ Nat.toDigits 10 n, P c := fun c hc =>
  h.digit c (Nat.isDigit_of_mem_toDigits (by decide) (by decide) hc)

theorem nat (n : Nat) : ∀ c ∈ (toString n).toList, P c := by
  simpa using h.digits n

theorem zeros (n : Nat) : ∀ c ∈ Layout.zeros n, P c := by
  intro c hc
  rw [List.eq_of_mem_replicate hc]
  exact h.digit '0' (by decide)

theorem positional {ds : List Char} (hds : ∀ c ∈ ds, P c) (l : Layout) (e : Int) :
    ∀ c ∈ l.positional ds e, P c := by
  have hzero : P '0' := h.digit '0' (by decide)
  have hpoint := h.point
  have hzeros := h.zeros
  unfold Layout.positional
  split
  case isTrue =>
    simp only [List.cons_append, List.forall_mem_cons, List.forall_mem_append]
    exact ⟨hzero, hpoint, hzeros _, hds⟩
  case isFalse =>
    dsimp only
    split
    · simp only [List.forall_mem_append]
      refine ⟨⟨hds, hzeros _⟩, ?_⟩
      split
      · simp [hpoint, hzero]
      · exact List.forall_mem_nil _
    · simp only [List.forall_mem_append, List.forall_mem_cons]
      exact ⟨fun c hc => hds c (List.mem_of_mem_take hc), hpoint,
        fun c hc => hds c (List.mem_of_mem_drop hc)⟩

end AdmitsDigits

namespace AdmitsNumbers

theorem ne {c : Char} (hdigit : c.isDigit = false) (h : c ∉ ['.', 'e', '+', '-']) :
    AdmitsNumbers (· ≠ c) := by
  simp only [List.mem_cons, not_or] at h
  exact {
    toAdmitsDigits := .ne hdigit (Ne.symm h.1)
    mark := Ne.symm h.2.1
    plus := Ne.symm h.2.2.1
    minus := Ne.symm h.2.2.2.1 }

variable (h : AdmitsNumbers P)
include h

theorem int (n : Int) : ∀ c ∈ (toString n).toList, P c := by
  cases n with
  | ofNat n => exact h.nat n
  | negSucc n =>
    have htext : toString (Int.negSucc n) = "-" ++ toString (n + 1) := rfl
    rw [htext, String.toList_append, List.forall_mem_append]
    exact ⟨List.forall_mem_singleton.2 h.minus, h.nat (n + 1)⟩

theorem exponentText (e : Int) : ∀ c ∈ Layout.exponentText e, P c := by
  have hzero : P '0' := h.digit '0' (by decide)
  have hdigits := h.nat e.natAbs
  unfold Layout.exponentText
  dsimp only
  rw [List.forall_mem_cons, List.forall_mem_cons]
  refine ⟨h.mark, ?_, ?_⟩
  · split
    · exact h.minus
    · exact h.plus
  · split
    · exact List.forall_mem_cons.2 ⟨hzero, hdigits⟩
    · exact hdigits

variable {ds : List Char} (hds : ∀ c ∈ ds, P c)
include hds

theorem scientific (e : Int) : ∀ c ∈ Layout.scientific ds e, P c := by
  have hexponent := h.exponentText e
  unfold Layout.scientific
  split
  case h_1 => exact List.forall_mem_nil _
  case h_2 d => exact List.forall_mem_cons.2 ⟨hds d (.head _), hexponent⟩
  case h_3 d rest _ =>
    rw [List.forall_mem_cons] at hds
    simp only [List.cons_append, List.forall_mem_cons, List.forall_mem_append]
    exact ⟨hds.1, h.point, hds.2, hexponent⟩

omit hds

theorem write (l : Layout) (x : Decimal) : ∀ c ∈ l.write x, P c := by
  have hdigits := h.nat (Layout.trim x.digits)
  unfold Layout.write
  dsimp only
  split
  · exact h.positional hdigits l _
  · exact h.scientific hdigits _

theorem signed (negative : Bool) {text : String} (htext : ∀ c ∈ text.toList, P c) :
    ∀ c ∈ (Layout.signed negative text).toList, P c := by
  cases negative with
  | false => exact htext
  | true =>
    rw [Layout.signed, if_pos rfl, String.toList_append, List.forall_mem_append]
    exact ⟨List.forall_mem_singleton.2 h.minus, htext⟩

/-- Texts of numbers that are not finite have names of their own. -/
theorem text (l : Layout) (hnan : ∀ c ∈ l.nan.toList, P c) (hinf : ∀ c ∈ l.infinity.toList, P c)
    (digits : Nat → Int → Decimal) (x : Double) : ∀ c ∈ (l.text digits x).toList, P c := by
  cases x with
  | nan => exact hnan
  | infinite s => exact h.signed s hinf
  | finite s m e =>
    apply h.signed s
    rw [String.toList_ofList]
    split
    · exact h.positional (List.forall_mem_singleton.2 (h.digit '0' (by decide))) l 0
    · exact h.write l _

end AdmitsNumbers

end DesignComponents
