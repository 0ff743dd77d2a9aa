import DesignComponents.Proofs.Number.Layout
import DesignComponents.Proofs.Number.Nearest
import DesignComponents.Proofs.Number.Significant
import DesignComponents.Proofs.Text.Cut

/-!
Texts of numbers, read back: digits with a point, a sign and an exponent say the decimal that they
were written for.
-/

namespace DesignComponents

namespace Numeral

def natural? (cs : List Char) : Option ℕ :=
  if cs ≠ [] ∧ cs.all Char.isDigit then some (Nat.ofDigitChars 10 cs 0) else none

/-- Digits, and perhaps more of them behind a point. -/
def fixed? (cs : List Char) : Option ℚ :=
  match cutFirst? ['.'] cs with
  | none => (natural? cs).map Nat.cast
  | some (whole, places) => do
    let w ← natural? whole
    let p ← natural? places
    pure (w + p / 10 ^ places.length)

def exponent? : List Char → Option ℤ
  | '+' :: cs => (natural? cs).map Nat.cast
  | '-' :: cs => (natural? cs).map fun n : ℕ => -(n : ℤ)
  | _ => none

def unsigned? (cs : List Char) : Option ℚ :=
  match cutFirst? ['e'] cs with
  | none => fixed? cs
  | some (digits, e) => do
    let q ← fixed? digits
    let k ← exponent? e
    pure (q * 10 ^ k)

/-- The number that a text denotes, if it is a numeral. -/
def value? : List Char → Option ℚ
  | '-' :: cs => (unsigned? cs).map (-·)
  | cs => unsigned? cs

structure IsDigits (cs : List Char) : Prop where
  ne_nil : cs ≠ []
  digit : ∀ c ∈ cs, c.isDigit = true

variable {cs ds : List Char}

namespace IsDigits

theorem append (h : IsDigits cs) (hds : ∀ c ∈ ds, c.isDigit = true) : IsDigits (cs ++ ds) where
  ne_nil := List.append_ne_nil_of_left_ne_nil h.ne_nil ds
  digit := List.forall_mem_append.2 ⟨h.digit, hds⟩

theorem cons {c : Char} (hc : c.isDigit = true) (h : ∀ c ∈ cs, c.isDigit = true) :
    IsDigits (c :: cs) where
  ne_nil := List.cons_ne_nil c cs
  digit := List.forall_mem_cons.2 ⟨hc, h⟩

theorem toDigits (n : ℕ) : IsDigits (Nat.toDigits 10 n) where
  ne_nil := Nat.toDigits_ne_nil
  digit _ hc := Nat.isDigit_of_mem_toDigits (by decide) (by decide) hc

theorem notMem (h : IsDigits cs) {c : Char} (hc : c.isDigit = false) : c ∉ cs := by
  intro hmem
  rw [h.digit c hmem] at hc
  cases hc

theorem natural? (h : IsDigits cs) : natural? cs = some (Nat.ofDigitChars 10 cs 0) :=
  if_pos ⟨h.ne_nil, List.all_eq_true.2 h.digit⟩

theorem fixed? (h : IsDigits cs) : fixed? cs = some (Nat.ofDigitChars 10 cs 0 : ℚ) := by
  rw [Numeral.fixed?, cutFirst?_eq_none (h.notMem (by decide)), h.natural?]
  rfl

/-- A point stands for a power of ten. -/
theorem fixed?_point (h : IsDigits cs) (hds : IsDigits ds) : Numeral.fixed? (cs ++ '.' :: ds) =
    some (Nat.ofDigitChars 10 (cs ++ ds) 0 / 10 ^ ds.length : ℚ) := by
  have hcut : cutFirst? ['.'] (cs ++ '.' :: ds) = some (cs, ds) :=
    cutFirst?_append (h.notMem (by decide)) ds
  have hpow : (10 : ℚ) ^ ds.length ≠ 0 := by positivity
  have hsum : Nat.ofDigitChars 10 (cs ++ ds) 0 =
      10 ^ ds.length * Nat.ofDigitChars 10 cs 0 + Nat.ofDigitChars 10 ds 0 := by
    rw [Nat.ofDigitChars_append, Nat.ofDigitChars_eq_ofDigitChars_zero]
  simp only [Numeral.fixed?, hcut, h.natural?, hds.natural?, Option.bind_eq_bind, Option.bind_some]
  rw [hsum, Nat.cast_add, Nat.cast_mul, Nat.cast_pow, Nat.cast_ofNat, add_div,
    mul_div_cancel_left₀ _ hpow]
  rfl

end IsDigits

theorem isDigits_zero : IsDigits ['0'] := .cons (by decide) (List.forall_mem_nil _)

theorem isDigit_of_mem_zeros (n : ℕ) : ∀ c ∈ Layout.zeros n, c.isDigit = true := by
  intro c hc
  rw [List.eq_of_mem_replicate hc]
  decide

/-- So many digits make up no larger number. -/
theorem ofDigitChars_lt (h : ∀ c ∈ ds, c.isDigit = true) :
    Nat.ofDigitChars 10 ds 0 < 10 ^ ds.length := by
  induction ds using List.reverseRecOn with
  | nil => decide
  | append_singleton ds c ih =>
    rw [List.forall_mem_append, List.forall_mem_singleton] at h
    have hless := ih h.1
    have hdigit : c.toNat - '0'.toNat ≤ 9 := by
      have hc := h.2
      simp only [Char.isDigit, Bool.and_eq_true, decide_eq_true_eq] at hc
      have hnine : c.toNat ≤ 57 := UInt32.le_iff_toNat_le.1 hc.2
      change c.toNat - 48 ≤ 9
      omega
    rw [Nat.ofDigitChars_append, Nat.ofDigitChars_cons, Nat.ofDigitChars_nil, List.length_append,
      List.length_singleton, pow_succ]
    omega

theorem digitCount_ofDigitChars_le (h : ∀ c ∈ ds, c.isDigit = true) :
    digitCount (Nat.ofDigitChars 10 ds 0) ≤ ds.length := by
  have hless := ofDigitChars_lt h
  by_cases hzero : Nat.ofDigitChars 10 ds 0 = 0
  · rw [hzero, digitCount_zero]
    exact Nat.zero_le _
  · have hcount := pow_digitCount_le hzero
    have hpow : 10 ^ digitCount (Nat.ofDigitChars 10 ds 0) < 10 ^ (ds.length + 1) := by
      rw [pow_succ]
      omega
    rw [Nat.pow_lt_pow_iff_right (by decide)] at hpow
    omega

theorem ofDigitChars_zeros (n k : ℕ) : Nat.ofDigitChars 10 (Layout.zeros n) k = 10 ^ n * k :=
  Nat.ofDigitChars_replicate_zero

/-- The first digit has the place that the exponent says. -/
theorem fixed?_positional (l : Layout) (h : IsDigits ds) (e : ℤ) :
    fixed? (l.positional ds e) =
      some ((Nat.ofDigitChars 10 ds 0 : ℕ) * (10 : ℚ) ^ (e + 1 - ds.length)) := by
  have hzero := isDigits_zero
  unfold Layout.positional
  split
  case isTrue he =>
    -- zeros between the point and the digits
    obtain ⟨k, rfl⟩ : ∃ k : ℕ, e = -k - 1 := ⟨(-e - 1).toNat, by omega⟩
    have hplaces : IsDigits (Layout.zeros k ++ ds) :=
      ⟨List.append_ne_nil_of_right_ne_nil _ h.ne_nil,
        List.forall_mem_append.2 ⟨isDigit_of_mem_zeros k, h.digit⟩⟩
    have hk : (-(-(k : ℤ) - 1) - 1).toNat = k := by omega
    have hexponent : -(k : ℤ) - 1 + 1 - ds.length = -((k + ds.length : ℕ) : ℤ) := by
      push_cast
      ring
    have htext := hzero.fixed?_point hplaces
    rw [List.singleton_append] at htext
    rw [hk, List.cons_append, List.cons_append, htext, hexponent, zpow_neg, zpow_natCast,
      ← div_eq_mul_inv, Nat.ofDigitChars_append, Nat.ofDigitChars_append, ofDigitChars_zeros]
    simp [Layout.zeros, Nat.ofDigitChars_cons]
  case isFalse he =>
    obtain ⟨w, rfl⟩ : ∃ w : ℕ, e = w := ⟨e.toNat, by omega⟩
    simp only [Int.toNat_natCast]
    split
    case isTrue hle =>
      -- zeros up to the point
      have hwhole := h.append (isDigit_of_mem_zeros (w + 1 - ds.length))
      have hexponent : (w : ℤ) + 1 - ds.length = ((w + 1 - ds.length : ℕ) : ℤ) := by omega
      rw [hexponent, zpow_natCast]
      split
      · rw [hwhole.fixed?_point hzero]
        simp [Nat.ofDigitChars_append, ofDigitChars_zeros, Nat.ofDigitChars_cons]
        ring
      · rw [List.append_nil, hwhole.fixed?, Nat.ofDigitChars_append, ofDigitChars_zeros]
        push_cast
        rw [mul_comm]
    case isFalse hgt =>
      -- the point among the digits
      have hwhole : IsDigits (ds.take (w + 1)) :=
        ⟨by simp [h.ne_nil], fun c hc => h.digit c (List.mem_of_mem_take hc)⟩
      have hplaces : IsDigits (ds.drop (w + 1)) :=
        ⟨by simpa using hgt, fun c hc => h.digit c (List.mem_of_mem_drop hc)⟩
      have hexponent : (w : ℤ) + 1 - ds.length = -((ds.length - (w + 1) : ℕ) : ℤ) := by omega
      rw [hwhole.fixed?_point hplaces, List.take_append_drop, List.length_drop, hexponent, zpow_neg,
        zpow_natCast, div_eq_mul_inv]

/-- An exponent is written with a sign, and with digits that may begin with a zero. -/
theorem exponentText_eq (e : ℤ) : ∃ ds, IsDigits ds ∧ Nat.ofDigitChars 10 ds 0 = e.natAbs ∧
    Layout.exponentText e = 'e' :: (if e < 0 then '-' else '+') :: ds := by
  have hdigits := IsDigits.toDigits e.natAbs
  refine ⟨_, ?_, ?_, rfl⟩ <;>
    simp only [Nat.toString_eq_ofList_toDigits, String.toList_ofList]
  · split
    · exact .cons (by decide) hdigits.digit
    · exact hdigits
  · split
    · rw [Nat.ofDigitChars_cons]
      simp
    · exact Nat.ofDigitChars_ten_toDigits

theorem exponent?_exponentText (e : ℤ) :
    ∃ cs, Layout.exponentText e = 'e' :: cs ∧ exponent? cs = some e := by
  obtain ⟨ds, hdigits, hvalue, htext⟩ := exponentText_eq e
  refine ⟨_, htext, ?_⟩
  split <;>
  · simp only [exponent?, hdigits.natural?, hvalue, Option.map_some, Option.some.injEq]
    omega

theorem unsigned?_of_fixed? {q : ℚ} (he : 'e' ∉ cs) (h : fixed? cs = some q) :
    unsigned? cs = some q := by
  rw [unsigned?, cutFirst?_eq_none he, h]

theorem unsigned?_exponentText {q : ℚ} (he : 'e' ∉ cs) (h : fixed? cs = some q) (e : ℤ) :
    unsigned? (cs ++ Layout.exponentText e) = some (q * 10 ^ e) := by
  obtain ⟨ds, htext, hread⟩ := exponent?_exponentText e
  have hcut : cutFirst? ['e'] (cs ++ 'e' :: ds) = some (cs, ds) := cutFirst?_append he ds
  rw [htext, unsigned?, hcut]
  simp [h, hread]

/-- A text that begins with a digit has no sign. -/
theorem value?_of_unsigned? {c : Char} {q : ℚ} (hc : c.isDigit = true)
    (h : unsigned? (c :: cs) = some q) : value? (c :: cs) = some q := by
  have hsign : c ≠ '-' := by
    rintro rfl
    exact absurd hc (by decide)
  rw [value?]
  · exact h
  · rintro ds heq
    exact hsign (List.cons.inj heq).1

end Numeral

namespace Layout

open Numeral

theorem length_toDigits {n : ℕ} (hn : n ≠ 0) : (Nat.toDigits 10 n).length = digitCount n := by
  fun_induction digitCount n with
  | case1 => exact absurd rfl hn
  | case2 n _ ih =>
    rcases lt_or_ge n 10 with hlt | hge
    · rw [Nat.toDigits_of_lt_base hlt, Nat.div_eq_of_lt hlt, digitCount_zero]
      rfl
    · rw [Nat.toDigits_of_base_le (by decide) hge, List.length_append, ih (by omega)]
      rfl

/-- The first digit of a number is not zero. -/
theorem head?_toDigits {n : ℕ} (hn : n ≠ 0) : (Nat.toDigits 10 n).head? ≠ some '0' := by
  intro hhead
  obtain ⟨ds, hds⟩ := List.head?_eq_some_iff.1 hhead
  have hdigits := (IsDigits.toDigits n).digit
  have hvalue := Nat.ofDigitChars_ten_toDigits (n := n)
  have hcount := length_toDigits hn
  have hless := pow_digitCount_le hn
  rw [hds, Nat.ofDigitChars_cons] at hvalue
  rw [hds] at hdigits hcount
  have hlt := ofDigitChars_lt (List.forall_mem_cons.1 hdigits).2
  rw [← hcount, List.length_cons, pow_succ] at hless
  simp at hvalue
  omega

theorem trim_ne_zero {n : ℕ} (hn : n ≠ 0) : trim n ≠ 0 := by
  fun_induction trim n with
  | case1 n h ih => exact ih (by omega)
  | case2 n h => exact hn

/-- Zeros at the end do not matter behind a point. -/
theorem trim_value {n : ℕ} (hn : n ≠ 0) (e : ℤ) :
    (trim n : ℚ) * 10 ^ (e - digitCount (trim n)) = n * 10 ^ (e - digitCount n) := by
  fun_induction trim n with
  | case1 n h ih =>
    have hsplit : n = n / 10 * 10 := by omega
    have hcount : digitCount n = digitCount (n / 10) + 1 := by
      conv_lhs => rw [digitCount, if_neg hn]
    have hstep : (e - digitCount (n / 10) : ℤ) = e - digitCount n + 1 := by
      rw [hcount]
      push_cast
      ring
    rw [ih (by omega), hstep, zpow_add_one₀ (by norm_num), ← mul_assoc, mul_right_comm]
    congr 1
    exact_mod_cast hsplit.symm
  | case2 n h => rfl

section

variable {ds : List Char}

theorem unsigned?_positional (l : Layout) (h : IsDigits ds) (e : ℤ) :
    unsigned? (l.positional ds e) =
      some ((Nat.ofDigitChars 10 ds 0 : ℕ) * (10 : ℚ) ^ (e + 1 - ds.length)) := by
  have hmark : AdmitsDigits (· ≠ 'e') := .ne (by decide) (by decide)
  have hds : ∀ c ∈ ds, c ≠ 'e' := fun c hc => hmark.digit c (h.digit c hc)
  exact unsigned?_of_fixed? (fun hmem => hmark.positional hds l e 'e' hmem rfl)
    (fixed?_positional l h e)

theorem unsigned?_scientific (h : IsDigits ds) (e : ℤ) :
    unsigned? (scientific ds e) =
      some ((Nat.ofDigitChars 10 ds 0 : ℕ) * (10 : ℚ) ^ (e + 1 - ds.length)) := by
  match ds with
  | [] => exact absurd rfl h.ne_nil
  | [d] =>
    have hread := unsigned?_exponentText (h.notMem (by decide)) h.fixed? e
    rw [List.length_singleton, Nat.cast_one, add_sub_cancel_right]
    exact hread
  | d :: d' :: rest =>
    obtain ⟨hd, hrest⟩ := List.forall_mem_cons.1 h.digit
    have hwhole : IsDigits [d] := .cons hd (List.forall_mem_nil _)
    have hplaces : IsDigits (d' :: rest) := ⟨List.cons_ne_nil _ _, hrest⟩
    have hmark : 'e' ∉ [d] ++ '.' :: d' :: rest := by
      simp only [List.mem_append, List.mem_cons (a := 'e') (b := '.'), not_or]
      exact ⟨hwhole.notMem (by decide), by decide, hplaces.notMem (by decide)⟩
    have hread := unsigned?_exponentText hmark (hwhole.fixed?_point hplaces) e
    have hexponent : e + 1 - ((d :: d' :: rest).length : ℤ) = e - ((d' :: rest).length : ℕ) := by
      rw [List.length_cons (a := d)]
      push_cast
      ring
    rw [hexponent, zpow_sub₀ (by norm_num), zpow_natCast, mul_div_assoc']
    refine hread.trans ?_
    rw [div_mul_eq_mul_div]
    rfl

end

section

variable {x : Decimal}

/-- Digits are written in one of two ways, which say the same number. -/
theorem unsigned?_write (l : Layout) (hx : x.digits ≠ 0) :
    unsigned? (l.write x) = some x.value := by
  have hdigits := IsDigits.toDigits (trim x.digits)
  have hvalue : ((Nat.ofDigitChars 10 (Nat.toDigits 10 (trim x.digits)) 0 : ℕ) : ℚ) *
      10 ^ (x.exponent + 1 - (Nat.toDigits 10 (trim x.digits)).length) = x.value := by
    rw [Nat.ofDigitChars_ten_toDigits, length_toDigits (trim_ne_zero hx), trim_value hx,
      Decimal.value]
  simp only [write, Nat.toString_eq_ofList_toDigits, String.toList_ofList]
  split
  · rw [unsigned?_positional l hdigits, hvalue]
  · rw [unsigned?_scientific hdigits, hvalue]

theorem exists_digit_of_positional (l : Layout) {c : Char} (hc : c.isDigit = true) (ds : List Char)
    (e : ℤ) : ∃ d cs, l.positional (c :: ds) e = d :: cs ∧ d.isDigit = true := by
  unfold positional
  split
  · exact ⟨'0', _, rfl, by decide⟩
  · dsimp only
    split
    · exact ⟨c, _, rfl, hc⟩
    · exact ⟨c, _, rfl, hc⟩

theorem exists_digit_of_write (l : Layout) (x : Decimal) :
    ∃ d cs, l.write x = d :: cs ∧ d.isDigit = true := by
  have hdigits := IsDigits.toDigits (trim x.digits)
  simp only [write, Nat.toString_eq_ofList_toDigits, String.toList_ofList]
  obtain ⟨c, ds, hds⟩ := List.exists_cons_of_ne_nil hdigits.ne_nil
  rw [hds] at hdigits ⊢
  have hc := (List.forall_mem_cons.1 hdigits.digit).1
  split
  · exact exists_digit_of_positional l hc ds _
  · cases ds with
    | nil => exact ⟨c, _, rfl, hc⟩
    | cons d ds => exact ⟨c, _, rfl, hc⟩

end

theorem value?_signed {text : String} {q : ℚ} (negative : Bool)
    (htext : ∃ d cs, text.toList = d :: cs ∧ d.isDigit = true)
    (h : unsigned? text.toList = some q) :
    Numeral.value? (signed negative text).toList = some (Double.signed negative q) := by
  cases negative with
  | false =>
    obtain ⟨d, cs, hd, hdigit⟩ := htext
    rw [hd] at h
    rw [signed, if_neg (by decide), hd]
    exact value?_of_unsigned? hdigit h
  | true =>
    rw [signed, if_pos rfl, String.toList_append]
    change (unsigned? text.toList).map (-·) = _
    rw [h]
    rfl

end Layout

namespace Double

/-- A measure says a nearest decimal of six digits. -/
theorem measureText_nearest {x : Double} {q : ℚ} (h : x.value? = some q) :
    ∃ d, Numeral.value? x.measureText.toList = some d ∧ IsNearest (HasDigits 10 6) q d := by
  obtain ⟨s, m, e, rfl, rfl⟩ := exists_of_value? h
  rw [measureText, Layout.text]
  by_cases hm : m = 0
  · have hzero : HasDigits 10 6 0 := ⟨0, 0, by decide, by simp⟩
    have htext : Layout.measure.positional ['0'] 0 = ['0'] := rfl
    have hread : Numeral.unsigned? ['0'] = some 0 := by
      have hzero := Numeral.isDigits_zero
      have hread := Numeral.unsigned?_of_fixed? (hzero.notMem (by decide)) hzero.fixed?
      simpa [Nat.ofDigitChars_cons] using hread
    have hvalue : signed s (magnitudeValue m e) = 0 := by
      rw [hm, magnitudeValue, Nat.cast_zero, zero_mul]
      cases s <;> simp [signed]
    have hneg : signed s 0 = 0 := by cases s <;> simp [signed]
    rw [if_pos hm, htext, hvalue]
    refine ⟨0, ?_, hzero, by simp⟩
    rw [← hneg]
    exact Layout.value?_signed s ⟨'0', [], String.toList_ofList, by decide⟩
      (by rw [String.toList_ofList, hread])
  · have hn := magnitude_fst_ne_zero hm e
    have hd := (magnitude_snd_pos m e).ne'
    have hdigits : (Decimal.significant 6 (magnitude m e).1 (magnitude m e).2).digits ≠ 0 :=
      (lt_of_lt_of_le (by decide) (Decimal.significant_digits_bounds 5 hn hd).1).ne'
    have hnearest := Decimal.significant_nearest 5 hn hd
    rw [magnitude_div] at hnearest
    rw [if_neg hm]
    refine ⟨signed s (Decimal.significant 6 (magnitude m e).1 (magnitude m e).2).value,
      Layout.value?_signed s ?_ ?_, ?_⟩
    · rw [String.toList_ofList]
      exact Layout.exists_digit_of_write _ _
    · rw [String.toList_ofList]
      exact Layout.unsigned?_write _ hdigits
    · cases s with
      | false => exact hnearest
      | true => exact hnearest.neg fun _ => HasDigits.neg

end Double

end DesignComponents
