import DesignComponents.Json.Reader
import DesignComponents.Proofs.Number.Numeral
import DesignComponents.Proofs.Number.Shortest

/-!
Numbers read back from the texts that data has of them: whole numbers digit by digit, doubles by the
value of their digits.
-/

namespace DesignComponents

open Numeral (IsDigits)

/-- A numeral in its parts. -/
structure NumberText where
  whole : List Char
  fraction : List Char := []
  exponent : Option ℤ := none

namespace NumberText

def text (t : NumberText) : List Char :=
  t.whole ++ ((if t.fraction = [] then [] else '.' :: t.fraction) ++
    t.exponent.elim [] Layout.exponentText)

def digits (t : NumberText) : ℕ := Nat.ofDigitChars 10 (t.whole ++ t.fraction) 0

/-- The place of the last digit. -/
def place (t : NumberText) : ℤ := t.exponent.getD 0 - t.fraction.length

def value (t : NumberText) : ℚ := t.digits * 10 ^ t.place

/-- The whole part has no zero in front of other digits. -/
structure IsProper (t : NumberText) : Prop where
  whole : IsDigits t.whole
  first : t.whole = ['0'] ∨ t.whole.head? ≠ some '0'
  fraction : ∀ c ∈ t.fraction, c.isDigit = true

/-- Without a point and an exponent it is a whole number. -/
def IsWhole (t : NumberText) : Prop := t.fraction = [] ∧ t.exponent = none

variable {t : NumberText} {ds : List Char} {x : Decimal}

theorem IsProper.unsigned? (h : t.IsProper) : Numeral.unsigned? t.text = some t.value := by
  obtain ⟨whole, fraction, exponent⟩ := t
  obtain ⟨hwhole, -, hfraction⟩ := h
  have hmark : AdmitsDigits (· ≠ 'e') := .ne (by decide) (by decide)
  have hdigits (ds : List Char) (hds : ∀ c ∈ ds, c.isDigit = true) : 'e' ∉ ds := fun hmem =>
    hmark.digit 'e' (hds 'e' hmem) rfl
  obtain ⟨hfixed, hfree⟩ : Numeral.fixed? (whole ++ if fraction = [] then [] else '.' :: fraction) =
      some (Nat.ofDigitChars 10 (whole ++ fraction) 0 / 10 ^ fraction.length : ℚ) ∧
        'e' ∉ whole ++ if fraction = [] then [] else '.' :: fraction := by
    split
    case isTrue hnil =>
      subst hnil
      simp [hwhole.fixed?, hdigits _ hwhole.digit]
    case isFalse hne =>
      have hpoint := hwhole.fixed?_point ⟨hne, hfraction⟩
      exact ⟨hpoint, by simp [hdigits _ hwhole.digit, hdigits _ hfraction]⟩
  rw [text, value, digits, place, ← List.append_assoc]
  cases exponent with
  | none =>
    rw [Option.elim_none, List.append_nil, Numeral.unsigned?_of_fixed? hfree hfixed,
      Option.getD_none, zero_sub, zpow_neg, zpow_natCast, div_eq_mul_inv]
  | some e =>
    rw [Option.elim_some, Numeral.unsigned?_exponentText hfree hfixed, Option.getD_some,
      zpow_sub₀ (by norm_num), zpow_natCast, div_mul_eq_mul_div, mul_div_assoc]

theorem exists_positional (h : IsDigits ds) (hfirst : ds.head? ≠ some '0') (e : ℤ) :
    ∃ t : NumberText, t.IsProper ∧ ¬ t.IsWhole ∧ Layout.data.positional ds e = t.text := by
  have hzero := Numeral.isDigits_zero
  unfold Layout.positional
  split
  case isTrue =>
    -- zeros between the point and the digits
    have hplaces : ∀ c ∈ Layout.zeros (-e - 1).toNat ++ ds, c.isDigit = true :=
      List.forall_mem_append.2 ⟨Numeral.isDigit_of_mem_zeros _, h.digit⟩
    refine ⟨{ whole := ['0'], fraction := Layout.zeros (-e - 1).toNat ++ ds },
      ⟨hzero, .inl rfl, hplaces⟩, ?_, ?_⟩ <;> simp [IsWhole, text, h.ne_nil]
  case isFalse =>
    obtain ⟨d, rest, rfl⟩ := List.exists_cons_of_ne_nil h.ne_nil
    dsimp only
    split
    case isTrue =>
      -- zeros up to the point
      refine ⟨{ whole := d :: rest ++ Layout.zeros (e.toNat + 1 - (d :: rest).length),
                fraction := ['0'] }, ⟨h.append (Numeral.isDigit_of_mem_zeros _), .inr ?_,
        hzero.digit⟩, ?_, ?_⟩ <;> simp_all [IsWhole, text, Layout.data]
    case isFalse hgt =>
      -- the point among the digits
      have hplaces : (d :: rest).drop (e.toNat + 1) ≠ [] := by simpa using hgt
      refine ⟨{ whole := (d :: rest).take (e.toNat + 1),
                fraction := (d :: rest).drop (e.toNat + 1) },
        ⟨⟨by simp, fun c hc => h.digit c (List.mem_of_mem_take hc)⟩, .inr hfirst,
          fun c hc => h.digit c (List.mem_of_mem_drop hc)⟩, fun hwhole => hplaces hwhole.1, ?_⟩
      rw [text, if_neg hplaces]
      simp

theorem exists_scientific (h : IsDigits ds) (hfirst : ds.head? ≠ some '0') (e : ℤ) :
    ∃ t : NumberText, t.IsProper ∧ ¬ t.IsWhole ∧ Layout.scientific ds e = t.text := by
  obtain ⟨d, rest, rfl⟩ := List.exists_cons_of_ne_nil h.ne_nil
  obtain ⟨hd, hrest⟩ := List.forall_mem_cons.1 h.digit
  refine ⟨{ whole := [d], fraction := rest, exponent := some e },
    ⟨.cons hd (List.forall_mem_nil _), .inr hfirst, hrest⟩, ?_, ?_⟩
  · rintro ⟨-, hnone⟩
    cases hnone
  · cases rest <;> simp [Layout.scientific, text]

/-- Digits are written as a numeral that has their value. -/
theorem exists_write (hx : x.digits ≠ 0) :
    ∃ t : NumberText, t.IsProper ∧ ¬ t.IsWhole ∧ Layout.data.write x = t.text ∧
      t.value = x.value := by
  have htrim := Layout.trim_ne_zero hx
  have hdigits := IsDigits.toDigits (Layout.trim x.digits)
  have hfirst := Layout.head?_toDigits htrim
  have hread := Layout.unsigned?_write Layout.data hx
  obtain ⟨t, ht, hwhole, htext⟩ : ∃ t : NumberText, t.IsProper ∧ ¬ t.IsWhole ∧
      Layout.data.write x = t.text := by
    simp only [Layout.write, Nat.toString_eq_ofList_toDigits, String.toList_ofList]
    split
    · exact exists_positional hdigits hfirst _
    · exact exists_scientific hdigits hfirst _
  rw [htext, ht.unsigned?] at hread
  exact ⟨t, ht, hwhole, htext, Option.some.inj hread⟩

end NumberText

namespace Json

variable {t : NumberText} {ds rest : List Char}

/-- What may come behind a value. -/
def Follows (rest : List Char) : Prop := ∀ c ∈ rest.head?, c = ',' ∨ c = '\n'

theorem digitsValue_eq (ds : List Char) : digitsValue ds = Nat.ofDigitChars 10 ds 0 := by
  simp only [digitsValue, Nat.ofDigitChars, Nat.mul_comm 10]

theorem takeWhile_digits (h : ∀ c ∈ ds, c.isDigit = true)
    (hrest : ∀ c ∈ rest.head?, c.isDigit = false) :
    (ds ++ rest).takeWhile Char.isDigit = ds ∧ (ds ++ rest).dropWhile Char.isDigit = rest := by
  rw [List.takeWhile_append_of_pos h, List.dropWhile_append_of_pos h]
  cases rest with
  | nil => simp
  | cons c rest =>
    have hc : ¬ c.isDigit = true := by simp [hrest c rfl]
    rw [List.takeWhile_cons_of_neg hc, List.dropWhile_cons_of_neg hc, List.append_nil]
    exact ⟨rfl, rfl⟩

theorem readWhole_append (h : IsDigits ds) (hfirst : ds = ['0'] ∨ ds.head? ≠ some '0')
    (hrest : ∀ c ∈ rest.head?, c.isDigit = false) : readWhole (ds ++ rest) = some (ds, rest) := by
  rcases hfirst with rfl | hfirst
  · rfl
  · obtain ⟨htake, hdrop⟩ := takeWhile_digits h.digit hrest
    rw [readWhole]
    · rw [htake, hdrop]
      cases ds with
      | nil => exact absurd rfl h.ne_nil
      | cons d ds => rfl
    · rintro cs heq
      cases ds with
      | nil => exact h.ne_nil rfl
      | cons d ds =>
        obtain ⟨rfl, -⟩ := List.cons.inj heq
        exact hfirst rfl

theorem readFraction_append (h : ∀ c ∈ ds, c.isDigit = true)
    (hrest : ∀ c ∈ rest.head?, c.isDigit = false ∧ c ≠ '.') :
    readFraction ((if ds = [] then [] else '.' :: ds) ++ rest) = (ds, rest) := by
  cases ds with
  | nil =>
    rw [if_pos rfl, List.nil_append, readFraction]
    rintro cs rfl
    exact (hrest '.' rfl).2 rfl
  | cons d ds =>
    obtain ⟨htake, hdrop⟩ := takeWhile_digits h fun c hc => (hrest c hc).1
    rw [if_neg (List.cons_ne_nil d ds), List.cons_append, readFraction, htake, hdrop]

theorem readExponent_append (e : Option ℤ) (hrest : Follows rest) :
    readExponent (e.elim [] Layout.exponentText ++ rest) = (e, rest) := by
  cases e with
  | none =>
    cases rest with
    | nil => rfl
    | cons c rest => rcases hrest c rfl with rfl | rfl <;> rfl
  | some e =>
    obtain ⟨ds, hdigits, hvalue, htext⟩ := Numeral.exponentText_eq e
    have hdigit : ∀ c ∈ rest.head?, c.isDigit = false := by
      intro c hc
      rcases hrest c hc with rfl | rfl <;> decide
    obtain ⟨htake, hdrop⟩ := takeWhile_digits hdigits.digit hdigit
    obtain ⟨d, ds', rfl⟩ := List.exists_cons_of_ne_nil hdigits.ne_nil
    rw [Option.elim_some, htext]
    simp only [List.cons_append] at htake hdrop
    split
    case isTrue he =>
      have habs : -|e| = e := by rw [abs_of_neg he, neg_neg]
      simp [readExponent, htake, hdrop, digitsValue_eq, hvalue, habs]
    case isFalse he =>
      have habs : |e| = e := abs_of_nonneg (not_lt.1 he)
      simp [readExponent, htake, hdrop, digitsValue_eq, hvalue, habs]

/-- A numeral is read part by part. -/
theorem readParts_append (ht : t.IsProper) (hrest : Follows rest) :
    ∃ rest₁ rest₂, readWhole (t.text ++ rest) = some (t.whole, rest₁) ∧
      readFraction rest₁ = (t.fraction, rest₂) ∧ readExponent rest₂ = (t.exponent, rest) := by
  have hexponent : ∀ c ∈ (t.exponent.elim [] Layout.exponentText ++ rest).head?,
      c.isDigit = false ∧ c ≠ '.' := by
    cases t.exponent with
    | none =>
      intro c hc
      rcases hrest c hc with rfl | rfl <;> decide
    | some e =>
      rintro c ⟨⟩
      decide
  refine ⟨_, _, ?_, readFraction_append ht.fraction hexponent, readExponent_append t.exponent hrest⟩
  rw [NumberText.text, List.append_assoc, List.append_assoc]
  refine readWhole_append ht.whole ht.first ?_
  split
  · exact fun c hc => (hexponent c hc).1
  · rintro c ⟨⟩
    decide

/-- What the parts of a number come to, with a sign or without one. -/
theorem readNumber_eq (negative : Bool) {d : Char} {cs rest₁ rest₂ whole fraction : List Char}
    {exponent : Option ℤ} (hd : d ≠ '-') (hwhole : readWhole (d :: cs) = some (whole, rest₁))
    (hfraction : readFraction rest₁ = (fraction, rest₂))
    (hexponent : readExponent rest₂ = (exponent, rest)) :
    readNumber (if negative then '-' :: d :: cs else d :: cs) =
      if fraction.isEmpty && exponent.isNone then
        if Number.digitLimit < whole.length then
          .error ⟨.tooManyDigits whole.length, if negative then '-' :: d :: cs else d :: cs⟩
        else .ok (.num (.int (if negative then -digitsValue whole else digitsValue whole)), rest)
      else
        .ok (.num (.double (.ofDecimal negative (digitsValue (whole ++ fraction))
          (exponent.getD 0 - fraction.length))), rest) := by
  unfold readNumber
  split
  case h_1 sign body hsign =>
    obtain ⟨rfl, rfl⟩ : negative = sign ∧ d :: cs = body := by
      cases negative with
      | true => exact Prod.mk.inj hsign
      | false =>
        simp only [Bool.false_eq_true, if_false] at hsign
        split at hsign
        case h_1 heq => exact absurd (List.cons.inj heq).1 hd
        case h_2 => exact Prod.mk.inj hsign
    simp only [hwhole, hfraction, hexponent]

theorem exists_digit (ht : t.IsProper) (rest : List Char) :
    ∃ d cs, t.text ++ rest = d :: cs ∧ d.isDigit = true := by
  obtain ⟨d, cs, hcs⟩ := List.exists_cons_of_ne_nil ht.whole.ne_nil
  rw [NumberText.text, hcs, List.cons_append, List.cons_append]
  exact ⟨d, _, rfl, ht.whole.digit d (by simp [hcs])⟩

theorem ne_of_isDigit {d e : Char} (hd : d.isDigit = true) (he : e.isDigit = false) : d ≠ e := by
  rintro rfl
  rw [hd] at he
  cases he

theorem readNumber_double (ht : t.IsProper) (hwhole : ¬ t.IsWhole) (hrest : Follows rest)
    (negative : Bool) :
    readNumber (if negative then '-' :: (t.text ++ rest) else t.text ++ rest) =
      .ok (.num (.double (.ofDecimal negative t.digits t.place)), rest) := by
  obtain ⟨rest₁, rest₂, hread, hfraction, hexponent⟩ := readParts_append ht hrest
  obtain ⟨d, cs, hcs, hd⟩ := exists_digit ht rest
  have hfine : ¬ (t.fraction.isEmpty && t.exponent.isNone) = true := by
    simpa [NumberText.IsWhole] using hwhole
  rw [hcs] at hread ⊢
  rw [readNumber_eq negative (ne_of_isDigit hd (by decide)) hread hfraction hexponent,
    if_neg hfine, digitsValue_eq, NumberText.digits, NumberText.place]

theorem readNumber_whole (ht : t.IsProper) (hwhole : t.IsWhole)
    (hlength : t.whole.length ≤ Number.digitLimit) (hrest : Follows rest) (negative : Bool) :
    readNumber (if negative then '-' :: (t.text ++ rest) else t.text ++ rest) =
      .ok (.num (.int (if negative then -t.digits else t.digits)), rest) := by
  obtain ⟨rest₁, rest₂, hread, hfraction, hexponent⟩ := readParts_append ht hrest
  obtain ⟨d, cs, hcs, hd⟩ := exists_digit ht rest
  obtain ⟨hnone, hnone'⟩ := hwhole
  have hplain : (t.fraction.isEmpty && t.exponent.isNone) = true := by simp [hnone, hnone']
  rw [hcs] at hread ⊢
  rw [readNumber_eq negative (ne_of_isDigit hd (by decide)) hread hfraction hexponent,
    if_pos hplain, if_neg (not_lt.2 hlength), digitsValue_eq, NumberText.digits, hnone,
    List.append_nil]

/-- What begins with a digit or a sign is neither a text nor a list nor an object. -/
theorem readValue_eq {c : Char} {cs : List Char} (hc : c ∉ ['"', '[', '\x7b'])
    (hword : readWord? (c :: cs) = none) (fuel : ℕ) :
    readValue (fuel + 1) (c :: cs) = readNumber (c :: cs) := by
  simp only [List.mem_cons, List.not_mem_nil, or_false, not_or] at hc
  unfold readValue
  split
  case h_1 heq => exact absurd (List.cons.inj heq).1 hc.1
  case h_2 heq => exact absurd (List.cons.inj heq).1 hc.2.1
  case h_3 heq => exact absurd (List.cons.inj heq).1 hc.2.2
  case h_4 => rw [hword]

/-- No name of a number begins like a numeral. -/
theorem readValue_numeral (ht : t.IsProper) (rest : List Char) (negative : Bool) (fuel : ℕ) :
    readValue (fuel + 1) (if negative then '-' :: (t.text ++ rest) else t.text ++ rest) =
      readNumber (if negative then '-' :: (t.text ++ rest) else t.text ++ rest) := by
  obtain ⟨d, cs, hcs, hd⟩ := exists_digit ht rest
  have hne (e : Char) (he : e.isDigit = false) : e ≠ d := (ne_of_isDigit hd he).symm
  rw [hcs]
  cases negative with
  | true =>
    refine readValue_eq (by decide) ?_ fuel
    simp [readWord?, words, hne 'I' (by decide)]
  | false =>
    refine readValue_eq ?_ ?_ fuel
    · simp [(hne '"' (by decide)).symm, (hne '[' (by decide)).symm, (hne '\x7b' (by decide)).symm]
    · simp [readWord?, words, hne 'n' (by decide), hne 't' (by decide), hne 'f' (by decide),
        hne 'N' (by decide), hne 'I' (by decide), hne '-' (by decide)]

theorem readValue_int {n : ℤ} (hn : digitCount n.natAbs ≤ Number.digitLimit)
    (hrest : Follows rest) (fuel : ℕ) :
    readValue (fuel + 1) ((Number.int n).dataText.toList ++ rest) = .ok (.num (.int n), rest) := by
  have ht : NumberText.IsProper { whole := Nat.toDigits 10 n.natAbs } := by
    refine ⟨IsDigits.toDigits n.natAbs, ?_, List.forall_mem_nil _⟩
    rcases eq_or_ne n.natAbs 0 with hzero | hzero
    · exact .inl (by rw [hzero]; rfl)
    · exact .inr (Layout.head?_toDigits hzero)
  have hlength : (Nat.toDigits 10 n.natAbs).length ≤ Number.digitLimit := by
    rcases eq_or_ne n.natAbs 0 with hzero | hzero
    · rw [hzero]
      decide
    · rw [Layout.length_toDigits hzero]
      exact hn
  have hread (negative : Bool) := (readValue_numeral ht rest negative fuel).trans
    (readNumber_whole ht ⟨rfl, rfl⟩ hlength hrest negative)
  simp only [NumberText.text, NumberText.digits, if_true, Option.elim_none, List.append_nil,
    Nat.ofDigitChars_ten_toDigits] at hread
  cases n with
  | ofNat n =>
    have htext : (Number.int (.ofNat n)).dataText.toList = Nat.toDigits 10 n := by
      change (toString n).toList = _
      rw [Nat.toString_eq_ofList_toDigits, String.toList_ofList]
    rw [htext]
    exact hread false
  | negSucc n =>
    have htext : (Number.int (.negSucc n)).dataText.toList = '-' :: Nat.toDigits 10 (n + 1) := by
      change ("-" ++ toString (n + 1)).toList = _
      simp
    rw [htext]
    exact hread true

/-- A finite double is read back from the digits that it is written with. -/
theorem readValue_finite {s : Bool} {m : ℕ} {e : ℤ} (hx : Double.IsCanonical (.finite s m e))
    (hrest : Follows rest) (fuel : ℕ) :
    readValue (fuel + 1) ((Double.finite s m e).dataText.toList ++ rest) =
      .ok (.num (.double (.finite s m e)), rest) := by
  obtain ⟨t, ht, hwhole, htext, hvalue⟩ : ∃ t : NumberText, t.IsProper ∧ ¬ t.IsWhole ∧
      (if m = 0 then Layout.data.positional ['0'] 0 else Layout.data.write (Decimal.shortest m e)) =
        t.text ∧ Double.ofDecimal s t.digits t.place = .finite s m e := by
    by_cases hm : m = 0
    · subst hm
      obtain rfl : e = Double.minExponent := hx.2.2.2.resolve_right (by decide)
      have hzero := Numeral.isDigits_zero
      refine ⟨{ whole := ['0'], fraction := ['0'] }, ⟨hzero, .inl rfl, hzero.digit⟩, ?_, rfl, rfl⟩
      rintro ⟨hnil, -⟩
      cases hnil
    · have hread := Decimal.shortest_isReadAs hm hx
      obtain ⟨t, ht, hwhole, htext, hvalue⟩ := NumberText.exists_write hread.ne_zero
      exact ⟨t, ht, hwhole, by rw [if_neg hm, htext], hread.ofDecimal_eq hvalue⟩
  have hsigned : (Double.finite s m e).dataText.toList ++ rest =
      if s then '-' :: (t.text ++ rest) else t.text ++ rest := by
    rw [Double.dataText, Layout.text, htext]
    cases s with
    | false => simp [Layout.signed]
    | true => simp [Layout.signed]
  rw [hsigned, readValue_numeral ht, readNumber_double ht hwhole hrest, hvalue]

end Json

end DesignComponents
