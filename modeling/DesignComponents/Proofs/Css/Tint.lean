import DesignComponents.Proofs.Css.Channel
import DesignComponents.Proofs.Css.Hexadecimal
import DesignComponents.Proofs.Css.Measured
import DesignComponents.Proofs.Text.Cut

/-!
Colour texts, read back: they have six hexadecimal digits if the colour is solid, and the channels
and the opacity that they say are near to those of the colour.
-/

namespace DesignComponents

namespace Double

variable {p q : ℚ}

/-- The greatest double below one. -/
theorem IsValue.le_of_lt_one (h : IsValue q) (hq : q < 1) : q ≤ 1 - 2 ^ (-53 : ℤ) := by
  obtain ⟨m, e, hm, -, -, rfl⟩ := h
  have hunit : (2 : ℚ) ^ (-53 : ℤ) = 1 / 2 ^ 53 := by norm_num
  have hm' : (m : ℚ) ≤ 2 ^ 53 - 1 := by
    have : m ≤ 2 ^ 53 - 1 := by omega
    exact_mod_cast this
  rcases le_total e (-53) with he | he
  · calc
      (m : ℚ) * 2 ^ e ≤ (2 ^ 53 - 1) * 2 ^ (-53 : ℤ) := by
        apply mul_le_mul hm' _ (by positivity) (by norm_num)
        exact zpow_le_zpow_right₀ (by norm_num) he
      _ = 1 - 2 ^ (-53 : ℤ) := by
        rw [hunit]
        norm_num
  · obtain ⟨j, hj⟩ := exists_mul_zpow (by decide : 2 ≠ 0) he m
    push_cast at hj
    rw [hj, hunit, mul_one_div, div_lt_one (by norm_num)] at hq
    have hj' : j ≤ 2 ^ 53 - 1 := by
      have : j < 2 ^ 53 := by exact_mod_cast hq
      omega
    have hj'' : (j : ℚ) ≤ 2 ^ 53 - 1 := by exact_mod_cast hj'
    rw [hj, hunit, mul_one_div, div_le_iff₀ (by norm_num)]
    norm_num at hj'' ⊢
    linarith

theorem isValue_one_sub : IsValue (1 - 2 ^ (-53 : ℤ)) :=
  ⟨2 ^ 53 - 1, -53, by decide, by decide, by decide, by norm_num⟩

theorem isValue_one : IsValue 1 := by
  exact_mod_cast isValue_intCast (k := 1) (by decide)

end Double

namespace Css

open Double (IsValue IsRounded)

variable {v opacity : Json} {m n : Number} {r g b a p q α : ℚ}

/-- A number between zero and one that a double holds. -/
structure IsShare (n : Number) (q : ℚ) : Prop where
  holds : n.Holds q
  nonneg : 0 ≤ q
  le_one : q ≤ 1

/-- A colour with these channels. One that it does not have is zero, and its opacity is one then. -/
structure IsColor (v : Json) (r g b a : ℚ) : Prop where
  red : ∃ n, v.getOr "r" (.num (.int 0)) = .ok (.num n) ∧ IsShare n r
  green : ∃ n, v.getOr "g" (.num (.int 0)) = .ok (.num n) ∧ IsShare n g
  blue : ∃ n, v.getOr "b" (.num (.int 0)) = .ok (.num n) ∧ IsShare n b
  alpha : ∃ n, v.getOr "a" (.num (.int 1)) = .ok (.num n) ∧ IsShare n a

/-- The opacity of a colour under that of its paint, if the paint has one. -/
inductive IsEffective (a : ℚ) : Json → ℚ → Prop
  | own : IsEffective a .null a
  | paint {n : Number} {p : ℚ} : IsShare n p → IsEffective a (.num n) (p * a)

theorem IsShare.isValue (h : IsShare n q) : IsValue q := by
  obtain ⟨hn, hzero, hone⟩ := h
  cases n with
  | int k =>
    obtain ⟨rfl, -⟩ := hn
    have hzero' : 0 ≤ k := by exact_mod_cast hzero
    have hone' : k ≤ 1 := by exact_mod_cast hone
    exact Double.isValue_intCast (by omega)
  | double x => exact hn.2

/-- The opacity that is computed, which is full only if the exact one is. -/
structure IsOpacity (α y : ℚ) : Prop where
  near : |y - α| ≤ 2 ^ (-54 : ℤ)
  exact : IsValue α → y = α
  full : y = 1 ↔ α = 1
  nonneg : 0 ≤ y
  le_one : y ≤ 1

theorem IsOpacity.refl (hzero : 0 ≤ α) (hone : α ≤ 1) : IsOpacity α α where
  near := by
    rw [sub_self, abs_zero]
    positivity
  exact _ := rfl
  full := .rfl
  nonneg := hzero
  le_one := hone

section

variable (hp : IsShare m p) (ha : IsShare n a)
include hp ha

theorem share_mul_nonneg : 0 ≤ p * a := mul_nonneg hp.nonneg ha.nonneg

theorem share_mul_le_one : p * a ≤ 1 := mul_le_one₀ hp.le_one ha.nonneg ha.le_one

/-- The product of two shares is below one by more than rounding can make up for. -/
theorem share_mul_le (hlt : p * a < 1) : p * a ≤ 1 - 2 ^ (-53 : ℤ) := by
  rcases hp.le_one.lt_or_eq with hp' | rfl
  · exact (mul_le_of_le_one_right hp.nonneg ha.le_one).trans (hp.isValue.le_of_lt_one hp')
  · rw [one_mul] at hlt ⊢
    exact ha.isValue.le_of_lt_one hlt

theorem IsOpacity.of_rounded {y : ℚ} {e : ℤ} (hy : IsRounded (p * a) y e) :
    IsOpacity (p * a) y := by
  have hzero := share_mul_nonneg hp ha
  have hone := share_mul_le_one hp ha
  have hexact (hv : IsValue (p * a)) : y = p * a := hy.nearest.eq hv
  refine ⟨?_, hexact, ⟨fun h => ?_, fun h => ?_⟩, hy.nearest.ge Double.isValue_zero hzero,
    hy.nearest.le Double.isValue_one hone⟩
  · rcases hone.lt_or_eq with hlt | heq
    · have habs : |p * a| < 2 ^ 53 * 2 ^ (-53 : ℤ) := by
        rw [abs_of_nonneg hzero]
        norm_num
        exact hlt
      refine (hy.absolute (by decide) habs).trans_eq ?_
      norm_num
    · rw [hexact (heq ▸ Double.isValue_one), sub_self, abs_zero]
      positivity
  · by_contra hne
    have hbelow := share_mul_le hp ha (lt_of_le_of_ne hone hne)
    have hless : y ≤ 1 - 2 ^ (-53 : ℤ) := hy.nearest.le Double.isValue_one_sub hbelow
    rw [h] at hless
    norm_num at hless
  · rw [hexact (h ▸ Double.isValue_one), h]

theorem mul_rounded {x z : Double} (hx : x.value? = some p) (hz : z.value? = some a) :
    ∃ y, (Number.double (x.mul z)).Holds y ∧ IsOpacity (p * a) y := by
  have hsmall : |p * a| < Double.overflow := by
    have hover : (2 : ℚ) ≤ Double.overflow := by
      exact_mod_cast (by decide +kernel : 2 ≤ Double.overflow)
    rw [abs_of_nonneg (share_mul_nonneg hp ha)]
    linarith [share_mul_le_one hp ha]
  obtain ⟨y, e, hy, hrounded⟩ := Double.mul_rounded hx hz hsmall
  exact ⟨y, ⟨hy, hrounded.nearest.mem⟩, .of_rounded hp ha hrounded⟩

theorem product_rounded : ∃ c y, product m n = .ok c ∧ c.Holds y ∧ IsOpacity (p * a) y := by
  obtain ⟨x, hx, hxp⟩ := hp.holds.toDouble? hp.isValue
  obtain ⟨z, hz, hza⟩ := ha.holds.toDouble? ha.isValue
  obtain ⟨y, hy, hopacity⟩ := mul_rounded hp ha hxp hza
  cases m with
  | int k =>
    cases n with
    | int l =>
      obtain ⟨rfl, hk⟩ := hp.holds
      obtain ⟨rfl, hl⟩ := ha.holds
      have hk0 : 0 ≤ k := by exact_mod_cast hp.nonneg
      have hk1 : k ≤ 1 := by exact_mod_cast hp.le_one
      refine ⟨.int (k * l), k * l, rfl, ⟨by push_cast; rfl, ?_⟩,
        .refl (share_mul_nonneg hp ha) (share_mul_le_one hp ha)⟩
      obtain rfl | rfl : k = 0 ∨ k = 1 := by omega
      · rwa [zero_mul]
      · rwa [one_mul]
    | double z' => exact ⟨_, y, by simp only [product, hx, hz], hy, hopacity⟩
  | double x' => exact ⟨_, y, by simp only [product, hx, hz], hy, hopacity⟩

end

theorem alpha_rounded (ha : IsShare n a) (h : IsEffective a opacity α) :
    ∃ c y, alpha (.num n) opacity = .ok c ∧ c.Holds y ∧ IsOpacity α y := by
  cases h with
  | own => exact ⟨n, a, rfl, ha.holds, .refl ha.nonneg ha.le_one⟩
  | paint hp => exact product_rounded hp ha

/-- The opacity of a text has two places, which six digits are enough for. -/
theorem opacity_reads {y : ℚ} (hn : n.Holds y) (h : IsOpacity α y) :
    ∃ (x : Double) (d : ℚ), measure (.num n) = .ok x.measureText ∧
      Numeral.value? x.measureText.toList = some d ∧ |d - α| ≤ 1 / 200 + 2 ^ (-54 : ℤ) ∧
        (IsValue α → |d - α| ≤ 1 / 200) := by
  obtain ⟨x, r, z, d, htext, hread, hreading⟩ := measure_reads hn
  have hnear : |r - y| ≤ 1 / 200 := hreading.places.near.trans_eq (by norm_num)
  have hdigits : HasDigits 10 6 r := by
    obtain ⟨k, hk, -⟩ := hreading.places
    obtain ⟨hless, hmore⟩ := abs_sub_le_iff.1 hnear
    have hlow : ((-1 : ℤ) : ℚ) < k := by
      have := h.nonneg
      rw [hk] at hmore
      push_cast
      linarith
    have hhigh : (k : ℚ) < ((101 : ℤ) : ℚ) := by
      have := h.le_one
      rw [hk] at hless
      push_cast
      linarith
    have hk0 : -1 < k := by exact_mod_cast hlow
    have hk1 : k < 101 := by exact_mod_cast hhigh
    exact ⟨k, -2, by omega, by rw [hk, div_eq_mul_inv]; norm_num⟩
  obtain rfl := hreading.exact.2 hdigits
  refine ⟨x, d, htext, hread, (abs_sub_le d y α).trans (add_le_add hnear h.near), fun hv => ?_⟩
  rwa [← h.exact hv]

/-- A colour text, read: three channels up to 255 and an opacity. -/
structure Tint where
  red : ℕ
  green : ℕ
  blue : ℕ
  alpha : ℚ
  deriving DecidableEq

namespace Tint

/-- Two hexadecimal digits. -/
def pair? (c d : Char) : Option ℕ := do
  let high ← upperHexDigits.idxOf? c
  let low ← upperHexDigits.idxOf? d
  pure (16 * high + low)

def solid? : List Char → Option Tint
  | [r, r', g, g', b, b'] => do
    let red ← pair? r r'
    let green ← pair? g g'
    let blue ← pair? b b'
    pure ⟨red, green, blue, 1⟩
  | _ => none

def blended? (cs : List Char) : Option Tint :=
  if cs.getLast? = some ')' then
    match cutAll [',', ' '] cs.dropLast with
    | [r, g, b, a] => do
      let red ← Numeral.natural? r
      let green ← Numeral.natural? g
      let blue ← Numeral.natural? b
      let alpha ← Numeral.value? a
      pure ⟨red, green, blue, alpha⟩
    | _ => none
  else none

def read? : List Char → Option Tint
  | '#' :: cs => solid? cs
  | 'r' :: 'g' :: 'b' :: 'a' :: '(' :: cs => blended? cs
  | _ => none

end Tint

/-- A number sign and six upper-case hexadecimal digits. -/
def IsSolidText (cs : List Char) : Prop :=
  ∃ ds, cs = '#' :: ds ∧ ds.length = 6 ∧ ∀ c ∈ ds, c ∈ upperHexDigits

theorem pair?_eq_some {k : ℕ} (hk : k < 256) :
    Tint.pair? (upperHexDigit (k / 16)) (upperHexDigit (k % 16)) = some k := by
  rw [Tint.pair?, idxOf?_upperHexDigit _ (by omega), idxOf?_upperHexDigit _ (by omega)]
  exact congrArg some (Nat.div_add_mod k 16)

section

variable {red green blue : ℕ}

theorem read?_solid (hr : red < 256) (hg : green < 256) (hb : blue < 256) :
    Tint.read? ('#' :: hexPair red ++ hexPair green ++ hexPair blue) =
      some ⟨red, green, blue, 1⟩ := by
  rw [hexPair_natCast hr, hexPair_natCast hg, hexPair_natCast hb]
  simp only [List.cons_append, List.nil_append, Tint.read?, Tint.solid?, pair?_eq_some hr,
    pair?_eq_some hg, pair?_eq_some hb]
  rfl

theorem isSolidText (hr : red < 256) (hg : green < 256) (hb : blue < 256) :
    IsSolidText ('#' :: hexPair red ++ hexPair green ++ hexPair blue) := by
  rw [hexPair_natCast hr, hexPair_natCast hg, hexPair_natCast hb]
  exact ⟨_, rfl, rfl, by simp [upperHexDigit_mem]⟩

theorem natural?_toString (k : ℕ) : Numeral.natural? (toString k).toList = some k := by
  rw [Nat.toString_eq_ofList_toDigits, String.toList_ofList,
    (Numeral.IsDigits.toDigits k).natural?, Nat.ofDigitChars_ten_toDigits]

theorem toList_blended (r g b a : String) :
    ("rgba(" ++ r ++ ", " ++ g ++ ", " ++ b ++ ", " ++ a ++ ")").toList =
      'r' :: 'g' :: 'b' :: 'a' :: '(' ::
        ([',', ' '].intercalate [r.toList, g.toList, b.toList, a.toList] ++ [')']) := by
  simp [List.intercalate_cons_cons]

theorem not_isSolidText (r g b a : String) :
    ¬ IsSolidText ("rgba(" ++ r ++ ", " ++ g ++ ", " ++ b ++ ", " ++ a ++ ")").toList := by
  rintro ⟨ds, htext, -⟩
  rw [toList_blended] at htext
  exact absurd (List.cons.inj htext).1 (by decide)

theorem read?_blended {x : Double} {d : ℚ} (h : Numeral.value? x.measureText.toList = some d) :
    Tint.read? ("rgba(" ++ toString red ++ ", " ++ toString green ++ ", " ++ toString blue ++
      ", " ++ x.measureText ++ ")").toList = some ⟨red, green, blue, d⟩ := by
  have hcomma : AdmitsNumbers (· ≠ ',') := .ne (by decide) (by decide)
  have hnat (k : ℕ) : ',' ∉ (toString k).toList := fun hmem => hcomma.nat k ',' hmem rfl
  have hmeasure : ',' ∉ x.measureText.toList := fun hmem =>
    hcomma.text Layout.measure (fun _ hc => ne_of_mem_of_not_mem hc (by decide))
      (fun _ hc => ne_of_mem_of_not_mem hc (by decide)) _ x ',' hmem rfl
  have hparts : ∀ l ∈ [(toString red).toList, (toString green).toList, (toString blue).toList,
      x.measureText.toList], ',' ∉ l := by
    simp only [List.forall_mem_cons]
    exact ⟨hnat red, hnat green, hnat blue, hmeasure, List.forall_mem_nil _⟩
  rw [toList_blended, Tint.read?, Tint.blended?, if_pos List.getLast?_concat,
    List.dropLast_concat, cutAll_intercalate (List.cons_ne_nil _ _) hparts]
  simp only [natural?_toString, h]
  rfl

end

/-- A tint is near to the colour and its opacity. The bounds leave room for one rounding of each
product, where that is no double itself. -/
structure IsTint (r g b α : ℚ) (t : Tint) : Prop where
  red : IsStep r t.red
  green : IsStep g t.green
  blue : IsStep b t.blue
  near : |t.alpha - α| ≤ 1 / 200 + 2 ^ (-54 : ℤ)
  exact : IsValue α → |t.alpha - α| ≤ 1 / 200

/-- Every colour has a text, and the text says what the colour is. -/
theorem color_reads (h : IsColor v r g b a) (ho : IsEffective a opacity α) :
    ∃ text t, color v opacity = .ok text ∧ (IsSolidText text.toList ↔ α = 1) ∧
      Tint.read? text.toList = some t ∧ IsTint r g b α t := by
  obtain ⟨_, hr, hred⟩ := h.red
  obtain ⟨_, hg, hgreen⟩ := h.green
  obtain ⟨_, hb, hblue⟩ := h.blue
  obtain ⟨_, ha, halpha⟩ := h.alpha
  obtain ⟨R, hR, hred⟩ := channel_step hred.holds.value? hred.nonneg hred.le_one
  obtain ⟨G, hG, hgreen⟩ := channel_step hgreen.holds.value? hgreen.nonneg hgreen.le_one
  obtain ⟨B, hB, hblue⟩ := channel_step hblue.holds.value? hblue.nonneg hblue.le_one
  obtain ⟨c, y, hc, hy, hopacity⟩ := alpha_rounded halpha ho
  obtain ⟨red, rfl⟩ := Int.eq_ofNat_of_zero_le hred.nonneg
  obtain ⟨green, rfl⟩ := Int.eq_ofNat_of_zero_le hgreen.nonneg
  obtain ⟨blue, rfl⟩ := Int.eq_ofNat_of_zero_le hblue.nonneg
  have hfull : c.atLeast 1 = true ↔ α = 1 := by
    rw [Number.atLeast_iff_of_value hy.value?, Int.cast_one, ← hopacity.full]
    exact ⟨fun h => le_antisymm hopacity.le_one h, fun h => h.ge⟩
  have hcolor : color v opacity = if c.atLeast 1 then
      .ok (String.ofList ('#' :: hexPair red ++ hexPair green ++ hexPair blue))
    else (measure (.num c)).map fun t => "rgba(" ++ toString (red : ℤ) ++ ", " ++
      toString (green : ℤ) ++ ", " ++ toString (blue : ℤ) ++ ", " ++ t ++ ")" := by
    simp only [color, hr, hg, hb, ha, hR, hG, hB, hc, ok_bind]
    split
    · rfl
    · rw [decimal_eq ⟨hred.nonneg, hred.le⟩, decimal_eq ⟨hgreen.nonneg, hgreen.le⟩,
        decimal_eq ⟨hblue.nonneg, hblue.le⟩]
      cases measure (.num c) <;> rfl
  have hr' : red < 256 := by have := hred.le; omega
  have hg' : green < 256 := by have := hgreen.le; omega
  have hb' : blue < 256 := by have := hblue.le; omega
  by_cases hα : α = 1
  · subst hα
    rw [if_pos (hfull.2 rfl)] at hcolor
    refine ⟨_, ⟨red, green, blue, 1⟩, hcolor, ?_, ?_, hred, hgreen, hblue, ?_, fun _ => ?_⟩
    · rw [String.toList_ofList]
      exact iff_of_true (isSolidText hr' hg' hb') rfl
    · rw [String.toList_ofList]
      exact read?_solid hr' hg' hb'
    · rw [sub_self, abs_zero]
      positivity
    · rw [sub_self, abs_zero]
      norm_num
  · obtain ⟨x, d, hmeasure, hread, hnear, hexact⟩ := opacity_reads hy hopacity
    rw [if_neg (mt hfull.1 hα), hmeasure] at hcolor
    exact ⟨_, ⟨red, green, blue, d⟩, hcolor, iff_of_false (not_isSolidText _ _ _ _) hα,
      read?_blended hread, hred, hgreen, hblue, hnear, hexact⟩

theorem IsShare.double {m : ℕ} {e : ℤ} (hm : m < 2 ^ 53) (hlow : Double.minExponent ≤ e)
    (hhigh : e ≤ Double.maxExponent) (hq : Double.magnitudeValue m e = q) (hone : q ≤ 1) :
    IsShare (.double (.finite false m e)) q where
  holds := ⟨congrArg some hq, hq ▸ Double.isValue_magnitudeValue hm hlow hhigh⟩
  nonneg := by
    rw [← hq, Double.magnitudeValue]
    positivity
  le_one := hone

theorem isShare_zero : IsShare (.int 0) 0 where
  holds := ⟨by simp, by decide +kernel⟩
  nonneg := le_rfl
  le_one := zero_le_one

/-- A red of some opacity. -/
def shade (red own : Number) : Json := .obj [("r", .num red), ("a", .num own)]

theorem isColor_shade {red own : Number} (hred : IsShare red r) (hown : IsShare own a) :
    IsColor (shade red own) r 0 0 a where
  red := ⟨red, rfl, hred⟩
  green := ⟨_, rfl, isShare_zero⟩
  blue := ⟨_, rfl, isShare_zero⟩
  alpha := ⟨own, rfl, hown⟩

def half : Number := .double (.finite false 1 (-1))

theorem isShare_half : IsShare half (1 / 2) :=
  .double (by decide) (by decide) (by decide) (by norm_num [Double.magnitudeValue]) (by norm_num)

theorem color_reads_half : IsColor (shade half half) (1 / 2) 0 0 (1 / 2) ∧
    IsEffective (1 / 2) (.num half) (1 / 2 * (1 / 2)) ∧
    ∃ text t, color (shade half half) (.num half) = .ok text ∧
      (IsSolidText text.toList ↔ (1 : ℚ) / 2 * (1 / 2) = 1) ∧ Tint.read? text.toList = some t ∧
        IsTint (1 / 2) 0 0 (1 / 2 * (1 / 2)) t :=
  have hcolor := isColor_shade isShare_half isShare_half
  have heffective := IsEffective.paint isShare_half
  ⟨hcolor, heffective, color_reads hcolor heffective⟩

/-- A red just below the middle of two steps. -/
def middleRed : Double := .finite false 289201740777223 (-50)

def eighth : Double := .finite false (2 ^ 52) (-55)

/-- The next double. -/
def overEighth : Double := .finite false (2 ^ 52 + 1) (-55)

def underOne : Double := .finite false (2 ^ 53 - 1) (-53)

theorem color_middleRed :
    color (shade (.double middleRed) (.double overEighth)) (.num (.double underOne)) =
      .ok "rgba(66, 0, 0, 0.12)" := by
  have hround : (middleRed.mul (.ofRatio false 255 1)).roundInt? = some 66 := by decide +kernel
  have hproduct : underOne.mul overEighth = eighth := by decide +kernel
  have hmeasure : (eighth.roundPlaces 2).measureText = "0.12" := by decide +kernel
  have hfull : (Number.double eighth).atLeast 1 = false := by decide +kernel
  have hred : channel (.num (.double middleRed)) = .ok 66 := by
    simp only [channel, Json.number?, hround]
  have hnone : channel (.num (.int 0)) = .ok 0 := rfl
  have halpha : alpha (.num (.double overEighth)) (.num (.double underOne)) =
      .ok (.double eighth) := by
    simp [alpha, Json.number?, product, Number.toDouble?, hproduct]
  have htext : measure (.num (.double eighth)) = .ok "0.12" := by
    simp only [measure, Json.number?, rounded, ← hmeasure]
    rfl
  have hdecimal : decimal 66 = .ok "66" := decimal_eq (by decide)
  have hzero : decimal 0 = .ok "0" := decimal_eq (by decide)
  simp [color, shade, List.lookup_cons, hred, hnone, halpha, hfull, htext, hdecimal, hzero]

/-- The products of a red and of an opacity are rounded to the middle of two steps, from where the
step they are given is the farther one. -/
theorem color_strays :
    IsColor (shade (.double middleRed) (.double overEighth))
      (289201740777223 / 2 ^ 50) 0 0 ((2 ^ 52 + 1) / 2 ^ 55) ∧
    IsEffective ((2 ^ 52 + 1) / 2 ^ 55) (.num (.double underOne))
      ((2 ^ 53 - 1) / 2 ^ 53 * ((2 ^ 52 + 1) / 2 ^ 55)) ∧
    color (shade (.double middleRed) (.double overEighth)) (.num (.double underOne)) =
      .ok "rgba(66, 0, 0, 0.12)" ∧
    Tint.read? "rgba(66, 0, 0, 0.12)".toList = some ⟨66, 0, 0, 3 / 25⟩ ∧
    1 / 510 < |(66 : ℚ) / 255 - 289201740777223 / 2 ^ 50| ∧
    1 / 200 < |(3 : ℚ) / 25 - (2 ^ 53 - 1) / 2 ^ 53 * ((2 ^ 52 + 1) / 2 ^ 55)| := by
  have hred : IsShare (.double middleRed) (289201740777223 / 2 ^ 50) :=
    .double (by decide) (by decide) (by decide) (by norm_num [Double.magnitudeValue]) (by norm_num)
  have hown : IsShare (.double overEighth) ((2 ^ 52 + 1) / 2 ^ 55) :=
    .double (by decide) (by decide) (by decide) (by norm_num [Double.magnitudeValue]) (by norm_num)
  have hpaint : IsShare (.double underOne) ((2 ^ 53 - 1) / 2 ^ 53) :=
    .double (by decide) (by decide) (by decide) (by norm_num [Double.magnitudeValue]) (by norm_num)
  refine ⟨isColor_shade hred hown, .paint hpaint, color_middleRed, by decide +kernel, ?_, ?_⟩
  · norm_num
  · norm_num

end Css

end DesignComponents
