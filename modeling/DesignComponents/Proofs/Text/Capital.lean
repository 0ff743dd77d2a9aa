import DesignComponents.Proofs.Text.Case
import Mathlib.Data.Nat.Bitwise

/-!
First letters that are in upper or lower case already. A letter may become several characters, and
the first of them stays as it is.
-/

namespace DesignComponents

variable {n : Nat} {c : Char} {cs : List Char}

/-- Numbers as the bits that are set in one. -/
def bits (ns : List Nat) : Nat := ns.foldr (fun n b => b ||| 1 <<< n) 0

theorem testBit_bits (ns : List Nat) (n : Nat) : (bits ns).testBit n = decide (n ∈ ns) := by
  induction ns with
  | nil => simp [bits]
  | cons k ns ih =>
    have hbits : bits (k :: ns) = bits ns ||| 2 ^ k := by
      rw [bits, List.foldr_cons, ← bits, Nat.one_shiftLeft]
    rw [hbits, Nat.testBit_or, ih, Nat.testBit_two_pow, Bool.or_comm, ← Bool.decide_or]
    simp only [List.mem_cons, eq_comm]

namespace CaseRun

def points (r : CaseRun) : List Nat :=
  (List.range ((r.last - r.first) / r.step + 1)).map fun i => r.first + r.step * i

theorem mem_points {r : CaseRun} (h : r.covers n = true) : n ∈ r.points := by
  simp only [covers, Bool.and_eq_true, decide_eq_true_eq, beq_iff_eq] at h
  obtain ⟨⟨hfirst, hlast⟩, hstep⟩ := h
  have hindex : (n - r.first) / r.step ≤ (r.last - r.first) / r.step :=
    Nat.div_le_div_right (by omega)
  have hpoint : r.first + r.step * ((n - r.first) / r.step) = n := by
    rw [Nat.mul_div_cancel' (Nat.dvd_of_mod_eq_zero hstep)]
    omega
  exact List.mem_map.2 ⟨_, List.mem_range.2 (by omega), hpoint⟩

end CaseRun

namespace CaseMap

variable {m : CaseMap}

/-- All that the map may change. -/
def sources (m : CaseMap) : List Nat := m.several.map Prod.fst ++ m.runs.flatMap CaseRun.points

theorem apply_of_notMem_sources (h : c.toNat ∉ m.sources) : m.apply c = [c] := by
  have hseveral : m.several.find? (·.1 == c.toNat) = none := by
    rw [List.find?_eq_none]
    intro p hp heq
    apply h
    exact List.mem_append_left _ (List.mem_map.2 ⟨p, hp, beq_iff_eq.1 heq⟩)
  have hruns : m.runs.find? (·.covers c.toNat) = none := by
    rw [List.find?_eq_none]
    intro r hr hcovers
    apply h
    exact List.mem_append_right _ (List.mem_flatMap.2 ⟨r, hr, CaseRun.mem_points hcovers⟩)
  rw [apply, hseveral, hruns]

/-- Whether nothing that an image begins with is changed in turn, nor the null character. -/
def settles (m : CaseMap) : Bool :=
  let changed := bits m.sources
  !changed.testBit 0 &&
    (m.several.all fun p => p.2.head?.any fun n => !changed.testBit n) &&
    m.runs.all fun r => r.points.all fun n => !changed.testBit (n + r.shift).toNat

theorem apply_ofNat (hzero : 0 ∉ m.sources) (h : n ∉ m.sources) :
    m.apply (Char.ofNat n) = [Char.ofNat n] := by
  apply apply_of_notMem_sources
  rcases toNat_ofNat_or n with htoNat | hnul
  · rwa [htoNat]
  · rwa [hnul]

/-- What an image begins with is its own image. -/
theorem apply_eq_cons (hm : m.settles = true) (c : Char) :
    ∃ d ds, m.apply c = d :: ds ∧ m.apply d = [d] := by
  simp only [settles, testBit_bits, Bool.and_eq_true, Bool.not_eq_true', decide_eq_false_iff_not,
    List.all_eq_true] at hm
  obtain ⟨⟨hzero, hseveral⟩, hruns⟩ := hm
  cases hfind : m.several.find? (·.1 == c.toNat) with
  | some p =>
    have hfirst := hseveral p (List.mem_of_find?_eq_some hfind)
    obtain ⟨n, hn, hsettled⟩ := (Option.any_eq_true _ _).1 hfirst
    obtain ⟨ns, hns⟩ := List.head?_eq_some_iff.1 hn
    refine ⟨Char.ofNat n, ns.map Char.ofNat, ?_, apply_ofNat hzero (by simpa using hsettled)⟩
    simp only [apply, hfind, hns, List.map_cons]
  | none =>
    cases hrun : m.runs.find? (·.covers c.toNat) with
    | some r =>
      have hcovers := List.find?_some hrun
      have hpoint := CaseRun.mem_points hcovers
      have hsettled := hruns r (List.mem_of_find?_eq_some hrun) _ hpoint
      refine ⟨_, [], ?_, apply_ofNat hzero hsettled⟩
      rw [apply, hfind, hrun]
    | none =>
      have hsame : m.apply c = [c] := by rw [apply, hfind, hrun]
      exact ⟨c, [], hsame, hsame⟩

theorem apply_append_eq_cons (hm : m.settles = true) (c : Char) (cs : List Char) :
    ∃ d ds, m.apply c ++ cs = d :: ds ∧ m.apply d ++ ds = d :: ds := by
  obtain ⟨d, ds, hc, hd⟩ := apply_eq_cons hm c
  exact ⟨d, ds ++ cs, by rw [hc, List.cons_append], by rw [hd, List.singleton_append]⟩

theorem settles_upperCase : upperCase.settles = true := by decide +kernel

theorem settles_lowerCase : lowerCase.settles = true := by decide +kernel

end CaseMap

@[simp] theorem upperFirst_upperFirst (cs : List Char) :
    upperFirst (upperFirst cs) = upperFirst cs := by
  cases cs with
  | nil => rfl
  | cons c cs =>
    obtain ⟨d, ds, hc, hd⟩ := CaseMap.apply_append_eq_cons CaseMap.settles_upperCase c cs
    rw [upperFirst_cons, upperChar, hc, upperFirst_cons, upperChar, hd]

@[simp] theorem lowerFirst_lowerFirst (cs : List Char) :
    lowerFirst (lowerFirst cs) = lowerFirst cs := by
  cases cs with
  | nil => rfl
  | cons c cs =>
    obtain ⟨d, ds, hc, hd⟩ := CaseMap.apply_append_eq_cons CaseMap.settles_lowerCase c cs
    rw [lowerFirst_cons, lowerChar, hc, lowerFirst_cons, lowerChar, hd]

end DesignComponents
