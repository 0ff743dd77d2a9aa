import DesignComponents.Proofs.Json.Numeral
import DesignComponents.Proofs.OrderedMap
import DesignComponents.Proofs.Outcome
import Mathlib.Data.List.TakeWhile

/-!
What data is like that was read from text: an object has each of its fields once, and a number is in
the one form in which it is read.
-/

namespace DesignComponents

/-- Doubles are canonical, and whole numbers have no more digits than are read. -/
def Number.IsRegular : Number → Prop
  | .int n => digitCount n.natAbs ≤ digitLimit
  | .double x => x.IsCanonical

namespace Json

inductive IsRegular : Json → Prop
  | null : IsRegular .null
  | bool (b : Bool) : IsRegular (.bool b)
  | num {n : Number} (h : n.IsRegular) : IsRegular (.num n)
  | str (s : String) : IsRegular (.str s)
  | arr {xs : List Json} (h : ∀ x ∈ xs, IsRegular x) : IsRegular (.arr xs)
  | obj {fs : List (String × Json)} (hkeys : (OrderedMap.keys fs).Nodup)
      (h : ∀ f ∈ fs, IsRegular f.2) : IsRegular (.obj fs)

@[simp] theorem isRegular_null : IsRegular .null := .null

@[simp] theorem isRegular_bool (b : Bool) : IsRegular (.bool b) := .bool b

@[simp] theorem isRegular_str (s : String) : IsRegular (.str s) := .str s

@[simp] theorem isRegular_num {n : Number} : IsRegular (.num n) ↔ n.IsRegular :=
  ⟨fun h => by cases h; assumption, .num⟩

@[simp] theorem isRegular_arr {xs : List Json} : IsRegular (.arr xs) ↔ ∀ x ∈ xs, x.IsRegular :=
  ⟨fun h => by cases h; assumption, .arr⟩

theorem isRegular_obj {fs : List (String × Json)} :
    IsRegular (.obj fs) ↔ (OrderedMap.keys fs).Nodup ∧ ∀ f ∈ fs, f.2.IsRegular :=
  ⟨fun h => by cases h; exact ⟨‹_›, ‹_›⟩, fun h => .obj h.1 h.2⟩

theorem isRegular_obj_nil : IsRegular (.obj []) := .obj List.nodup_nil (List.forall_mem_nil _)

/-! ### Parts -/

namespace IsRegular

variable {v other : Json}

theorem lookup {fs : List (String × Json)} (h : ∀ f ∈ fs, f.2.IsRegular) (ho : other.IsRegular)
    (name : String) : ((fs.lookup name).getD other).IsRegular := by
  cases hx : fs.lookup name with
  | none => exact ho
  | some x =>
    obtain ⟨before, after, rfl, -⟩ := List.lookup_eq_some_iff.1 hx
    exact h (name, x) (List.mem_append_right _ (.head _))

theorem getOr (hv : v.IsRegular) (name : String) (ho : other.IsRegular) :
    Returns (v.getOr name other) IsRegular := by
  cases hv with
  | obj _ h => exact lookup h ho name
  | _ => trivial

theorem get (hv : v.IsRegular) (name : String) : Returns (v.get name) IsRegular := by
  cases hv with
  | obj _ h => exact lookup h .null name
  | _ => trivial

theorem fields (hv : v.IsRegular) : Returns v.fields fun fs => IsRegular (.obj fs) := by
  cases hv with
  | obj hkeys h => exact .obj hkeys h
  | _ => trivial

theorem elements (hv : v.IsRegular) : Returns v.elements fun xs => IsRegular (.arr xs) := by
  cases hv with
  | str s =>
    refine .arr fun x hx => ?_
    obtain ⟨c, -, rfl⟩ := List.mem_map.1 hx
    exact .str _
  | arr h => exact .arr h
  | obj _ _ =>
    refine .arr fun x hx => ?_
    obtain ⟨f, -, rfl⟩ := List.mem_map.1 hx
    exact .str _
  | _ => trivial

theorem orEmpty (hv : v.IsRegular) : v.orEmpty.IsRegular := by
  rw [Json.orEmpty]
  split
  · exact hv
  · exact isRegular_obj_nil

end IsRegular

/-! ### Reading -/

variable {cs rest ds : List Char} {v : Json}

theorem readWhole_digits (h : readWhole cs = some (ds, rest)) : ∀ c ∈ ds, c.isDigit = true := by
  unfold readWhole at h
  split at h
  · cases h
    exact List.forall_mem_singleton.2 (by decide)
  · split at h
    · cases h
    · cases h
      exact fun c hc => List.mem_takeWhile_imp hc

theorem readNumber_isRegular (h : readNumber cs = .ok (v, rest)) : v.IsRegular := by
  unfold readNumber at h
  split at h
  case h_1 negative body _ =>
    split at h
    case h_1 => cases h
    case h_2 whole _ hwhole =>
      dsimp only at h
      split at h
      case isTrue =>
        split at h
        case isTrue => cases h
        case isFalse hlength =>
          cases h
          have hcount := Numeral.digitCount_ofDigitChars_le (readWhole_digits hwhole)
          rw [isRegular_num, Number.IsRegular, digitsValue_eq]
          refine le_trans ?_ (not_lt.1 hlength)
          split
          · simpa using hcount
          · simpa using hcount
      case isFalse =>
        cases h
        exact .num (Double.ofDecimal_canonical _ _ _)

theorem isRegular_words : ∀ w ∈ words, w.2.IsRegular := by
  simp [words, Number.IsRegular, Double.IsCanonical]

theorem readWord?_isRegular (h : readWord? cs = some (v, rest)) : v.IsRegular := by
  obtain ⟨⟨w, u⟩, hmem, hread⟩ := List.exists_of_findSome?_eq_some h
  dsimp only at hread
  split at hread
  · cases hread
    exact isRegular_words _ hmem
  · cases hread

mutual

theorem readValue_isRegular : ∀ {fuel : ℕ} {cs rest : List Char} {v : Json},
    readValue fuel cs = .ok (v, rest) → v.IsRegular
  | 0, _, _, _, h => by cases h
  | fuel + 1, cs, rest, v, h => by
    unfold readValue at h
    split at h
    case h_1 =>
      split at h <;> cases h
      exact .str _
    case h_2 =>
      split at h
      case h_1 =>
        cases h
        exact .arr (List.forall_mem_nil _)
      case h_2 =>
        split at h <;> cases h
        exact .arr (readElements_isRegular (List.forall_mem_nil _) ‹_›)
    case h_3 =>
      split at h
      case h_1 =>
        cases h
        exact isRegular_obj_nil
      case h_2 =>
        split at h <;> cases h
        exact readFields_isRegular isRegular_obj_nil ‹_›
    case h_4 =>
      split at h
      case h_1 hword =>
        cases h
        exact readWord?_isRegular hword
      case h_2 => exact readNumber_isRegular h

theorem readElements_isRegular : ∀ {fuel : ℕ} {done vs : List Json} {cs rest : List Char},
    (∀ x ∈ done, x.IsRegular) → readElements fuel done cs = .ok (vs, rest) →
      ∀ x ∈ vs, x.IsRegular
  | 0, _, _, _, _, _, h => by cases h
  | fuel + 1, done, vs, cs, rest, hdone, h => by
    unfold readElements at h
    split at h
    case h_1 => cases h
    case h_2 v _ hvalue =>
      have hdone : ∀ x ∈ v :: done, x.IsRegular :=
        List.forall_mem_cons.2 ⟨readValue_isRegular hvalue, hdone⟩
      split at h
      case h_1 =>
        cases h
        exact fun x hx => hdone x (List.mem_reverse.1 hx)
      case h_2 => exact readElements_isRegular hdone h
      case h_3 => cases h

theorem readFields_isRegular : ∀ {fuel : ℕ} {done fs : List (String × Json)}
    {cs rest : List Char}, IsRegular (.obj done) → readFields fuel done cs = .ok (fs, rest) →
      IsRegular (.obj fs)
  | 0, _, _, _, _, _, h => by cases h
  | fuel + 1, done, fs, cs, rest, hdone, h => by
    unfold readFields at h
    split at h
    case h_2 => cases h
    case h_1 =>
      split at h
      case h_1 => cases h
      case h_2 name _ _ =>
        split at h
        case h_2 => cases h
        case h_1 =>
          split at h
          case h_1 => cases h
          case h_2 v _ hvalue =>
            obtain ⟨hkeys, hvalues⟩ := isRegular_obj.1 hdone
            have hv := readValue_isRegular hvalue
            have hdone : IsRegular (.obj (OrderedMap.put name v done)) :=
              .obj (OrderedMap.nodup_put name v hkeys)
                (OrderedMap.forall_mem_put (P := fun _ v => IsRegular v) hvalues hv fun _ _ => hv)
            dsimp only at h
            split at h
            case h_1 =>
              cases h
              exact hdone
            case h_2 => exact readFields_isRegular hdone h
            case h_3 => cases h

end

/-- What is read from text is regular. -/
theorem read_isRegular {text : String} (h : read text = .ok v) : v.IsRegular := by
  unfold read at h
  split at h <;> cases h
  rename_i h
  unfold readAll at h
  split at h
  case h_1 => cases h
  case h_2 =>
    split at h
    case h_1 => cases h
    case h_2 hvalue =>
      split at h <;> cases h
      exact readValue_isRegular hvalue

end Json

end DesignComponents
