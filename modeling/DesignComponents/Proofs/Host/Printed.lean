import DesignComponents.Proofs.Host.Observation

/-!
Runs that end well, with what they print on the way.
-/

namespace DesignComponents

namespace Run

variable {α β : Type} {x : Run α} {h h' h'' : Host} {a : α}

/-- Texts as lines. -/
def linesOf (texts : List String) : String := String.join (texts.map (· ++ "\n"))

@[simp] theorem linesOf_nil : linesOf [] = "" := rfl

@[simp] theorem linesOf_cons (t : String) (ts : List String) :
    linesOf (t :: ts) = t ++ "\n" ++ linesOf ts := by
  simp [linesOf]

theorem printAll_on (texts : List String) (h : Host) :
    (printAll texts).on h = (.ok (), { h with printed := h.printed ++ linesOf texts }) := by
  induction texts generalizing h with
  | nil => simp [printAll]
  | cons t ts ih =>
    have hfirst := print_on t h
    rw [printAll, bind_of_ok hfirst, ih, linesOf_cons]
    simp only [String.append_assoc]

/-- What is logged is printed, one warning after the other. -/
theorem ofTraced_on (x : Traced α) (h : Host) :
    (ofTraced x).on h =
      (x.result, { h with printed := h.printed ++ linesOf (x.log.map Warning.line) }) := by
  rw [ofTraced, bind_of_ok (printAll_on _ h), ofExcept_on]

/-- The run ends well, prints the text, and leaves the given host but for its traces. -/
def Prints (x : Run α) (h : Host) (a : α) (text : String) (h' : Host) : Prop :=
  ∃ k, x.on h = (.ok a, k) ∧ k.printed = h.printed ++ text ∧ k.fresh = h'.fresh

namespace Prints

theorem congr {text : String} (hx : Prints x h a text h') (hfresh : h'.fresh = h''.fresh) :
    Prints x h a text h'' := by
  obtain ⟨k, hk, hprinted, hk'⟩ := hx
  exact ⟨k, hk, hprinted, hk'.trans hfresh⟩

theorem bind {f : α → Run β} {b : β} {text text' : String} (hx : Prints x h a text h')
    (hf : ∀ k : Host, k.fresh = h'.fresh → Prints (f a) k b text' h'') :
    Prints (x >>= f) h b (text ++ text') h'' := by
  obtain ⟨k, hk, hprinted, hfresh⟩ := hx
  obtain ⟨k', hk', hprinted', hfresh'⟩ := hf k hfresh
  refine ⟨k', (bind_of_ok hk f).trans hk', ?_, hfresh'⟩
  rw [hprinted', hprinted, String.append_assoc]

theorem of_on {text : String} {b : α} {k : Host} (hx : Prints x h a text h')
    (hk : x.on h = (.ok b, k)) : k.printed = h.printed ++ text ∧ k.fresh = h'.fresh := by
  obtain ⟨k', hk', hprinted, hfresh⟩ := hx
  obtain rfl : k' = k := congrArg Prod.snd (hk'.symm.trans hk)
  exact ⟨hprinted, hfresh⟩

theorem pure (a : α) (h : Host) : Prints (pure a) h a "" h := ⟨h, rfl, by simp, rfl⟩

theorem print (text : String) (h : Host) : Prints (print text) h () (text ++ "\n") h :=
  ⟨_, print_on text h, String.append_assoc, rfl⟩

theorem printAll (texts : List String) (h : Host) :
    Prints (printAll texts) h () (linesOf texts) h :=
  ⟨_, printAll_on texts h, rfl, rfl⟩

end Prints

end Run

end DesignComponents
