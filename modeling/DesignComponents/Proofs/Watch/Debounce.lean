import DesignComponents.Watch.Handler
import Mathlib.Data.List.DropRight

/-!
What a handler does over a whole run: an expiry makes one call if a watched file has changed since
the expiry or stop before, for the change that came last, and no call else.
-/

namespace DesignComponents.Watch

def Step.isEvent : Step → Bool
  | .event _ => true
  | _ => false

/-- The path that changed, if it is one of a watched file. -/
def Step.change? (watched : List String) : Step → Option String
  | .event e =>
    if e.isDirectory = false ∧ Path.baseName e.path ∈ watched then some e.path else none
  | _ => none

def lastChange? (watched : List String) (steps : List Step) : Option String :=
  (steps.filterMap (Step.change? watched)).getLast?

/-- The steps after the latest expiry or stop. -/
def sinceQuiet (steps : List Step) : List Step := steps.rtakeWhile Step.isEvent

section

variable {watched : List String} {ss : List Step} {s : Step}

@[simp] theorem lastChange?_nil : lastChange? watched [] = none := rfl

theorem lastChange?_concat :
    lastChange? watched (ss ++ [s]) = (s.change? watched).or (lastChange? watched ss) := by
  cases h : s.change? watched <;> simp [lastChange?, h]

theorem sinceQuiet_concat_event (e : Event) :
    sinceQuiet (ss ++ [.event e]) = sinceQuiet ss ++ [.event e] :=
  List.rtakeWhile_concat_pos _ _ _ rfl

theorem sinceQuiet_concat_of_not_isEvent (h : s.isEvent = false) : sinceQuiet (ss ++ [s]) = [] :=
  List.rtakeWhile_concat_neg _ _ _ (by simp [h])

/-- A change since then is the latest one of all. -/
theorem lastChange?_of_sinceQuiet {path : String}
    (h : lastChange? watched (sinceQuiet ss) = some path) : lastChange? watched ss = some path := by
  obtain ⟨before, hbefore⟩ := List.rtakeWhile_suffix Step.isEvent ss
  have hlast : lastChange? watched (before ++ sinceQuiet ss) = some path := by
    rw [lastChange?] at h
    simp [lastChange?, List.getLast?_append, h]
  exact hbefore ▸ hlast

end

namespace Handler

variable {h : Handler} {watched : List String} {ss : List Step} {ending : Nat → Ending}

theorem concerns_iff {e : Event} :
    h.concerns e = true ↔ e.isDirectory = false ∧ Path.baseName e.path ∈ h.watched := by
  simp [concerns]

@[simp] theorem notice_calls (h : Handler) (e : Event) : (h.notice e).calls = h.calls := by
  rw [notice]
  split <;> rfl

/-- Only the timer held is pending. -/
def HoldsPending (h : Handler) : Prop :=
  ∀ i t, h.timers[i]? = some t → t.pending = true → h.held = some i

/-- Nothing is pending once the timer held is stopped. -/
theorem HoldsPending.stopTimer (hh : h.HoldsPending) :
    ∀ t ∈ stopTimer h.held h.timers, t.pending = false := by
  intro t ht
  obtain ⟨i, hi⟩ := List.mem_iff_getElem?.1 ht
  by_contra hp
  rw [Bool.not_eq_false] at hp
  cases hheld : h.held with
  | none =>
    rw [hheld] at hi
    have := hh i t hi hp
    simp [hheld] at this
  | some j =>
    rw [hheld, Handler.stopTimer, List.getElem?_modify] at hi
    obtain ⟨u, hu, rfl⟩ := Option.map_eq_some_iff.1 hi
    by_cases hij : j = i
    · simp [hij] at hp
    · have := hh i u hu (by simpa [hij] using hp)
      simp [hheld, hij] at this

theorem holdsPending_of_forall (hno : ∀ t ∈ h.timers, t.pending = false) : h.HoldsPending := by
  intro i t hi hp
  simp [hno t (List.mem_of_getElem? hi)] at hp

/-- The handler after the given steps. -/
structure Follows (watched : List String) (ss : List Step) (h : Handler) : Prop where
  names : h.watched = watched
  held : h.HoldsPending
  due : h.timers.countP Timer.pending = (lastChange? watched (sinceQuiet ss)).toList.length
  lastPath : h.lastPath = lastChange? watched ss

theorem start_follows (watched : List String) (debounce : Number) :
    Follows watched [] (start watched debounce) :=
  ⟨rfl, holdsPending_of_forall (by simp [start]), rfl, rfl⟩

theorem Follows.notice (hf : Follows watched ss h) (e : Event) :
    Follows watched (ss ++ [.event e]) (h.notice e) := by
  cases hc : h.concerns e with
  | false =>
    have hchange : Step.change? watched (.event e) = none := by
      have hno : ¬ h.concerns e = true := by simp [hc]
      rw [concerns_iff, hf.names] at hno
      simp only [Step.change?, if_neg hno]
    rw [notice_of_not_concerns hc]
    refine ⟨hf.names, hf.held, ?_, ?_⟩
    · rw [sinceQuiet_concat_event, lastChange?_concat, hchange, Option.none_or, hf.due]
    · rw [lastChange?_concat, hchange, Option.none_or, hf.lastPath]
  | true =>
    have hchange : Step.change? watched (.event e) = some e.path := by
      have hyes := concerns_iff.1 hc
      rw [hf.names] at hyes
      simp only [Step.change?, if_pos hyes]
    have hstopped := hf.held.stopTimer
    have hcount : (stopTimer h.held h.timers).countP Timer.pending = 0 :=
      List.countP_eq_zero.2 fun t ht => by simp [hstopped t ht]
    have hlength : (stopTimer h.held h.timers).length = h.timers.length := by
      cases h.held <;> simp [stopTimer]
    rw [Handler.notice, if_pos hc]
    refine ⟨hf.names, ?_, ?_, ?_⟩
    · intro i t hi hp
      rcases lt_or_ge i h.timers.length with hlt | hge
      · rw [List.getElem?_append_left (hlength ▸ hlt)] at hi
        simp [hstopped t (List.mem_of_getElem? hi)] at hp
      · have hi' : i < h.timers.length + 1 := by
          have := (List.getElem?_eq_some_iff.1 hi).1
          simpa [hlength] using this
        simp only [Option.some.injEq]
        omega
    · rw [sinceQuiet_concat_event, lastChange?_concat, hchange]
      simp [hcount]
    · rw [lastChange?_concat, hchange]
      rfl

/-- A step after which nothing is pending, and which is no event. -/
theorem Follows.quiet (hf : Follows watched ss h) {s : Step} (hs : s.isEvent = false) {h' : Handler}
    (hnames : h'.watched = h.watched) (hpath : h'.lastPath = h.lastPath)
    (hno : ∀ t ∈ h'.timers, t.pending = false) : Follows watched (ss ++ [s]) h' := by
  have hchange : s.change? watched = none := by
    cases s <;> simp_all [Step.isEvent, Step.change?]
  refine ⟨hnames.trans hf.names, holdsPending_of_forall hno, ?_, ?_⟩
  · rw [sinceQuiet_concat_of_not_isEvent hs, lastChange?_nil]
    exact List.countP_eq_zero.2 fun t ht => by simp [hno t ht]
  · rw [lastChange?_concat, hchange, hpath, hf.lastPath, Option.none_or]

theorem Follows.step (hf : Follows watched ss h) (s : Step) :
    Follows watched (ss ++ [s]) (h.step ending s).1 := by
  cases s with
  | event e => exact hf.notice e
  | elapse => exact hf.quiet rfl rfl rfl (by simp [Handler.step, elapse])
  | cancel => exact hf.quiet rfl rfl rfl hf.held.stopTimer

theorem run_append (ss ss' : List Step) :
    h.run ending (ss ++ ss') =
      let before := h.run ending ss
      let after := before.1.run ending ss'
      (after.1, before.2 ++ after.2) := by
  induction ss generalizing h with
  | nil => rfl
  | cons s ss ih => simp [run, ih]

theorem run_concat (s : Step) :
    h.run ending (ss ++ [s]) =
      let before := h.run ending ss
      let after := before.1.step ending s
      (after.1, before.2 ++ after.2) := by
  simp [run_append, run]

theorem run_follows (watched : List String) (debounce : Number) (ss : List Step) :
    Follows watched ss ((start watched debounce).run ending ss).1 := by
  induction ss using List.reverseRecOn with
  | nil => exact start_follows watched debounce
  | append_singleton ss s ih =>
    rw [run_concat]
    exact ih.step s

/-- An expiry calls once if there was a change since the expiry or stop before. -/
theorem Follows.elapse_calls (hf : Follows watched ss h) :
    h.elapse.calls = h.calls ++ ((lastChange? watched (sinceQuiet ss)).map some).toList := by
  rw [elapse, hf.due]
  cases hlast : lastChange? watched (sinceQuiet ss) with
  | none => simp
  | some path => simp [hf.lastPath, lastChange?_of_sinceQuiet hlast]

theorem run_state (ending ending' : Nat → Ending) (h : Handler) (ss : List Step) :
    (h.run ending ss).1 = (h.run ending' ss).1 := by
  induction ss generalizing h with
  | nil => rfl
  | cons s ss ih =>
    have hstep : (h.step ending s).1 = (h.step ending' s).1 := by cases s <;> rfl
    simp only [run, hstep, ih]

def callLines (ending : Nat → Ending) (calls : List (Option String)) : List String :=
  (calls.zipIdx 1).flatMap fun c => changedText c.1 :: (ending c.2).report

theorem callLines_step (s : Step) :
    callLines ending (h.step ending s).1.calls =
      callLines ending h.calls ++ (h.step ending s).2 := by
  cases s with
  | event e => simp [step]
  | cancel => simp [step, cancel]
  | elapse =>
    simp [step, newCalls, elapse, callLines, callTexts, List.zipIdx_append, Nat.add_comm]

theorem callLines_run :
    callLines ending (h.run ending ss).1.calls =
      callLines ending h.calls ++ (h.run ending ss).2 := by
  induction ss generalizing h with
  | nil => simp [run]
  | cons s ss ih => rw [run, ih, callLines_step, List.append_assoc]

/-- What is true of a handler after the given steps, and of its next step. -/
structure Debounces (watched : List String) (ss : List Step) (h : Handler) : Prop where
  pending_le_one : h.timers.countP Timer.pending ≤ 1
  holdsPending : h.HoldsPending
  ignores : ∀ ending e, e.isDirectory = true ∨ Path.baseName e.path ∉ watched →
    h.step ending (.event e) = (h, [])
  calls_elapse : ∀ ending, (h.step ending .elapse).1.calls =
    h.calls ++ ((lastChange? watched (sinceQuiet ss)).map some).toList
  calls_of_ne : ∀ ending s, s ≠ .elapse → (h.step ending s).1.calls = h.calls
  lastPath : h.lastPath = lastChange? watched ss

theorem Follows.debounces (hf : Follows watched ss h) : Debounces watched ss h where
  pending_le_one := by
    rw [hf.due]
    cases lastChange? watched (sinceQuiet ss) <;> simp
  holdsPending := hf.held
  ignores := by
    intro ending e he
    have hc : h.concerns e = false := by
      rw [Bool.eq_false_iff, Ne, concerns_iff, hf.names]
      rcases he with he | he <;> simp [he]
    rw [Handler.step, notice_of_not_concerns hc]
  calls_elapse := fun _ => hf.elapse_calls
  calls_of_ne := by
    intro ending s hs
    cases s with
    | event e => exact notice_calls h e
    | elapse => exact absurd rfl hs
    | cancel => rfl
  lastPath := hf.lastPath

/-- Whatever happens to a handler, an expiry makes one call for the latest change since the expiry
or stop before it, if there was one, and how calls end only shows in the lines. -/
theorem run_debounces (watched : List String) (debounce : Number) (ending : Nat → Ending)
    (ss : List Step) :
    let finish := (start watched debounce).run ending ss
    finish.1.Debounces watched ss ∧
      finish.1 = ((start watched debounce).run (fun _ => .finished) ss).1 ∧
      finish.2 = callLines ending finish.1.calls :=
  ⟨(run_follows watched debounce ss).debounces, run_state .., by
    simpa [callLines, start] using (callLines_run (h := start watched debounce)).symm⟩

/-- A change that is followed by another one and by one of no interest; the call for it fails. -/
theorem run_debounces_restarted :
    let steps : List Step := [.event ⟨"a/document.json", false⟩, .event ⟨"b/document.json", false⟩,
      .event ⟨"b/notes.md", false⟩]
    let h := ((start ["document.json"] (.int 1)).run (fun _ => .failed "gone") steps).1
    h.Debounces ["document.json"] steps ∧
      (h.step (fun _ => .failed "gone") .elapse).1.calls = [some "b/document.json"] := by
  intro steps h
  obtain ⟨hd, -, -⟩ := run_debounces ["document.json"] (.int 1) (fun _ => .failed "gone") steps
  refine ⟨hd, ?_⟩
  rw [hd.calls_elapse]
  decide

end Handler

end DesignComponents.Watch
