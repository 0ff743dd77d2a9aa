import DesignComponents.Proofs.Config.Load
import DesignComponents.Proofs.Host.Agree

/-!
Settings read on two hosts. If they are the ones that differ, the warnings on them are all that
tells the hosts apart.
-/

namespace DesignComponents.Config

open Run (linesOf)

theorem validate_on (fs : List (String × Json)) (h : Host) :
    (liftM (validate (.obj fs)) : Run Unit).on h =
      (.ok (), { h with printed := h.printed ++ linesOf ((remarks fs).map Warning.line) }) := by
  rw [validate_eq]
  exact Run.bind_of_ok (Run.printAll_on _ h) _

theorem ofText_on {path text : String} {fs : List (String × Json)}
    (hread : Json.read (String.ofList (Files.unifyLineEnds text.toList)) = .ok (.obj fs))
    (h : Host) :
    (ofText path text).on h = (.ok (.obj fs),
      { h with printed := h.printed ++ linesOf ((remarks fs).map Warning.line) }) := by
  rw [ofText, hread]
  exact Run.bind_of_ok (validate_on fs h) _

namespace Replacement

variable {S : Replacement}

theorem Agree.ofText (path text : String) :
    S.Agree Eq (Config.ofText path text) (Config.ofText path text) := by
  unfold Config.ofText
  split
  · exact (liftTraced _).bind_eq fun _ => .pure rfl
  · exact (warn _).bind_eq fun _ => .pure rfl
  · exact .throw _

theorem load_alike (path : String) {ds : List Difference} {h h' : Host} (hh : S.Alike ds h h') :
    ∃ new, (new = [] ∨ new = [.warnings]) ∧
      Matches S.Values ((load path).on h).1 ((load path).on h').1 ∧
      S.Alike (ds ++ new) ((load path).on h).2 ((load path).on h').2 := by
  suffices hnothing : ((load path).on h').1 = ((load path).on h).1 ∧
      S.Alike ds ((load path).on h).2 ((load path).on h').2 ∨
      (load path).on h = (Config.ofText path S.before).on h ∧
        (load path).on h' = (Config.ofText path S.after).on h' by
    rcases hnothing with ⟨heq, hk⟩ | ⟨hbefore, hafter⟩
    · refine ⟨[], .inl rfl, ?_, by rwa [List.append_nil]⟩
      rw [heq]
      cases ((load path).on h).1 with
      | ok v => exact .ok (.same v)
      | error e => exact .error e
    · refine ⟨[.warnings], .inr rfl, ?_⟩
      rw [hbefore, hafter, ofText_on S.reads, ofText_on S.readsAfter, remarks_without S.misplaced]
      exact ⟨.ok .settings, { hh with printed := hh.printed.warnings }⟩
  rw [load_on, load_on, hh.here, hh.files.locate_eq]
  cases hl : Files.locate h.files h.workingDirectory (Path.tidy path) with
  | error e => cases e <;> exact .inl ⟨rfl, hh⟩
  | ok l =>
    dsimp only
    rcases hh.files l with heq | ⟨-, hbefore, hafter⟩
    · left
      rw [heq]
      cases Files.at? h.files l with
      | none => exact ⟨rfl, hh⟩
      | some c =>
        cases c with
        | directory => exact ⟨rfl, hh⟩
        | file text =>
          obtain ⟨hr, hk⟩ := Agree.ofText path text hh
          exact ⟨hr.eq.symm, hk⟩
    · rw [hbefore, hafter]
      exact .inr ⟨rfl, rfl⟩

end Replacement

end DesignComponents.Config
