import DesignComponents.CommandLine.Program
import DesignComponents.Proofs.Host.Run

/-!
A run of the program in two steps: the settings are read, then a command is carried out with them.
-/

namespace DesignComponents.CommandLine

open Run
open Watch (Turn)

/-- What a command does once the settings are read. -/
def act (path : String) (ts : List Turn) (config : Json) : Action → Run Finish
  | .snapshot fileKey => Session.snapshot fileKey config >>= fun _ => pure .normal
  | .display sources nodeIds save =>
    Session.display sources nodeIds save config >>= fun _ => pure .normal
  | .debug sources => Session.debug sources config >>= fun _ => pure .normal
  | .generate sources nodeIds output =>
    Session.generateCommand sources nodeIds output config >>= fun _ => pure .normal
  | .watch => Watch.run config path ts >>= fun w => pure ⟨none, some w⟩
  | .idle => Run.print usageText >>= fun _ => pure .normal

theorem perform_eq (path : String) (a : Action) (ts : List Turn) :
    perform ⟨some path, a⟩ ts = Config.load path >>= fun config => act path ts config a := by
  rw [perform]
  simp only [Arguments.configPath, lift_ok_bind]
  refine bind_congr fun config => ?_
  cases a <;> rfl

theorem perform_of_load {path : String} {config : Json} {h k : Host}
    (hload : (Config.load path).on h = (.ok config, k)) (a : Action) (ts : List Turn) :
    (perform ⟨some path, a⟩ ts).on h = (act path ts config a).on k := by
  rw [perform_eq, bind_of_ok hload]

theorem perform_eq_ok {a : Arguments} {ts : List Turn} {h h' : Host} {r : Finish}
    (hx : (perform a ts).on h = (.ok r, h')) :
    ∃ path config k, a.config = some path ∧ (Config.load path).on h = (.ok config, k) ∧
      (act path ts config a.action).on k = (.ok r, h') := by
  obtain ⟨given, action⟩ := a
  cases given with
  | none => simp [perform, Arguments.configPath, bind_on] at hx
  | some path =>
    rw [perform_eq] at hx
    obtain ⟨config, k, hload, hact⟩ := Run.bind_eq_ok.1 hx
    exact ⟨path, config, k, rfl, hload, hact⟩

theorem program_of_parse {args : List String} {a : Arguments} (hargs : parse args = .ok a)
    (ts : List Turn) : program args ts = perform a ts := by
  rw [program, hargs]

end DesignComponents.CommandLine
