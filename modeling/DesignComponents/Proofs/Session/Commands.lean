import DesignComponents.Proofs.Session.Load
import DesignComponents.Session.Commands

/-!
Commands in two steps: one that only looks at the host, and one that writes what it came to. What a
command writes, and where, is read off the second.
-/

namespace DesignComponents.Session

open Run

/-- The document and the nodes selected in it. -/
def selected (sources : Sources) (nodeIds : List (Option String)) (config : Json) :
    Run (Option (Document × List Node)) := do
  match ← loadDocument sources config with
  | none => pure none
  | some d => do
    let ids ← selectedIds nodeIds config
    if ids.isEmpty then
      Run.print "❌ 請使用 --node-id 或在 config 的 selection.nodeIds 指定要處理的節點。"
      pure none
    else
      let selection ← d.select ids
      pure (some (d, selection))

/-- What a command answers, as far as it gets, and what it prints then. -/
def answered (command : Command) (sources : Sources) (nodeIds : List (Option String))
    (config : Json) : Run (Option Answer) := do
  match ← selected sources nodeIds config with
  | none => pure none
  | some (d, selection) => do
    let answer ← carryOut d command selection
    pure (some answer)

theorem onSelection_eq (sources : Sources) (nodeIds : List (Option String)) (config : Json)
    (run : Document → List Node → Run Unit) :
    onSelection sources nodeIds config run = (do
      match ← selected sources nodeIds config with
      | none => pure ()
      | some (d, selection) => run d selection) := by
  simp only [onSelection, selected, bind_assoc]
  refine bind_congr fun found => ?_
  cases found with
  | none => rfl
  | some d =>
    simp only [bind_assoc]
    refine bind_congr fun ids => ?_
    split
    · simp only [bind_assoc, pure_bind]
      rfl
    · simp only [bind_assoc, pure_bind]

/-- Save outlines if that is asked for. -/
def keep (save : Bool) (config : Json) : Option Answer → Run Unit
  | some (.outlines os) =>
    if save then do
      let path ← saveOutlines os (← Config.snapshotDir config)
      Run.print ("📄 IR saved to " ++ path)
    else pure ()
  | _ => pure ()

theorem display_eq (sources : Sources) (nodeIds : List (Option String)) (save : Bool)
    (config : Json) :
    display sources nodeIds save config =
      answered .display sources nodeIds config >>= keep save config := by
  simp only [display, onSelection_eq, answered, bind_assoc]
  refine bind_congr fun found => ?_
  rcases found with _ | ⟨d, selection⟩
  · rfl
  · simp only [bind_assoc, pure_bind]
    refine bind_congr fun answer => ?_
    cases answer <;> cases save <;> rfl

def posted : Option Answer → List Message
  | some answer => answer.posted
  | none => []

theorem generateCommand_eq (sources : Sources) (nodeIds : List (Option String))
    (output : Option String) (config : Json) :
    generateCommand sources nodeIds output config =
      answered .generate sources nodeIds config >>= fun a => deliverAll output (posted a) := by
  simp only [generateCommand, onSelection_eq, answered, bind_assoc]
  refine bind_congr fun found => ?_
  rcases found with _ | ⟨d, selection⟩
  · rfl
  · simp only [bind_assoc, pure_bind]
    rfl

theorem carryOut_observes (d : Document) (command : Command) (selection : List Node) :
    Observes (carryOut d command selection) := by
  apply (Observes.lift _).bind
  intro session
  apply (Observes.liftTraced _).bind
  intro answer
  exact (Observes.printAll _).bind fun _ => .pure _

theorem selected_observes (sources : Sources) (nodeIds : List (Option String)) (config : Json) :
    Observes (selected sources nodeIds config) := by
  apply (loadDocument_observes _ _).bind
  rintro (_ | d)
  · exact .pure _
  · apply (Observes.lift _).bind
    intro ids
    split
    · exact (Observes.print _).bind fun _ => .pure _
    · exact (Observes.liftTraced _).bind fun _ => .pure _

theorem answered_observes (command : Command) (sources : Sources)
    (nodeIds : List (Option String)) (config : Json) :
    Observes (answered command sources nodeIds config) := by
  apply (selected_observes _ _ _).bind
  rintro (_ | ⟨d, selection⟩)
  · exact .pure _
  · exact (carryOut_observes _ _ _).bind fun _ => .pure _

theorem debug_observes (sources : Sources) (config : Json) : Observes (debug sources config) := by
  apply (loadDocument_observes _ _).bind
  rintro (_ | d)
  · exact .pure _
  · exact (carryOut_observes _ _ _).bind fun _ => .pure _

end DesignComponents.Session
