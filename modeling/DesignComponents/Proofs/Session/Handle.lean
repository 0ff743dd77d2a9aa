import DesignComponents.Proofs.Component.Names
import DesignComponents.Proofs.Outline.Typed
import DesignComponents.Proofs.Variable.Collections
import DesignComponents.Session.Pipeline

/-!
Commands on a document with fields of their types: none of them fails, and what is posted is told
by the command, the selection and whether a component can be assembled.
-/

namespace DesignComponents

namespace Session

variable {d : Document} {s : Session} {selection : List Node}

structure IsTyped (s : Session) : Prop where
  document : s.document.IsTyped
  vars : s.vars.IsTyped

theorem ofDocument_yields (hd : d.IsTyped) :
    Yields (ofDocument d) fun s => s.IsTyped ∧ s.document = d := by
  obtain ⟨fs, hvars, -⟩ := Shape.exists_of_tableOf hd.variableData
  obtain ⟨gs, hcollections, -⟩ := Shape.exists_of_tableOf hd.collectionData
  have htable := hvars ▸ hd.variableData
  have hcols := hcollections ▸ hd.collectionData
  simp only [ofDocument, Document.localVariables, Document.localCollections, hvars, hcollections,
    Json.table_obj, ok_bind]
  exact Yields.ok_iff.2 ⟨⟨hd, ⟨fs, rfl, htable⟩, ⟨gs, rfl, hcols⟩⟩, rfl⟩

/-- The message for a selection: the source of the component assembled from its only node, else a
complaint. -/
inductive Explains (d : Document) (selection : List Node) : Message → Prop
  | component {root : Node} {c : Component} {source : String} : selection = [root] →
      (d.assemble root).result = .ok c → c.source = .ok source →
      Explains d selection (.component source)
  | error (text : String) : (∀ root c, selection = [root] → (d.assemble root).result ≠ .ok c) →
      Explains d selection (.error text)

theorem generate_yields (hd : d.IsTyped) (hs : ∀ n ∈ selection, n.IsScene) :
    Yields (generate d selection).result (Explains d selection) := by
  match selection, hs with
  | [], _ => exact Yields.ok_iff.2 (.error _ (by simp))
  | _ :: _ :: _, _ => exact Yields.ok_iff.2 (.error _ (by simp))
  | [root], hs =>
    have hends := Document.assemble_ends hd (hs root (.head _))
    cases hc : (d.assemble root).result with
    | ok c =>
      rw [hc] at hends
      obtain ⟨name, hname⟩ := hends.name
      obtain ⟨source, hsource, -⟩ := Component.source_yields hname hends.tree
      simp only [generate, hc, Traced.bind_result, ok_bind, Traced.lift_result, hsource]
      exact Yields.ok_iff.2 (.component rfl hc hsource)
    | error e =>
      rw [hc] at hends
      obtain ⟨r, rfl⟩ := hends
      simp only [generate, hc]
      refine Yields.ok_iff.2 (.error _ ?_)
      rintro root c h
      obtain rfl : _ = root := by simpa using h
      simp [hc]

/-- The message that a command other than those that show data posts. -/
structure Replies (d : Document) (name : String) (selection : List Node) (m : Message) : Prop where
  react_iff : m.type = "react" ↔ (name = "react" ∨ name = "generate") ∧
    ∃ root c, selection = [root] ∧ (d.assemble root).result = .ok c
  source : ∀ root c, m.type = "react" → selection = [root] →
    (d.assemble root).result = .ok c → c.source = .ok m.text
  error : m.type ≠ "react" → m.type = "error"

theorem Explains.replies {name : String} {m : Message} (h : Explains d selection m)
    (hname : name = "react" ∨ name = "generate") : Replies d name selection m := by
  cases h with
  | @component root c source hroot hc hsource =>
    refine ⟨⟨fun _ => ⟨hname, root, c, hroot, hc⟩, fun _ => rfl⟩, ?_, fun h => absurd rfl h⟩
    rintro root' c' - hroot' hc'
    obtain rfl : root = root' := by simpa [hroot] using hroot'
    obtain rfl := Except.ok.inj (hc.symm.trans hc')
    exact hsource
  | error text hnone =>
    have htype : Message.type (.error text) ≠ "react" := by simp [Message.type]
    refine ⟨⟨fun h => absurd h htype, ?_⟩, fun _ _ h => absurd h htype, fun _ => rfl⟩
    rintro ⟨-, root, c, hroot, hc⟩
    exact absurd hc (hnone root c hroot)

theorem unknownCommand_replies (d : Document) (selection : List Node) {name : String}
    (hreact : name ≠ "react") (hgenerate : name ≠ "generate") :
    Replies d name selection (unknownCommand name) := by
  have htype : (unknownCommand name).type ≠ "react" := by simp [unknownCommand, Message.type]
  refine ⟨⟨fun h => absurd h htype, ?_⟩, fun _ _ h => absurd h htype, fun _ => rfl⟩
  rintro ⟨hname, -⟩
  exact absurd hname (not_or.2 ⟨hreact, hgenerate⟩)

/-- The answer to a command: nothing is posted where data is shown, else the answer itself. -/
structure Answers (d : Document) (name : String) (selection : List Node) (a : Answer) : Prop where
  silent : name = "display" ∨ name = "debug" → a.posted = []
  posted : name ≠ "display" → name ≠ "debug" →
    ∃ m, a = .message m ∧ a.posted = [m] ∧ Replies d name selection m

theorem Replies.answers {name : String} {m : Message} (h : Replies d name selection m)
    (hdisplay : name ≠ "display") (hdebug : name ≠ "debug") :
    Answers d name selection (.message m) :=
  ⟨fun hname => absurd hname (not_or.2 ⟨hdisplay, hdebug⟩), fun _ _ => ⟨m, rfl, rfl, h⟩⟩

theorem handle_yields (hs : s.IsTyped) (name : String) (hsel : ∀ n ∈ selection, n.IsScene) :
    Yields (s.handle (Command.ofName name) selection).result
      (Answers s.document name selection) := by
  unfold Command.ofName
  split_ifs with hdisplay hdebug hgenerate
  · subst hdisplay
    rw [handle, Traced.map_result]
    apply (Document.visitAll_yields hs.document hsel).map
    intro os _
    exact ⟨fun _ => rfl, fun h => absurd rfl h⟩
  · subst hdebug
    rw [handle, Traced.map_result]
    apply (Variables.resolveAll_yields hs.vars).map
    intro cs _
    exact ⟨fun _ => rfl, fun _ h => absurd rfl h⟩
  · rw [handle, Traced.map_result]
    apply (generate_yields hs.document hsel).map
    intro m hm
    exact (hm.replies hgenerate).answers hdisplay hdebug
  · obtain ⟨hreact, hgenerate⟩ := not_or.1 hgenerate
    have h := unknownCommand_replies s.document selection hreact hgenerate
    exact Yields.ok_iff.2 (h.answers hdisplay hdebug)

/-- No command on a file of typed fields fails, whatever nodes are selected. -/
theorem handle_total {file variableFile : Json} (hfile : Shape.file file = true)
    (hvariables : Shape.orNull Shape.variableFile variableFile = true) :
    ∃ d s, Document.ofJson file variableFile = .ok d ∧ ofDocument d = .ok s ∧
      ∀ name selection, (∀ n ∈ selection, n.IsScene) →
        ∃ a, (s.handle (Command.ofName name) selection).result = .ok a ∧
          Answers d name selection a := by
  obtain ⟨d, hd, htyped⟩ := Document.ofJson_yields hfile hvariables
  obtain ⟨s, hs, hsession, rfl⟩ := ofDocument_yields htyped
  exact ⟨s.document, s, hd, hs, fun name selection hsel => handle_yields hsession name hsel⟩

/-- A set with a variant that shows a component of the same file. -/
def buttonSet : Json :=
  let scene (id type : String) (own : List (String × Json)) (children : List Json) : Json :=
    .obj ([("id", .str id), ("type", .str type), ("children", .arr children)] ++ own)
  scene "1" "COMPONENT_SET" [("name", .str "Button")] [
    scene "1:1" "COMPONENT" [] [scene "1:2" "INSTANCE" [("componentId", .str "2")] []],
    scene "2" "COMPONENT" [("opacity", .num (.int 1))] [
      scene "2:1" "TEXT" [("characters", .str "Press")] []]]

/-- A variable that is an alias of itself, in a collection with one mode. -/
def selfAlias : Json :=
  let link : Json := .obj [("type", .str "VARIABLE_ALIAS"), ("id", .str "ink")]
  .obj [("meta", .obj [
    ("variables", .obj [("ink", .obj [("valuesByMode", .obj [("light", link)])])]),
    ("variableCollections", .obj [("all", .obj [
      ("modes", .arr [.obj [("modeId", .str "light"), ("name", .str "Light")]]),
      ("variableIds", .arr [.str "ink"])])])])]

theorem handle_total_button :
    let root := Node.ofJson (some []) buttonSet
    ∃ d s m, Document.ofJson (.obj [("document", buttonSet)]) selfAlias = .ok d ∧
      ofDocument d = .ok s ∧
      (s.handle (Command.ofName "react") [root]).result = .ok (.message m) ∧ m.type = "react" := by
  intro root
  have hroot : root.IsScene := ⟨some [], buttonSet, rfl, by decide⟩
  have hfile : Shape.file (.obj [("document", buttonSet)]) = true := by decide
  have hvariables : Shape.orNull Shape.variableFile selfAlias = true := by decide
  obtain ⟨d, s, hd, hs, hall⟩ := handle_total hfile hvariables
  obtain ⟨a, ha, hanswers⟩ := hall "react" [root] (by simpa using hroot)
  obtain ⟨m, rfl, -, hreplies⟩ := hanswers.posted (by decide) (by decide)
  have hrun : (Document.ofJson (.obj [("document", buttonSet)]) selfAlias >>= fun d =>
      (d.assemble root).result.map fun _ => ()).toOption = some () := by
    decide +kernel
  rw [toOption_eq_some, hd, ok_bind, map_eq_ok] at hrun
  obtain ⟨c, hc, -⟩ := hrun
  exact ⟨d, s, m, hd, hs, ha, hreplies.react_iff.2 ⟨.inl rfl, root, c, rfl, hc⟩⟩

end Session

end DesignComponents
