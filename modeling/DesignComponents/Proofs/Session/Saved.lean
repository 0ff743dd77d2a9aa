import DesignComponents.Proofs.Json.ReadBack
import DesignComponents.Proofs.Markup.Data
import DesignComponents.Proofs.Outline.Regular
import DesignComponents.Proofs.Session.Changes

/-!
Nothing is lost in the data of outlines and of presentation trees, nor in the file that outlines are
saved in: each can be read back.
-/

namespace DesignComponents

open Run

/-- Regular data is read back from a file too, in which all line ends are taken for plain ones. -/
theorem Json.IsRegular.isReadBack {v : Json} (hv : v.IsRegular) : v.IsReadBack := by
  rw [Json.IsReadBack, Files.unifyLineEnds_of_notMem v.carriageReturn_notMem_lines,
    String.ofList_toList]
  exact hv.read_lines

namespace Session

/-- The outlines that are saved in some data. -/
def savedIn? (v : Json) : Option (List Outline) := (v.lookup? "roots").bind Outline.childrenOf?

variable {os : List Outline} {directory : Json} {path : String} {h h' : Host}

theorem savedIn?_saved (clock : String) (hos : ∀ o ∈ os, o.HasTextKeys) :
    savedIn? (saved clock os) = some os :=
  Outline.ofJsonAll?_map fun o ho => Outline.ofJson?_toJson (hos o ho)

theorem saved_isRegular (clock : String) (hos : ∀ o ∈ os, o.toJson.IsRegular) :
    (saved clock os).IsRegular := by
  refine .obj (by simp) ?_
  simpa using hos

theorem saveOutlines_content (hx : (saveOutlines os directory).on h = (.ok path, h')) :
    Files.content? h'.files h'.workingDirectory path = some (.file (saved h.clock os).lines) := by
  obtain ⟨_, files, rfl, rfl, rfl, hcontent, -⟩ := saveOutlines_eq_ok hx
  exact hcontent

theorem readJson_of_saveOutlines (hos : ∀ o ∈ os, o.toJson.IsRegular)
    (hx : (saveOutlines os directory).on h = (.ok path, h')) :
    (readJson path).on h' = (.ok (saved h.clock os), h') := by
  rw [readJson_on_of_content (saveOutlines_content hx),
    (saved_isRegular h.clock hos).isReadBack.data path]

/-- Outlines whose modes are set under texts are read back from their data, and presentation trees
from theirs, which they have if their types and contents are texts. Outlines that are saved are
read back from the data that is written, which is what is read from the file if they are regular.
Outlines of visited scenes have their modes under texts, and they are regular if the scenes were
read from a text. -/
theorem data_reads :
    (∀ o : Outline, o.HasTextKeys → Outline.ofJson? o.toJson = some o) ∧
      (∀ (m : Markup) v, m.toJson = .ok v → Markup.ofJson? v = some m) ∧
      (∀ m, Markup.Consists (fun _ => True) (fun _ => True) m → ∃ v, m.toJson = .ok v) ∧
      (∀ os directory path h h', (∀ o ∈ os, o.HasTextKeys) →
        (saveOutlines os directory).on h = (.ok path, h') →
          ∃ v, Files.content? h'.files h'.workingDirectory path = some (.file v.lines) ∧
            savedIn? v = some os ∧
              ((∀ o ∈ os, o.toJson.IsRegular) → (readJson path).on h' = (.ok v, h'))) ∧
      ∀ (d : Document) ns os, (∀ n ∈ ns, n.IsScene) → (d.visitAll ns).result = .ok os →
        (∀ o ∈ os, o.HasTextKeys) ∧
          ∀ text file variableFile ids, Json.read text = .ok file →
            Document.ofJson file variableFile = .ok d → (d.select ids).result = .ok ns →
              ∀ o ∈ os, o.toJson.IsRegular := by
  refine ⟨fun o => Outline.ofJson?_toJson, fun m v => Markup.ofJson?_of_toJson,
    fun m => Markup.Consists.toJson_yields, fun os directory path h h' hos hx => ?_,
    fun d ns os hns hvisit => ⟨Document.visitAll_textKeys hns hvisit, ?_⟩⟩
  · exact ⟨saved h.clock os, saveOutlines_content hx, savedIn?_saved h.clock hos,
      fun hregular => readJson_of_saveOutlines hregular hx⟩
  · intro text file variableFile ids hread hd hselect
    have hregular := (Document.ofJson_regular (Json.read_isRegular hread) variableFile).of_ok hd
    have hnodes := (Document.select_regular hregular ids).of_ok hselect
    exact Document.visitAll_regular hregular (fun n hn => ⟨hns n hn, hnodes n hn⟩) hvisit

/-- A component with a schema and modes that are empty, and two nodes in it: of one no property
values are known, of the other that there are none. -/
def card : Outline :=
  .node { name := .str "Card", id := .str "1", propertySchema := some [], modes := some [] } [
    .node { name := .str "Base", id := .str "2", css := some [] } [],
    .node { name := .str "Base", id := .str "2", css := some [], propertyValues := some [],
            modes := some [(.str "c", .str "m")] } []]

/-- A text and elements with one word: without a style, with an empty style, and with an empty list
of children. -/
def cardMarkup : Markup :=
  .box (.str "Box") (some []) [
    .text (.str "Base"), .leaf (.str "Base") none, .leaf (.str "Base") (some []),
    .box (.str "Base") none []]

theorem cardMarkup_consists : cardMarkup.Consists (fun _ => True) (fun _ => True) := by
  refine .box (by simp) ?_
  simp only [List.forall_mem_cons, List.not_mem_nil, false_imp_iff, implies_true, and_true]
  exact ⟨.text trivial, .leaf (by simp), .leaf (by simp), .box (by simp) (List.forall_mem_nil _)⟩

/-- A component with a mode for one collection. -/
def cardScene : Json :=
  .obj [("type", .str "COMPONENT"), ("id", .str "1"),
    ("explicitVariableModes", .obj [("c", .str "m")])]

def cardFile : Json := .obj [("document", cardScene)]

theorem cardFile_isRegular : cardFile.IsRegular := by
  simp [cardFile, cardScene, Json.isRegular_obj]

def bareHost : Host where
  files := [(["w"], .directory)]
  workingDirectory := ["w"]
  token := none
  network := fun _ => .response 404 "Not Found" ""
  clock := "now"
  printed := ""
  requests := []

theorem data_reads_card :
    (card.HasTextKeys ∧ Outline.ofJson? card.toJson = some card) ∧
      (∃ v, cardMarkup.toJson = .ok v ∧ Markup.ofJson? v = some cardMarkup) ∧
      ∃ d n os path h' v, Json.read cardFile.lines = .ok cardFile ∧
        Document.ofJson cardFile .null = .ok d ∧ (d.select [.str "1"]).result = .ok [n] ∧
        (d.visitAll [n]).result = .ok os ∧
        (saveOutlines os (.str "out")).on bareHost = (.ok path, h') ∧
        Files.content? h'.files h'.workingDirectory path = some (.file v.lines) ∧
        (readJson path).on h' = (.ok v, h') ∧ savedIn? v = some os := by
  obtain ⟨houtline, hmarkup, hyields, hsaved, hvisited⟩ := data_reads
  have hcard : card.HasTextKeys := by
    simp [card, Outline.HasTextKeys, Facts.HasTextKeys, Tree.preorder, Tree.preorderAll]
  obtain ⟨v, hv⟩ := hyields cardMarkup cardMarkup_consists
  obtain ⟨d, hd, htyped⟩ := Document.ofJson_yields (show Shape.file cardFile = true by decide)
    (show Shape.orNull Shape.variableFile .null = true by decide)
  have hselect : (d.select [.str "1"]).result = .ok [Node.ofJson (some []) cardScene] := by
    obtain rfl := Except.ok.inj (hd.symm.trans rfl)
    rfl
  have hscenes : ∀ n ∈ [Node.ofJson (some []) cardScene], n.IsScene :=
    List.forall_mem_singleton.2 ⟨_, _, rfl, by decide⟩
  obtain ⟨os, hos, -⟩ := Document.visitAll_yields htyped hscenes
  obtain ⟨hkeys, hregular⟩ := hvisited d _ os hscenes hos
  have hregular := hregular cardFile.lines _ .null [.str "1"] cardFile_isRegular.read_lines hd
    hselect
  obtain ⟨path, hsave⟩ := exists_ok (x := saveOutlines os (.str "out")) (h := bareHost) rfl
  obtain ⟨w, hcontent, hroots, hreads⟩ := hsaved os _ path _ _ hkeys hsave
  exact ⟨⟨hcard, houtline card hcard⟩, ⟨v, hv, hmarkup cardMarkup v hv⟩, d, _, os, path, _, w,
    cardFile_isRegular.read_lines, hd, hselect, hos, hsave, hcontent, hreads hregular, hroots⟩

end Session

end DesignComponents
