import FlowDiagram.Proofs.Command.Delivery
import FlowDiagram.Proofs.Markup.Records
import FlowDiagram.Proofs.Metadata

/-!
# Runs of the command

A run brings an output out if its input is a text that is read as a document and the place for the output is usable
(`Command.Serves`). Main statement (`Command.run_delivers_or_leaves_files`): these are the runs that succeed. What is printed,
or written to the one file, is the document's flow, compiled and rendered as the arguments say, and a diagram is the one
that is drawn of the document without the command, whatever the flow is called. Every other run fails, prints nothing and
leaves all files as they are.
-/

namespace FlowDiagram

namespace Command

open FileTree

/-! ## What is produced -/

/-- A text that is read as a document compiles to the completed flow of the document's entries. -/
theorem compileDocument_value_ok (o : BuildOptions) {text : String} {d : Document} (h : (Document.read text).value = .ok d) :
    (compileDocument o text).value = .ok (assembled o d.entries).completed := by
  rw [compileDocument, Logged.value_bind, h]
  exact compile_value o d.entries

/-- A text that is not read as a document compiles to nothing, and the failure gives the fault of the text. -/
theorem compileDocument_value_error (o : BuildOptions) {text : String} {cause : Markup.Fault}
    (h : (Document.read text).value = .error cause) : (compileDocument o text).value = .error (.malformed cause) := by
  rw [compileDocument, Logged.value_bind, h]
  rfl

/-- The flow that a document compiles to under the arguments of the command. -/
def compiled (a : Arguments) (d : Document) : Flow :=
  (assembled { name := some (a.name.getD (Path.flowName a.path)), faults := a.options.faults } d.entries).completed

/-- Of a text that is read as a document, its flow is produced, rendered as the arguments say. -/
theorem produce_value_ok (a : Arguments) {text : String} {d : Document} (h : (Document.read text).value = .ok d) :
    (produce a text).value = .ok ((compiled a d).render a.format a.options).value := by
  rw [produce, Logged.value_bind, compileDocument_value_ok _ h]
  rfl

/-- Of a text that is not read as a document nothing is produced, and the failure gives the fault of the text. -/
theorem produce_value_error (a : Arguments) {text : String} {cause : Markup.Fault}
    (h : (Document.read text).value = .error cause) : (produce a text).value = .error (.malformed cause) := by
  rw [produce, Logged.value_bind, compileDocument_value_error _ h]
  rfl

/-- A diagram is the same under any name, given to the command or found by it: the flows differ in what they are called, which
no bare flow tells. -/
theorem drawDocument_value (a : Arguments) {text : String} {d : Document} (h : (Document.read text).value = .ok d) :
    (drawDocument a.options text).value = .ok ((compiled a d).draw a.options).value := by
  have hbare : (assembled { faults := a.options.faults } d.entries).completed.bare = (compiled a d).bare := by
    rw [compiled, Flow.bare_completed, Flow.bare_completed]
    exact congrArg Flow.completed (bare_assembled_congr rfl rfl)
  have hchart : (assembled { faults := a.options.faults } d.entries).completed.chart a.options =
      (compiled a d).chart a.options := by
    rw [← Flow.chart_bare, hbare, Flow.chart_bare]
  rw [drawDocument, Logged.value_bind, compileDocument_value_ok _ h]
  change Except.ok _ = _
  rw [Flow.value_draw, Flow.value_draw, hchart]

/-! ## How a run goes -/

/-- A run reads its input, produces a rendering of it and delivers that, and it ends with the first of these steps that
fails. -/
theorem run_perform (a : Arguments) (t : FileTree) :
    (perform operations a).run t =
      match t.read a.path with
      | .error e => (pure (.failed (Failure.unreadable a.path e).message), t)
      | .ok text =>
        match (produce a text).value with
        | .error e => (⟨shown a.verbosity (produce a text).notices, .failed e.message⟩, t)
        | .ok rendered =>
          let (outcome, after) := (deliver operations a.output rendered).run t
          (⟨shown a.verbosity (produce a text).notices, outcome⟩, after) := by
  rw [perform, run_bind, show (operations.read a.path).run t = (t.read a.path, t) from rfl]
  dsimp only
  cases t.read a.path with
  | error e => rfl
  | ok text =>
    dsimp only
    cases (produce a text).value <;> rfl

/-- A run has what it needs: a text that is read as a document, and a usable place for the output. -/
structure Serves (a : Arguments) (t : FileTree) (text : String) (d : Document) : Prop where
  input : t.read a.path = .ok text
  document : (Document.read text).value = .ok d
  output : ∀ path ∈ a.output, t.Usable path

/-- There is one text at the input path, and one document in it. -/
theorem Serves.unique {a : Arguments} {t : FileTree} {text text' : String} {d d' : Document} (h : Serves a t text d)
    (h' : Serves a t text' d') : text = text' ∧ d = d' := by
  obtain rfl : text = text' := Except.ok.inj (h.input.symm.trans h'.input)
  obtain rfl : d = d' := Except.ok.inj (h.document.symm.trans h'.document)
  exact ⟨rfl, rfl⟩

/-- A text came out of a run where the arguments say, and nowhere else. -/
def Delivered (a : Arguments) (t after : FileTree) (outcome : Outcome) (rendered : String) : Prop :=
  match a.output with
  | none => outcome.output = rendered ∧ after = t
  | some path => outcome.output = "" ∧ t.Rewrites after path rendered.toUTF8

/-- A run that has what it needs succeeds, and what comes out of it is the rendering of the document's flow. -/
theorem run_perform_of_serves {a : Arguments} {t : FileTree} {text : String} {d : Document} (h : Serves a t text d) :
    ∃ result after, (perform operations a).run t = (result, after) ∧ result.value.exitCode = 0 ∧
      Delivered a t after result.value ((compiled a d).render a.format a.options).value := by
  rw [run_perform, h.input]
  dsimp only
  rw [produce_value_ok a h.document]
  dsimp only
  unfold Delivered
  cases houtput : a.output with
  | none => exact ⟨_, _, rfl, rfl, rfl, rfl⟩
  | some path =>
    obtain ⟨after, hrun, hafter⟩ := run_deliver_of_usable (h.output path houtput)
      ((compiled a d).render a.format a.options).value
    rw [hrun]
    exact ⟨_, after, rfl, rfl, rfl, hafter⟩

/-- A run that lacks something it needs fails, prints nothing and leaves all files as they are. If its input is read as a
document, all that can be missing is a place for the output. -/
theorem run_perform_of_not_serves {a : Arguments} {t : FileTree} (h : ∀ text d, ¬Serves a t text d) :
    ∃ result after, (perform operations a).run t = (result, after) ∧ result.value.exitCode = 1 ∧
      result.value.output = "" ∧ after.files = t.files := by
  rw [run_perform]
  cases htext : t.read a.path with
  | error e => exact ⟨_, t, rfl, rfl, rfl, rfl⟩
  | ok text =>
    dsimp only
    cases hdocument : (Document.read text).value with
    | error cause =>
      rw [produce_value_error a hdocument]
      exact ⟨_, t, rfl, rfl, rfl, rfl⟩
    | ok d =>
      rw [produce_value_ok a hdocument]
      have houtput : ∃ path, a.output = some path ∧ ¬t.Usable path := by
        by_contra hall
        refine h text d ⟨htext, hdocument, ?_⟩
        intro path hpath
        by_contra hnot
        exact hall ⟨path, hpath, hnot⟩
      obtain ⟨path, hpath, hnot⟩ := houtput
      obtain ⟨message, after, hrun, hafter⟩ := run_deliver_of_not_usable hnot
        ((compiled a d).render a.format a.options).value
      dsimp only
      rw [hpath, hrun]
      exact ⟨_, after, rfl, rfl, rfl, hafter⟩

/-- A run that has what it needs succeeds. It prints the document's flow, compiled and rendered as the arguments say, or makes it
the content of the one file that the output path leads to. A diagram is the one drawn of the document itself. Every other
run fails, prints nothing and leaves all files as they are. -/
theorem run_delivers_or_leaves_files {arguments : List String} {a : Arguments} (h : Arguments.parse arguments = .ok a)
    (t : FileTree) :
    ∃ result after, (run operations arguments).run t = (result, after) ∧
      (∀ text d, Serves a t text d →
        ∃ f,
          (compile { name := some (a.name.getD (Path.flowName a.path)), faults := a.options.faults } d.source).value = .ok f ∧
          result.value.exitCode = 0 ∧ Delivered a t after result.value (f.render a.format a.options).value ∧
          (a.format = .mermaid →
            (drawDocument a.options text).value = .ok (f.render a.format a.options).value)) ∧
      ((∀ text d, ¬Serves a t text d) →
        result.value.exitCode = 1 ∧ result.value.output = "" ∧ after.files = t.files) := by
  have hrun : run operations arguments = perform operations a := by
    rw [run, h]
  rw [hrun]
  by_cases hserves : ∃ text d, Serves a t text d
  · obtain ⟨text, d, hserves⟩ := hserves
    obtain ⟨result, after, hperform, hcode, hdelivered⟩ := run_perform_of_serves hserves
    refine ⟨result, after, hperform, ?_, fun hnone => absurd hserves (hnone text d)⟩
    intro text' d' hserves'
    obtain ⟨rfl, rfl⟩ := hserves.unique hserves'
    refine ⟨compiled a d, compile_value _ d.entries, hcode, hdelivered, ?_⟩
    intro hformat
    rw [hformat]
    exact drawDocument_value a hserves.document
  · have hnone : ∀ text d, ¬Serves a t text d := fun text d hs => hserves ⟨text, d, hs⟩
    obtain ⟨result, after, hperform, hfailed⟩ := run_perform_of_not_serves hnone
    exact ⟨result, after, hperform, fun text d hs => absurd hs (hnone text d), fun _ => hfailed⟩

/-- A start that leads to a step. -/
def greeting : String :=
  "<Flow><start><connector><targetReference>Greet</targetReference></connector></start>" ++
    "<screens><name>Greet</name></screens></Flow>"

/-- The text is read as a document. -/
theorem exists_read_greeting : ∃ d, (Document.read greeting).value = .ok d := by
  have htokens : Markup.Tokens.ofText greeting.toList =
      ⟨(Markup.Node.branch {} { chars := "Flow".toList }
        [.branch {} { chars := "start".toList }
          [.branch {} { chars := "connector".toList }
            [.leaf {} { chars := "targetReference".toList } (.text { chars := "Greet".toList })] {}] {},
          .branch {} { chars := "screens".toList }
            [.leaf {} { chars := "name".toList } (.text { chars := "Greet".toList })] {}] {}).spell Markup.tokens ++ [],
        none⟩ := by
    decide +kernel
  have hread := Markup.readDocument_of_ofText (by decide : Markup.Node.allFit Document.fields _ = true) _ Document.title _ _
    htokens (.finished {})
  rw [show String.ofList "Flow".toList = Document.rootName from String.ofList_toList] at hread
  rw [Document.read, hread]
  exact ⟨_, rfl⟩

/-- A diagram is to be put in a directory, under a name that it does not show. -/
def chartArguments : Arguments where
  path := "flow.xml"
  format := .mermaid
  output := some "out/chart.mmd"
  options := {}
  name := some "Greeting"
  verbosity := 0

/-- A flow among other files. -/
def folder (others : List (List String × ByteArray)) : FileTree :=
  { files := (["flow.xml"], greeting.toUTF8) :: others }

/-- The directory of the output can be made, but not where a file has its name. -/
theorem usable_folder : (folder []).Usable "out/chart.mmd" ∧ ¬(folder [(["out"], .empty)]).Usable "out/chart.mmd" := by
  refine ⟨⟨["out", "chart.mmd"], [["out"]], .vacant ["out", "chart.mmd"], rfl, rfl⟩, ?_⟩
  rintro ⟨place, made, x, hspot, -⟩
  have hfile : ((folder [(["out"], .empty)]).withDirectories made).spot "out/chart.mmd" = .error .notDirectory := rfl
  rw [hfile] at hspot
  cases hspot

/-- The diagram is put in a new directory. Where a file is in its way, the files stay as they are. -/
theorem run_delivers_or_leaves_files_greeting :
    Arguments.parse ["flow.xml", "-o", "out/chart.mmd", "--name=Greeting"] = .ok chartArguments ∧
      (∃ d f result after, Serves chartArguments (folder []) greeting d ∧
        (run operations ["flow.xml", "-o", "out/chart.mmd", "--name=Greeting"]).run (folder []) = (result, after) ∧
        (compile { name := some "Greeting" } d.source).value = .ok f ∧ result.value.exitCode = 0 ∧
        result.value.output = "" ∧ (folder []).Rewrites after "out/chart.mmd" (f.draw {}).value.toUTF8 ∧
        (drawDocument {} greeting).value = .ok (f.draw {}).value) ∧
      ∃ result after,
        (run operations ["flow.xml", "-o", "out/chart.mmd", "--name=Greeting"]).run (folder [(["out"], .empty)]) =
          (result, after) ∧
        result.value.exitCode = 1 ∧ result.value.output = "" ∧ after.files = (folder [(["out"], .empty)]).files := by
  have hparse : Arguments.parse ["flow.xml", "-o", "out/chart.mmd", "--name=Greeting"] = .ok chartArguments := rfl
  obtain ⟨d, hread⟩ := exists_read_greeting
  obtain ⟨husable, hnot⟩ := usable_folder
  have hserves : Serves chartArguments (folder []) greeting d := by
    refine ⟨read_of_spot rfl, hread, ?_⟩
    rintro path ⟨⟩
    exact husable
  have hblocked : ∀ text d, ¬Serves chartArguments (folder [(["out"], .empty)]) text d :=
    fun _ _ h => hnot (h.output _ rfl)
  obtain ⟨result, after, hrun, hdelivers, -⟩ := run_delivers_or_leaves_files hparse (folder [])
  obtain ⟨f, hcompile, hcode, ⟨houtput, hrewrites⟩, hdraw⟩ := hdelivers greeting d hserves
  obtain ⟨result', after', hrun', -, hleaves⟩ := run_delivers_or_leaves_files hparse (folder [(["out"], .empty)])
  exact ⟨hparse, ⟨d, f, result, after, hserves, hrun, hcompile, hcode, houtput, hrewrites, hdraw rfl⟩,
    result', after', hrun', hleaves hblocked⟩

end Command

end FlowDiagram
