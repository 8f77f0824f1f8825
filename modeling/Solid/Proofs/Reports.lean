import Solid.Proofs.Sessions
import Solid.Cli
namespace Solid.Cli

def Command.output? : Command → Option String
  | .render _ output => output
  | .connect _ _ _ output _ => output
  | .version => none

def Command.input : Command → String
  | .render input _ => input
  | .connect input _ _ _ _ => input
  | .version => ""

-- Whether the trees themselves are wanted.
def Command.ast : Command → Bool
  | .connect _ _ _ _ ast => ast
  | .render _ _ | .version => false

-- The trees that a command makes of the files.
def Command.Makes (files : Files) (config : Config) : Command → List Node → Prop
  | .render input _, roots => ∃ text, files.read input = .ok text ∧ Node.load text = .ok roots
  | .connect input distance orientation _ _, roots => ∃ text layers solid,
      files.read input = .ok text ∧ Node.load text = .ok layers ∧ roots = [solid] ∧
        Solid.connect layers (distance.getD config.layerDistance) (orientation.getD config.orientation) = .ok solid
  | .version, _ => False

-- A text that stands for trees, as JSON or as an OpenSCAD document.
inductive Stands (roots : List Node) : Bool → String → Prop
  | json {solid : Node} : roots = [solid] → Stands roots true solid.pretty
  | document {source : String} : OpenScad.render roots = .ok source → Stands roots false source

-- What a command has told about the file that it wrote, and what that file has.
structure Reported (config : Config) (command : Command) (output printed : String) (files files' : Files)
    (report : Report) (roots : List Node) (source written : String) : Prop where
  printed : printed = report.text
  input : report.input = command.input
  output : report.output = config.outputPath output
  stored : files'.read report.output = .ok written
  makes : command.Makes files config roots
  stands : Stands roots command.ast written
  trees : report.trees = roots.length
  nodes : report.nodes = Node.countAll roots
  rendered : OpenScad.render roots = .ok source
  lines : report.lines = Report.lineCount source
  plain : command.ast = false → report.lines = Report.lineCount written

variable {files files' : Files} {config : Config} {env : Config.Environment} {arguments : List String}
  {command : Command} {input output text printed : String}

theorem emit_ran {r : Rendering}
    (ran : (emit ⟨Files.host, config⟩ input r text (some output)).run.run files = (.ok printed, files')) :
    ∃ micros, printed = Report.text ⟨input, r.roots.length, r.nodeCount, Report.lineCount r.source,
        config.outputPath output, micros⟩ ∧ files'.read (config.outputPath output) = .ok text := by
  obtain ⟨path, files₁, written, ran₁⟩ := run_then.mp ran
  obtain ⟨rfl, stored⟩ := Session.write_ran written
  cases ran₁
  exact ⟨_, rfl, stored⟩

theorem perform_ran (wanted : command.output? = some output)
    (ran : (perform ⟨Files.host, config⟩ command).run.run files = (.ok printed, files')) :
    ∃ report roots source written, Reported config command output printed files files' report roots source written := by
  cases command with
  | version => cases wanted
  | render input output' =>
    cases wanted
    obtain ⟨r, files₁, made, emitted⟩ := run_then.mp ran
    obtain ⟨rfl, rendered, makes⟩ := Session.render_ran made
    obtain ⟨micros, shown, stored⟩ := emit_ran emitted
    exact ⟨_, _, _, _, shown, rfl, rfl, stored, makes, .document rendered, rfl, rfl, rendered, rfl, fun _ => rfl⟩
  | connect input distance orientation output' ast =>
    cases wanted
    obtain ⟨⟨solid, r⟩, files₁, made, emitted⟩ := run_then.mp ran
    obtain ⟨rfl, alone, rendered, text, layers, read, loaded, connected⟩ := Session.connect_ran made
    obtain ⟨micros, shown, stored⟩ := emit_ran emitted
    have makes : Command.Makes files₁ config (.connect input distance orientation (some output) ast) r.roots :=
      ⟨text, layers, solid, read, loaded, alone, connected⟩
    cases ast with
    | false =>
      exact ⟨_, _, _, _, shown, rfl, rfl, stored, makes, .document rendered, rfl, rfl, rendered, rfl, fun _ => rfl⟩
    | true => exact ⟨_, _, _, _, shown, rfl, rfl, stored, makes, .json alone, rfl, rfl, rendered, rfl, nofun⟩

theorem run_succeeded (understood : read? arguments = some command)
    (ran : (run Files.host env arguments).run files = (.succeeded printed, files')) :
    ∃ config, (Config.load Files.host env).run.run files = (.ok config, files) ∧
      (perform ⟨Files.host, config⟩ command).run.run files = (.ok printed, files') := by
  unfold run at ran
  rw [understood] at ran
  dsimp only at ran
  rw [run_both] at ran
  rcases loaded : (Config.load Files.host env).run.run files with ⟨e | config, files₁⟩
  · rw [loaded] at ran
    cases ran
  · cases Config.load_ran loaded
    rw [loaded] at ran
    dsimp only at ran
    rw [run_both] at ran
    refine ⟨config, rfl, ?_⟩
    rcases performed : (perform ⟨Files.host, config⟩ command).run.run files with ⟨e | text, files₂⟩
    · rw [performed] at ran
      cases ran
    · rw [performed] at ran
      cases ran
      rfl

theorem run_reported (understood : read? arguments = some command) (wanted : command.output? = some output)
    (ran : (run Files.host env arguments).run files = (.succeeded printed, files')) :
    ∃ config report roots source written, (Config.load Files.host env).run.run files = (.ok config, files) ∧
      Reported config command output printed files files' report roots source written := by
  obtain ⟨config, loaded, performed⟩ := run_succeeded understood ran
  obtain ⟨report, roots, source, written, reported⟩ := perform_ran wanted performed
  exact ⟨config, report, roots, source, written, loaded, reported⟩

def twoCircles : Files := Files.holding
  [("two.json", "[\x7b\"type\": \"circle\", \"radius\": 3\x7d, \x7b\"type\": \"circle\", \"radius\": 8\x7d]")]

def twoConnected : Outcome × Files :=
  (run Files.host (fun _ => none) ["connect", "two.json", "--ast", "-o", "out.json"]).run twoCircles

theorem succeeded_exit {ran : Outcome × Files} (exit : ran.1.exitCode = 0) :
    ran = (.succeeded ran.1.output, ran.2) := by
  obtain ⟨outcome, files⟩ := ran
  cases outcome with
  | succeeded text => rfl
  | failed cause => cases exit
  | rejected => cases exit

theorem run_reported_cone : ∃ config report roots source written,
    (Config.load Files.host fun _ => none).run.run twoCircles = (.ok config, twoCircles) ∧
      Reported config (.connect "two.json" none none (some "out.json") true) "out.json" twoConnected.1.output
        twoCircles twoConnected.2 report roots source written := by
  have understood : read? ["connect", "two.json", "--ast", "-o", "out.json"] =
      some (.connect "two.json" none none (some "out.json") true) := by decide +kernel
  have ran := succeeded_exit (show twoConnected.1.exitCode = 0 by decide +kernel)
  exact run_reported understood rfl ran

-- The file has eighteen lines, the report tells of the seven lines of the document that is not in it.
theorem twoConnected_miscounted :
    twoConnected.1.output = (Report.mk "two.json" 1 3 7 "out.json" 0).text ∧
      (twoConnected.2.read "out.json").toOption.map Report.lineCount = some 18 := by
  decide +kernel

end Solid.Cli
