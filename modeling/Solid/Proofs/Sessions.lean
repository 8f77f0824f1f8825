import Solid.Proofs.Walks
import Solid.Session
namespace Solid

section
variable {ε δ σ α β : Type} {s s' : σ} {x : ExceptT ε (StateM σ) α} {a : α} {b : β}

theorem run_both {step : StateM σ α} {next : α → StateM σ β} :
    (step >>= next).run s = (next (step.run s).1).run (step.run s).2 :=
  rfl

theorem run_then {next : α → ExceptT ε (StateM σ) β} : (x >>= next).run.run s = (.ok b, s') ↔
    ∃ a s₁, x.run.run s = (.ok a, s₁) ∧ (next a).run.run s₁ = (.ok b, s') := by
  have bound : (x >>= next).run.run s =
      ((fun
        | .ok a => (next a).run
        | .error e => pure (.error e)) (x.run.run s).1 : StateM σ _).run (x.run.run s).2 := by
    rfl
  rw [bound]
  rcases x.run.run s with ⟨e | a, s₁⟩
  · constructor
    · intro run
      cases run
    · rintro ⟨a, s₂, impossible, -⟩
      cases impossible
  · constructor
    · intro run
      exact ⟨a, s₁, rfl, run⟩
    · rintro ⟨a', s₂, same, run⟩
      cases same
      exact run

theorem run_attempt {blame : ε → δ} {step : StateM σ (Except ε α)} :
    (Host.attempt blame step).run.run s = (.ok a, s') ↔ step.run s = (.ok a, s') := by
  have tried : (Host.attempt blame step).run.run s = ((step.run s).1.mapError blame, (step.run s).2) := by
    rfl
  rw [tried]
  rcases step.run s with ⟨e | a, s₁⟩
  · constructor <;> intro run <;> cases run
  · constructor <;> intro run <;> cases run <;> rfl

end

section
variable {ε : Type} {files files' : Files} {path content : String}

theorem run_read {text : String} : (Files.host.read path).run files = (.ok text, files') ↔
    files.read path = .ok text ∧ files' = files := by
  change (files.read path, files) = _ ↔ _
  rw [Prod.mk.injEq, eq_comm (a := files)]

theorem run_change {f : Files → Except FileError Files} :
    (Files.change f).run files = (.ok (), files') ↔ f files = .ok files' := by
  have changed : (Files.change f).run files = (Files.change fun _ => f files).run files := by
    rfl
  rw [changed]
  cases f files <;> constructor <;> intro run <;> cases run <;> rfl

theorem run_write : (Files.host.write path content).run files = (.ok (), files') ↔
    files.write path content = .ok files' :=
  run_change

theorem run_pure {δ α : Type} {x : Except δ α} {a : α} :
    (pure x : StateM Files (Except δ α)).run files = (.ok a, files') ↔ x = .ok a ∧ files' = files := by
  constructor
  · intro run
    cases run
    exact ⟨rfl, rfl⟩
  · rintro ⟨rfl, rfl⟩
    rfl

-- A step that cannot fail and that leaves the files alone.
theorem run_lift {α : Type} {a : α} {step : StateM Files α} (still : ∀ files, (step.run files).2 = files) :
    (liftM step : ExceptT ε (StateM Files) α).run.run files = (.ok a, files') → files' = files := by
  intro run
  have lifted : (liftM step : ExceptT ε (StateM Files) α).run.run files =
      (.ok (step.run files).1, (step.run files).2) := by
    rfl
  rw [lifted, still] at run
  cases run
  rfl

end

namespace Session
variable {config : Config} {files files' : Files} {input output text : String}

theorem load_ran {roots : List Node} (ran : (load ⟨Files.host, config⟩ input).run.run files = (.ok roots, files')) :
    files' = files ∧ ∃ text, files.read input = .ok text ∧ Node.load text = .ok roots := by
  obtain ⟨text, files₁, first, second⟩ := run_then.mp ran
  obtain ⟨read, rfl⟩ := run_read.mp (run_attempt.mp first)
  obtain ⟨loaded, rfl⟩ := run_pure.mp (run_attempt.mp second)
  exact ⟨rfl, text, read, loaded⟩

theorem render_ran {r : Rendering} (ran : (render ⟨Files.host, config⟩ input).run.run files = (.ok r, files')) :
    files' = files ∧ OpenScad.render r.roots = .ok r.source ∧
      ∃ text, files.read input = .ok text ∧ Node.load text = .ok r.roots := by
  obtain ⟨start, files₁, started, ran₁⟩ := run_then.mp ran
  cases run_lift (fun _ => rfl) started
  obtain ⟨roots, files₂, load, ran₂⟩ := run_then.mp ran₁
  obtain ⟨rfl, loaded⟩ := load_ran load
  obtain ⟨source, files₃, attempt, ran₃⟩ := run_then.mp ran₂
  obtain ⟨rendered, rfl⟩ := run_pure.mp (run_attempt.mp attempt)
  obtain ⟨stop, files₄, stopped, ran₄⟩ := run_then.mp ran₃
  cases run_lift (fun _ => rfl) stopped
  cases ran₄
  exact ⟨rfl, rendered, loaded⟩

theorem connect_ran {distance : Option Float} {orientation : Option Orientation} {solid : Node} {r : Rendering}
    (ran : (connect ⟨Files.host, config⟩ input distance orientation).run.run files = (.ok (solid, r), files')) :
    files' = files ∧ r.roots = [solid] ∧ OpenScad.render r.roots = .ok r.source ∧
      ∃ text layers, files.read input = .ok text ∧ Node.load text = .ok layers ∧
        Solid.connect layers (distance.getD config.layerDistance) (orientation.getD config.orientation) = .ok solid := by
  obtain ⟨start, files₁, started, ran₁⟩ := run_then.mp ran
  cases run_lift (fun _ => rfl) started
  obtain ⟨layers, files₂, load, ran₂⟩ := run_then.mp ran₁
  obtain ⟨rfl, text, read, loaded⟩ := load_ran load
  obtain ⟨solid', files₃, attempt, ran₃⟩ := run_then.mp ran₂
  obtain ⟨connected, rfl⟩ := run_pure.mp (run_attempt.mp attempt)
  obtain ⟨source, files₄, attempt', ran₄⟩ := run_then.mp ran₃
  obtain ⟨rendered, rfl⟩ := run_pure.mp (run_attempt.mp attempt')
  obtain ⟨stop, files₅, stopped, ran₅⟩ := run_then.mp ran₄
  cases run_lift (fun _ => rfl) stopped
  cases ran₅
  exact ⟨rfl, rfl, rendered, text, layers, read, loaded, connected⟩

-- Whatever folders are made, the last step is the writing of the file.
theorem write_ran {path : String} (ran : (write ⟨Files.host, config⟩ output text).run.run files = (.ok path, files')) :
    path = config.outputPath output ∧ files'.read path = .ok text := by
  have last {files : Files} (ran : (do
      Host.attempt (.unwritable (config.outputPath output)) (Files.host.write (config.outputPath output) text)
      return config.outputPath output : ExceptT SessionError (StateM Files) String).run.run files = (.ok path, files')) :
      path = config.outputPath output ∧ files'.read path = .ok text := by
    obtain ⟨⟨⟩, files₁, attempt, ran₁⟩ := run_then.mp ran
    have written := run_write.mp (run_attempt.mp attempt)
    cases ran₁
    exact ⟨rfl, Files.written_read written⟩
  unfold write at ran
  dsimp only at ran
  split at ran
  · exact last ran
  · obtain ⟨⟨⟩, files₁, made, ran₁⟩ := run_then.mp ran
    exact last ran₁

end Session

namespace Config
variable {config : Config} {files files' : Files} {path : String}

theorem fromFile_ran : (fromFile Files.host path).run.run files = (.ok config, files') ↔
    files' = files ∧ ∃ text, files.read path = .ok text ∧ ofText text = .ok config := by
  constructor
  · intro ran
    obtain ⟨text, files₁, first, second⟩ := run_then.mp ran
    obtain ⟨read, rfl⟩ := run_read.mp (run_attempt.mp first)
    obtain ⟨understood, rfl⟩ := run_pure.mp (run_attempt.mp second)
    exact ⟨rfl, text, read, understood⟩
  · rintro ⟨rfl, text, read, understood⟩
    exact run_then.mpr ⟨text, files', run_attempt.mpr (run_read.mpr ⟨read, rfl⟩),
      run_attempt.mpr (run_pure.mpr ⟨understood, rfl⟩)⟩

theorem load_ran {env : Environment} (ran : (load Files.host env).run.run files = (.ok config, files')) :
    files' = files := by
  unfold load at ran
  obtain ⟨here, files₁, looked, ran₁⟩ := run_then.mp ran
  cases run_lift (fun _ => rfl) looked
  split at ran₁
  · obtain ⟨base, files₂, read, ran₂⟩ := run_then.mp ran₁
    obtain ⟨rfl, -⟩ := fromFile_ran.mp read
    dsimp only at ran₂
    split at ran₂ <;> cases ran₂
    rfl
  · obtain ⟨base, files₂, given, ran₂⟩ := run_then.mp ran₁
    cases given
    dsimp only at ran₂
    split at ran₂ <;> cases ran₂
    rfl

theorem save_ran (ran : (config.save Files.host path).run.run files = (.ok (), files')) :
    files'.read path = .ok config.toText :=
  Files.written_read (run_write.mp (run_attempt.mp ran))

end Config

end Solid
