import Solid.Proofs.Checks
import Solid.Files
namespace Solid

-- What stands at a place. The names go from the root down.
def Entry.at? : Entry → List String → Option Entry
  | entry, [] => some entry
  | .folder inside, name :: rest => (inside.lookup name).bind fun below => below.at? rest
  | .file _, _ :: _ => none

def Entry.Holds (root : Entry) (names : List String) : Prop := ∃ inside, root.at? names = some (.folder inside)

-- The tree with one place changed.
def Entry.put : Entry → List String → Entry → Entry
  | _, [], entry => entry
  | .folder inside, name :: rest, entry =>
    .folder (Folder.put inside name (match inside.lookup name with
      | some below => below.put rest entry
      | none => entry))
  | .file content, _ :: _, _ => .file content

def Spot.names (spot : Spot) : List String := (spot.above.map Prod.fst).reverse

inductive Spot.Reached (root : Entry) : Spot → Prop
  | start : Reached root ⟨some root, []⟩
  | down {inside : Folder} {above : List (String × Folder)} (name : String) :
      Reached root ⟨some (.folder inside), above⟩ → Reached root ⟨inside.lookup name, (name, inside) :: above⟩

section
variable {inside : Folder} {name other : String} {entry : Entry}

theorem lookup_put : (inside.put name entry).lookup name = some entry := by
  rw [Folder.put, List.lookup_cons, beq_self_eq_true]

theorem lookup_put_other (apart : other ≠ name) : (inside.put name entry).lookup other = inside.lookup other := by
  rw [Folder.put, List.lookup_cons, beq_false_of_ne apart]
  dsimp only
  induction inside with
  | nil => rfl
  | cons old inside ih =>
    by_cases same : old.1 = name
    · rw [List.filter_cons_of_neg (by simp [same]), List.lookup_cons, beq_false_of_ne (same ▸ apart)]
      exact ih
    · rw [List.filter_cons_of_pos (by simpa using same), List.lookup_cons, List.lookup_cons, ih]

end

section
variable {root entry : Entry} {names place : List String}

theorem at_append : root.at? (place ++ names) = (root.at? place).bind (·.at? names) := by
  induction place generalizing root with
  | nil => rfl
  | cons name place ih =>
    cases root with
    | file content => rfl
    | folder inside =>
      rw [List.cons_append, Entry.at?, Entry.at?]
      cases inside.lookup name with
      | none => rfl
      | some below => exact ih

theorem put_here : root.put [] entry = entry := by
  cases root <;> rfl

-- The place is new in its folder or was there already.
theorem put_last {inside : Folder} {name : String} (held : root.at? place = some (.folder inside)) :
    root.put (place ++ [name]) entry = root.put place (.folder (inside.put name entry)) := by
  induction place generalizing root with
  | nil =>
    cases held
    rw [List.nil_append, Entry.put, Entry.put]
    cases inside.lookup name with
    | none => rfl
    | some below =>
      dsimp only
      rw [put_here]
  | cons piece place ih =>
    cases root with
    | file content => cases held
    | folder outer =>
      rw [Entry.at?] at held
      rw [List.cons_append, Entry.put, Entry.put]
      cases found : outer.lookup piece with
      | none =>
        rw [found] at held
        cases held
      | some below =>
        rw [found] at held
        dsimp only
        rw [ih held]

theorem at_put (reached : place = [] ∨ ∃ front name, place = front ++ [name] ∧ root.Holds front) :
    (root.put place entry).at? place = some entry := by
  rcases reached with rfl | ⟨front, name, rfl, inside, held⟩
  · rw [put_here]
    rfl
  rw [put_last held]
  induction front generalizing root with
  | nil =>
    rw [List.nil_append, put_here, Entry.at?, lookup_put]
    rfl
  | cons piece front ih =>
    cases root with
    | file content => cases held
    | folder outer =>
      rw [Entry.at?] at held
      cases found : outer.lookup piece with
      | none =>
        rw [found] at held
        cases held
      | some below =>
        rw [found] at held
        rw [List.cons_append, Entry.put, found, Entry.at?, lookup_put]
        exact ih held

-- What is not a folder has nothing below it, so that no folder is lost with it.
theorem put_holds (entry : Entry) (free : ¬ root.Holds place) (held : root.Holds names) :
    (root.put place entry).Holds names := by
  induction place generalizing root names with
  | nil =>
    obtain ⟨inside, found⟩ := held
    cases root with
    | folder inside' => exact absurd ⟨inside', rfl⟩ free
    | file content =>
      cases names <;> cases found
  | cons name place ih =>
    cases root with
    | file content =>
      exact held
    | folder inside =>
      rw [Entry.put]
      obtain ⟨inner, found⟩ := held
      cases names with
      | nil => exact ⟨_, rfl⟩
      | cons other names =>
        unfold Entry.Holds
        rw [Entry.at?] at found ⊢
        by_cases apart : other = name
        · subst apart
          rw [lookup_put]
          cases below : inside.lookup other with
          | none =>
            rw [below] at found
            cases found
          | some child =>
            rw [below] at found
            apply ih _ ⟨inner, found⟩
            rintro ⟨deeper, there⟩
            apply free
            refine ⟨deeper, ?_⟩
            rw [Entry.at?, below]
            exact there
        · rw [lookup_put_other apart]
          exact ⟨inner, found⟩

end

namespace Spot
variable {root root' : Entry} {spot spot' next : Spot} {piece : String} {pieces : List String}

theorem names_down {inside : Folder} {above : List (String × Folder)} {entry : Option Entry} {name : String}
    (entry' : Option Entry) :
    names ⟨entry, (name, inside) :: above⟩ = names ⟨entry', above⟩ ++ [name] := by
  rw [names, List.map_cons, List.reverse_cons, names]

theorem reached_at (reached : Reached root spot) : root.at? spot.names = spot.entry := by
  induction reached with
  | start => rfl
  | down name _ ih =>
    rw [names_down (some (.folder _)), at_append, ih]
    change (List.lookup name _).bind some = List.lookup name _
    cases List.lookup name _ <;> rfl

theorem reached_fill (reached : Reached root spot) (entry : Entry) : spot.fill entry = root.put spot.names entry := by
  induction reached generalizing entry with
  | start => exact put_here.symm
  | down name reached ih =>
    rw [names_down (some (.folder _)), put_last (reached_at reached), ← ih]
    rfl

-- Where a step leads from a folder: nowhere, back up or down by a name.
def stepped (inside : Folder) (above : List (String × Folder)) (piece : String) : Spot :=
  if Path.isIdle piece then ⟨some (.folder inside), above⟩
  else if piece = ".." then Spot.up ⟨some (.folder inside), above⟩
  else ⟨inside.lookup piece, (piece, inside) :: above⟩

theorem step_folder {inside : Folder} {above : List (String × Folder)} (fit : fits piece = .ok ()) :
    Spot.step ⟨some (.folder inside), above⟩ piece = .ok (stepped inside above piece) := by
  unfold Spot.step stepped
  rw [fit]
  change (if _ then pure _ else if _ then pure _ else pure _ : Except FileError Spot) = _
  by_cases idle : Path.isIdle piece = true
  · rw [if_pos idle, if_pos idle]
    rfl
  rw [if_neg idle, if_neg idle]
  by_cases dots : piece = ".."
  · rw [if_pos dots, if_pos dots]
    rfl
  · rw [if_neg dots, if_neg dots]
    rfl

theorem step_cases (step : spot.step piece = .ok next) : ∃ inside above,
    spot = ⟨some (.folder inside), above⟩ ∧ fits piece = .ok () ∧ next = stepped inside above piece := by
  obtain ⟨entry, above⟩ := spot
  cases entry with
  | none => cases step
  | some entry =>
    cases entry with
    | file content => cases step
    | folder inside =>
      cases fit : fits piece with
      | error e =>
        rw [Spot.step, fit] at step
        cases step
      | ok =>
        rw [step_folder fit] at step
        cases step
        exact ⟨inside, above, rfl, rfl, rfl⟩

theorem up_reached (reached : Reached root spot) : Reached root spot.up := by
  cases reached with
  | start => exact .start
  | down name reached => exact reached

theorem stepped_reached {inside : Folder} {above : List (String × Folder)} (piece : String)
    (reached : Reached root ⟨some (.folder inside), above⟩) : Reached root (stepped inside above piece) := by
  unfold stepped
  split
  · exact reached
  split
  · exact up_reached reached
  · exact .down piece reached

theorem names_up : spot.up.names = spot.names.dropLast := by
  obtain ⟨entry, _ | ⟨⟨name, inside⟩, above⟩⟩ := spot
  · rfl
  · rw [names_down (some (.folder inside)), List.dropLast_concat]
    rfl

-- The names after a step are those before it, changed by the piece alone.
theorem names_stepped {inside inside' : Folder} {above above' : List (String × Folder)}
    (same : names ⟨some (.folder inside'), above'⟩ = names ⟨some (.folder inside), above⟩) :
    (stepped inside' above' piece).names = (stepped inside above piece).names := by
  unfold stepped
  split
  · exact same
  split
  · rw [names_up, names_up, same]
  · rw [names_down, same, names_down]

theorem reached_holds {inside : Folder} {above : List (String × Folder)}
    (reached : Reached root ⟨some (.folder inside), above⟩) : root.Holds (names ⟨some (.folder inside), above⟩) :=
  ⟨inside, reached_at reached⟩

-- A spot by names that lead to a folder is in that folder.
theorem holds_inside (reached : Reached root spot) (held : root.Holds spot.names) :
    ∃ inside above, spot = ⟨some (.folder inside), above⟩ := by
  obtain ⟨inside, found⟩ := held
  obtain ⟨entry, above⟩ := spot
  cases (reached_at reached).symm.trans found
  exact ⟨inside, above, rfl⟩

section
variable (kept : ∀ names, root.Holds names → root'.Holds names)
include kept

theorem step_again (reached : Reached root spot) (reached' : Reached root' spot') (same : spot'.names = spot.names)
    (step : spot.step piece = .ok next) :
    ∃ next', spot'.step piece = .ok next' ∧ Reached root' next' ∧ next'.names = next.names := by
  obtain ⟨inside, above, rfl, fit, rfl⟩ := step_cases step
  have held := kept _ (reached_holds reached)
  rw [← same] at held
  obtain ⟨inside', above', rfl⟩ := holds_inside reached' held
  exact ⟨_, step_folder fit, stepped_reached piece reached', names_stepped same⟩

theorem walk_again (reached : Reached root spot) (reached' : Reached root' spot') (same : spot'.names = spot.names)
    (walk : spot.walk pieces = .ok next) :
    Reached root next ∧ ∃ next', spot'.walk pieces = .ok next' ∧ Reached root' next' ∧ next'.names = next.names := by
  induction pieces generalizing spot spot' with
  | nil =>
    cases walk
    exact ⟨reached, _, rfl, reached', same⟩
  | cons piece pieces ih =>
    obtain ⟨middle, step, walk⟩ := bind_ok.mp walk
    obtain ⟨middle', step', reached₁', same₁⟩ := step_again kept reached reached' same step
    obtain ⟨inside, above, rfl, -, rfl⟩ := step_cases step
    obtain ⟨reached₂, next', walk', rest⟩ := ih (stepped_reached _ reached) reached₁' same₁ walk
    exact ⟨reached₂, next', bind_ok.mpr ⟨middle', step', walk'⟩, rest⟩

end

theorem walk_append {front back : List String} (walk : spot.walk front = .ok next) :
    spot.walk (front ++ back) = next.walk back := by
  induction front generalizing spot with
  | nil =>
    cases walk
    rfl
  | cons piece front ih =>
    obtain ⟨middle, step, walk⟩ := bind_ok.mp walk
    rw [List.cons_append, Spot.walk, step]
    exact ih walk

end Spot

namespace Files
open Spot
variable {files files' : Files} {path content : String}

-- A file is written under a name of its own in a folder that a walk leads to.
theorem target_parts {target : Target} {name : String} (found : files.target path = .ok target)
    (named : target.name = some name) (open' : target.slash = false) : ∃ front,
      check path = .ok () ∧ files.way path = front ++ [name] ∧ files.walk front = .ok target.folder ∧
        ¬ Path.isIdle name ∧ name ≠ ".." := by
  unfold Files.target at found
  obtain ⟨_, checked, found⟩ := bind_ok.mp found
  obtain ⟨folder, walk, found⟩ := bind_ok.mp found
  obtain ⟨inside, _, found⟩ := bind_ok.mp found
  cases found
  dsimp only at named open'
  -- Nothing is dropped at the end, so the name is the last piece.
  have whole : (files.way path).reverse.dropWhile (· = "") = (files.way path).reverse := by
    apply (List.dropWhile_suffix _).eq_of_length_le
    simpa using open'
  obtain ⟨head, active⟩ := Option.filter_eq_some_iff.mp named
  have filled := List.head?_dropWhile_not (· = "") (files.way path).reverse
  rw [head] at filled
  rw [whole] at head walk
  obtain ⟨back, pieces⟩ := List.head?_eq_some_iff.mp head
  rw [pieces, List.tail_cons] at walk
  refine ⟨back.reverse, checked, ?_, walk, ?_, ?_⟩
  · rw [← List.reverse_cons, ← pieces, List.reverse_reverse]
  · simp_all [Path.isIdle]
  · simp_all

theorem write_parts (written : files.write path content = .ok files') : ∃ front name inside above,
    check path = .ok () ∧ files.way path = front ++ [name] ∧ files.walk front = .ok ⟨some (.folder inside), above⟩ ∧
      fits name = .ok () ∧ stepped inside above name = ⟨inside.lookup name, (name, inside) :: above⟩ ∧
      (∀ inner, inside.lookup name ≠ some (.folder inner)) ∧
      files' = { files with root := Spot.fill ⟨inside.lookup name, (name, inside) :: above⟩ (.file content) } := by
  unfold Files.write at written
  obtain ⟨⟨folder, _ | name, _ | _⟩, found, written⟩ := bind_ok.mp written
  · cases written
  · cases written
  · obtain ⟨front, checked, way, walk, active, below⟩ := target_parts found rfl rfl
    obtain ⟨spot, step, written⟩ := bind_ok.mp written
    obtain ⟨inside, above, rfl, fit, rfl⟩ := step_cases step
    have down : stepped inside above name = ⟨inside.lookup name, (name, inside) :: above⟩ := by
      rw [stepped, if_neg active, if_neg below]
    rw [down] at written
    dsimp only at written
    refine ⟨front, name, inside, above, checked, way, walk, fit, down, ?_, ?_⟩
    · intro inner here
      rw [here] at written
      cases written
    · split at written
      · cases written
      · cases written
        rfl
  · cases written

theorem file_read {spot : Spot} (found : files.find path = .ok spot) (file : spot.entry = some (.file content)) :
    files.read path = .ok content := by
  obtain ⟨entry, above⟩ := spot
  cases file
  unfold Files.read
  rw [found]
  rfl

theorem written_read (written : files.write path content = .ok files') : files'.read path = .ok content := by
  obtain ⟨front, name, inside, above, checked, way, walk, fit, down, free, rfl⟩ := write_parts written
  obtain ⟨reached, -⟩ := walk_again (fun _ held => held) .start .start rfl walk
  have place := Reached.down name reached
  have empty : ¬ files.root.Holds (names ⟨inside.lookup name, (name, inside) :: above⟩) := by
    rintro ⟨inner, found⟩
    exact free inner ((reached_at place).symm.trans found)
  obtain ⟨-, folder, walk', reached', same⟩ := walk_again (fun _ => put_holds (.file content) empty)
    .start .start rfl walk
  have held := put_holds (.file content) empty (reached_holds reached)
  rw [← same] at held
  obtain ⟨inside', above', rfl⟩ := holds_inside reached' held
  have again := stepped_reached name reached'
  have entry : (stepped inside' above' name).entry = some (.file content) := by
    rw [← reached_at again, names_stepped same, down]
    exact at_put (.inr ⟨_, name, names_down _, reached_holds reached⟩)
  refine file_read ?_ entry
  unfold Files.find
  rw [checked]
  change Spot.walk ⟨some (Spot.fill _ _), []⟩ (files.way path) = _
  rw [reached_fill place, way, walk_append walk', Spot.walk, step_folder fit]
  rfl

end Files
end Solid
