import Solid.Config
namespace Solid.Config

-- A field before and after its variable was taken.
def Taken {α : Type} (env : Environment) (name : String) (Reads : String → α → Prop) (before after : α) : Prop :=
  match env name with
  | none => after = before
  | some text => Reads text after

structure Settled (env : Environment) (c c' : Config) : Prop where
  layerDistance : Taken env "TANGIBLE_LAYER_DISTANCE" (Decimal.read · = .ok ·) c.layerDistance c'.layerDistance
  orientation : Taken env "TANGIBLE_ORIENTATION" (Orientation.named · = .ok ·) c.orientation c'.orientation
  outputDir : Taken env "TANGIBLE_OUTPUT_DIR" (some · = ·) c.outputDir c'.outputDir
  verbose : Taken env "TANGIBLE_VERBOSE" (· = if · then "true" else "false") c.verbose c'.verbose

def Environment.only (env : Environment) (names : List String) : Environment :=
  fun name => if name ∈ names then env name else none

-- A variable with a text that has no value, and the fault that is reported.
def Refused (name text : String) : ConfigError → Prop
  | .layerDistance shown cause =>
    name = "TANGIBLE_LAYER_DISTANCE" ∧ shown = text ∧ Decimal.read text = .error cause
  | .orientation cause => name = "TANGIBLE_ORIENTATION" ∧ Orientation.named text = .error cause
  | .verbose shown => name = "TANGIBLE_VERBOSE" ∧ shown = text ∧ text ≠ "true" ∧ text ≠ "false"
  | _ => False

def variableNames : List String :=
  ["TANGIBLE_LAYER_DISTANCE", "TANGIBLE_ORIENTATION", "TANGIBLE_OUTPUT_DIR", "TANGIBLE_VERBOSE"]

inductive Outcome (env : Environment) (c c' : Config) : Option ConfigError → Prop
  | settled : Settled env c c' → Outcome env c c' none
  -- All that stands behind the refused variable is as if it were not set.
  | refused {front back : List String} {name text : String} {e : ConfigError} :
      variableNames = front ++ name :: back → env name = some text → Refused name text e →
      Settled (env.only front) c c' → Outcome env c c' (some e)

def Variable.take (v : Variable) (env : Environment) (c : Config) : Except ConfigError Config :=
  match env v.name with
  | none => .ok c
  | some text => v.set c text

section
variable {env : Environment} {v : Variable} {vs : List Variable} {c c' : Config}

theorem applyAll_cons : applyAll env (v :: vs) c =
    match v.take env c with
    | .ok c => applyAll env vs c
    | .error e => (c, some e) := by
  rw [applyAll, Variable.take]
  cases env v.name <;> rfl

-- The front of the list is run to its end before the fault is met.
theorem applyAll_fault {e : ConfigError} : applyAll env vs c = (c', some e) ↔
    ∃ front v back, vs = front ++ v :: back ∧ applyAll env front c = (c', none) ∧ v.take env c' = .error e := by
  induction vs generalizing c with
  | nil =>
    constructor
    · intro run
      cases run
    · rintro ⟨front, v, back, shape, -⟩
      simp at shape
  | cons v vs ih =>
    rw [applyAll_cons]
    cases step : v.take env c with
    | error e' =>
      constructor
      · intro run
        cases run
        exact ⟨[], v, vs, rfl, rfl, step⟩
      · rintro ⟨front, u, back, shape, run, refused⟩
        cases front with
        | nil =>
          cases shape
          cases run
          cases step.symm.trans refused
          rfl
        | cons w front =>
          cases shape
          rw [applyAll_cons, step] at run
          cases run
    | ok c₁ =>
      dsimp only
      rw [ih]
      constructor
      · rintro ⟨front, u, back, rfl, run, refused⟩
        refine ⟨v :: front, u, back, rfl, ?_, refused⟩
        rwa [applyAll_cons, step]
      · rintro ⟨front, u, back, shape, run, refused⟩
        cases front with
        | nil =>
          cases shape
          cases run
          cases step.symm.trans refused
        | cons w front =>
          cases shape
          rw [applyAll_cons, step] at run
          exact ⟨front, u, back, rfl, run, refused⟩

theorem applyAll_only {names : List String} :
    applyAll (env.only names) vs c = applyAll env (vs.filter (·.name ∈ names)) c := by
  induction vs generalizing c with
  | nil => rfl
  | cons v vs ih =>
    by_cases named : v.name ∈ names
    · have same : v.take (env.only names) c = v.take env c := by
        rw [Variable.take, Environment.only, if_pos named, Variable.take]
      rw [List.filter_cons_of_pos (by simpa using named), applyAll_cons, applyAll_cons, same]
      cases v.take env c with
      | ok c₁ => exact ih
      | error e => rfl
    · have skipped : v.take (env.only names) c = .ok c := by
        rw [Variable.take, Environment.only, if_neg named]
      rw [List.filter_cons_of_neg (by simpa using named), applyAll_cons, skipped]
      exact ih

theorem take_field {α : Type} {Reads : String → α → Prop} {get : Config → α} {put : Config → α → Config}
    (same : ∀ c, put c (get c) = c)
    (sets : ∀ c c' text, v.set c text = .ok c' ↔ ∃ x, Reads text x ∧ c' = put c x) :
    v.take env c = .ok c' ↔ ∃ x, Taken env v.name Reads (get c) x ∧ c' = put c x := by
  unfold Variable.take Taken
  cases env v.name with
  | some text => exact sets c c' text
  | none =>
    constructor
    · intro run
      cases run
      exact ⟨_, rfl, (same c).symm⟩
    · rintro ⟨_, rfl, rfl⟩
      rw [same]

theorem layerDistance_set (c c' : Config) (text : String) : layerDistanceVariable.set c text = .ok c' ↔
    ∃ x, Decimal.read text = .ok x ∧ c' = { c with layerDistance := x } := by
  cases read : Decimal.read text <;> simp [layerDistanceVariable, read, eq_comm]

theorem orientation_set (c c' : Config) (text : String) : orientationVariable.set c text = .ok c' ↔
    ∃ o, Orientation.named text = .ok o ∧ c' = { c with orientation := o } := by
  cases named : Orientation.named text <;> simp [orientationVariable, named, eq_comm]

theorem outputDir_set (c c' : Config) (text : String) : outputDirVariable.set c text = .ok c' ↔
    ∃ folder, some text = folder ∧ c' = { c with outputDir := folder } := by
  simp [outputDirVariable, eq_comm]

theorem verbose_set (c c' : Config) (text : String) : verboseVariable.set c text = .ok c' ↔
    ∃ b : Bool, (text = if b then "true" else "false") ∧ c' = { c with verbose := b } := by
  by_cases yes : text = "true"
  · simp [verboseVariable, yes, eq_comm]
  by_cases no : text = "false"
  · simp [verboseVariable, no, eq_comm]
  · simp [verboseVariable, yes, no]

theorem applyAll_step : applyAll env (v :: vs) c = (c', none) ↔
    ∃ c₁, v.take env c = .ok c₁ ∧ applyAll env vs c₁ = (c', none) := by
  rw [applyAll_cons]
  cases v.take env c <;> simp

theorem applyAll_settled : applyAll env overrides c = (c', none) ↔ Settled env c c' := by
  have distance (c c' : Config) := @take_field env _ c c' _ _ _ _ (fun _ => rfl) layerDistance_set
  have orientation (c c' : Config) := @take_field env _ c c' _ _ _ _ (fun _ => rfl) orientation_set
  have folder (c c' : Config) := @take_field env _ c c' _ _ _ _ (fun _ => rfl) outputDir_set
  have verbose (c c' : Config) := @take_field env _ c c' _ _ _ _ (fun _ => rfl) verbose_set
  constructor
  · intro run
    obtain ⟨c₁, first, run⟩ := applyAll_step.mp run
    obtain ⟨x, distances, rfl⟩ := (distance _ _).mp first
    obtain ⟨c₂, second, run⟩ := applyAll_step.mp run
    obtain ⟨o, orientations, rfl⟩ := (orientation _ _).mp second
    obtain ⟨c₃, third, run⟩ := applyAll_step.mp run
    obtain ⟨path, folders, rfl⟩ := (folder _ _).mp third
    obtain ⟨c₄, fourth, run⟩ := applyAll_step.mp run
    obtain ⟨b, flags, rfl⟩ := (verbose _ _).mp fourth
    cases run
    exact ⟨distances, orientations, folders, flags⟩
  · intro settled
    refine applyAll_step.mpr ⟨_, (distance _ _).mpr ⟨_, settled.layerDistance, rfl⟩, ?_⟩
    refine applyAll_step.mpr ⟨_, (orientation _ _).mpr ⟨_, settled.orientation, rfl⟩, ?_⟩
    refine applyAll_step.mpr ⟨_, (folder _ _).mpr ⟨_, settled.outputDir, rfl⟩, ?_⟩
    exact applyAll_step.mpr ⟨_, (verbose _ _).mpr ⟨_, settled.verbose, rfl⟩, rfl⟩

theorem set_refused {text : String} {e : ConfigError} (known : v ∈ overrides) :
    v.set c text = .error e ↔ Refused v.name text e := by
  simp only [overrides, List.mem_cons, List.not_mem_nil, or_false] at known
  rcases known with rfl | rfl | rfl | rfl
  · cases read : Decimal.read text <;> cases e <;> simp [layerDistanceVariable, Refused, read, eq_comm]
  · cases named : Orientation.named text <;> cases e <;> simp [orientationVariable, Refused, named]
  · cases e <;> simp [outputDirVariable, Refused]
  · by_cases yes : text = "true"
    · cases e <;> simp [verboseVariable, Refused, yes]
    by_cases no : text = "false"
    · cases e <;> simp [verboseVariable, Refused, no]
    · cases e <;> simp [verboseVariable, Refused, yes, no, eq_comm]

theorem take_refused {e : ConfigError} (known : v ∈ overrides) :
    v.take env c = .error e ↔ ∃ text, env v.name = some text ∧ Refused v.name text e := by
  unfold Variable.take
  cases env v.name with
  | none => simp
  | some text => simp [set_refused known]

-- A part of the list that stands in front of the rest.
theorem applyAll_front {front back : List Variable} (split : overrides = front ++ back) :
    applyAll env front c = (c', none) ↔ Settled (env.only (front.map (·.name))) c c' := by
  have distinct : (overrides.map (·.name)).Nodup := by decide
  rw [split, List.map_append, List.nodup_append] at distinct
  have kept : overrides.filter (·.name ∈ front.map (·.name)) = front := by
    rw [split, List.filter_append, List.filter_eq_self.mpr, List.filter_eq_nil_iff.mpr, List.append_nil]
    · intro v behind
      have apart := fun inFront => distinct.2.2 v.name inFront v.name (List.mem_map_of_mem behind) rfl
      simpa using apart
    · intro v inFront
      exact decide_eq_true (List.mem_map_of_mem inFront)
  rw [← applyAll_settled, applyAll_only, kept]

theorem environment_judged (c : Config) (env : Environment) (c' : Config) (fault : Option ConfigError) :
    c.applyEnvironment env = (c', fault) ↔ Outcome env c c' fault := by
  unfold applyEnvironment
  cases fault with
  | none =>
    rw [applyAll_settled]
    exact ⟨.settled, fun | .settled settled => settled⟩
  | some e =>
    rw [applyAll_fault]
    constructor
    · rintro ⟨front, v, back, split, run, refused⟩
      have known : v ∈ overrides := by
        rw [split]
        exact List.mem_append_cons_self
      obtain ⟨text, given, refused⟩ := (take_refused known).mp refused
      have order : variableNames = front.map (·.name) ++ v.name :: back.map (·.name) := by
        rw [← List.map_cons, ← List.map_append, ← split]
        rfl
      exact .refused order given refused ((applyAll_front split).mp run)
    · rintro (_ | ⟨order, given, refused, settled⟩)
      obtain ⟨front, rest, split, rfl, tail⟩ := List.map_eq_append_iff.mp (show overrides.map (·.name) = _ from order)
      obtain ⟨v, back, rfl, rfl, rfl⟩ := List.map_eq_cons_iff.mp tail
      have known : v ∈ overrides := by
        rw [split]
        exact List.mem_append_cons_self
      exact ⟨front, v, back, split, (applyAll_front split).mpr settled, (take_refused known).mpr ⟨_, given, refused⟩⟩

end

-- What was set before a fault is not taken back.
def sideways : Environment
  | "TANGIBLE_LAYER_DISTANCE" => some "4"
  | "TANGIBLE_ORIENTATION" => some "sideways"
  | _ => none

theorem sideways_kept : (default.applyEnvironment sideways).2 = some (.orientation (.orientation "sideways")) ∧
    (default.applyEnvironment sideways).1 ≠ default := by
  decide +kernel

end Solid.Config
