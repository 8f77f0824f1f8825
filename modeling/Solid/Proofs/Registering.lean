import Mathlib.Data.Finset.Card
import Solid.Document
namespace Solid
namespace Preamble

-- What one call brings.
structure Definition where
  key : String
  text : String

-- What the calls answer, one after the other, and the preamble that they leave.
def registerAll (p : Preamble) : List Definition → List Bool × Preamble
  | [] => ([], p)
  | d :: rest =>
    let (fresh, next) := p.register d.key d.text
    let (answers, last) := next.registerAll rest
    (fresh :: answers, last)

-- What ties a preamble to the calls made to it. Which texts it has, and in what order, is said apart.
structure Knows (p : Preamble) (calls : List Definition) : Prop where
  keys : ∀ key, key ∈ p.keys ↔ ∃ d ∈ calls, d.key = key
  distinct : p.keys.Nodup
  paired : p.keys.length = p.fragments.length

theorem empty_knows : empty.Knows [] := ⟨by simp [empty], List.nodup_nil, rfl⟩

section
variable {p : Preamble} {key text : String} {d : Definition} {before calls : List Definition}

theorem contains_iff : p.contains key = true ↔ key ∈ p.keys := List.contains_iff_mem

theorem register_known (known : key ∈ p.keys) : p.register key text = (false, p) :=
  if_pos (contains_iff.mpr known)

theorem register_new (new : key ∉ p.keys) :
    p.register key text = (true, ⟨key :: p.keys, p.fragments ++ [text]⟩) := by
  rw [register, if_neg (mt contains_iff.mp new), List.insert_of_not_mem new]

theorem register_again (text' : String) :
    ((p.register key text).2.register key text').2 = (p.register key text).2 := by
  by_cases known : key ∈ p.keys
  · rw [register_known known, register_known known]
  · rw [register_new known, register_known List.mem_cons_self]

-- The answer is about the calls before, not about what they left.
theorem register_answer (knows : p.Knows before) :
    (p.register d.key d.text).1 = decide (∀ earlier ∈ before, earlier.key ≠ d.key) := by
  by_cases known : d.key ∈ p.keys
  · obtain ⟨earlier, made, same⟩ := (knows.keys d.key).mp known
    rw [register_known known, eq_comm, decide_eq_false_iff_not]
    exact fun apart => apart earlier made same
  · rw [register_new known, eq_comm, decide_eq_true_iff]
    exact fun earlier made same => known ((knows.keys d.key).mpr ⟨earlier, made, same⟩)

theorem register_knows (knows : p.Knows before) : (p.register d.key d.text).2.Knows (before ++ [d]) := by
  have more (key : String) :
      (∃ c ∈ before ++ [d], c.key = key) ↔ (∃ c ∈ before, c.key = key) ∨ d.key = key := by
    simp [or_and_right, exists_or]
  by_cases known : d.key ∈ p.keys
  · rw [register_known known]
    refine ⟨fun key => ?_, knows.distinct, knows.paired⟩
    rw [more, ← knows.keys, iff_self_or]
    rintro rfl
    exact known
  · rw [register_new known]
    refine ⟨fun key => ?_, List.nodup_cons.mpr ⟨known, knows.distinct⟩, ?_⟩
    · rw [more, ← knows.keys, List.mem_cons, or_comm, eq_comm]
    · rw [List.length_cons, List.length_append, List.length_singleton, knows.paired]

theorem register_fragments : (p.register key text).2.fragments =
    p.fragments ++ if (p.register key text).1 = true then [text] else [] := by
  by_cases known : key ∈ p.keys
  · rw [register_known known, if_neg Bool.false_ne_true, List.append_nil]
  · rw [register_new known, if_pos rfl]

theorem registerAll_cons : p.registerAll (d :: calls) =
    ((p.register d.key d.text).1 :: ((p.register d.key d.text).2.registerAll calls).1,
      ((p.register d.key d.text).2.registerAll calls).2) := rfl

theorem registerAll_knows (knows : p.Knows before) : (p.registerAll calls).2.Knows (before ++ calls) := by
  induction calls generalizing p before with
  | nil => rwa [List.append_nil]
  | cons d rest ih =>
    have later := ih (register_knows (d := d) knows)
    rwa [List.append_assoc] at later

-- Before the call at place `i` stand the calls that the preamble knew, and the first `i` of these.
theorem registerAll_answers (knows : p.Knows before) : (p.registerAll calls).1 =
    calls.mapIdx fun i d => decide (∀ earlier ∈ before ++ calls.take i, earlier.key ≠ d.key) := by
  induction calls generalizing p before with
  | nil => rfl
  | cons d rest ih =>
    have later := ih (register_knows (d := d) knows)
    simp only [List.append_assoc] at later
    rw [List.mapIdx_cons, List.take_zero, List.append_nil, ← register_answer knows]
    exact congrArg _ later

theorem registerAll_fragments : (p.registerAll calls).2.fragments =
    p.fragments ++ ((calls.zip (p.registerAll calls).1).filter Prod.snd).map fun told => told.1.text := by
  induction calls generalizing p with
  | nil => exact (List.append_nil _).symm
  | cons d rest ih =>
    rw [registerAll_cons, ih, register_fragments, List.append_assoc, List.zip_cons_cons]
    cases (p.register d.key d.text).1 <;> rfl

theorem knows_keys (knows : p.Knows calls) : p.keys.toFinset.card = p.size := by
  rw [List.toFinset_card_of_nodup knows.distinct, knows.paired, size]

theorem knows_size (knows : p.Knows calls) : p.size = (calls.map Definition.key).toFinset.card := by
  have same : p.keys.toFinset = (calls.map Definition.key).toFinset := by
    ext key
    rw [List.mem_toFinset, List.mem_toFinset, List.mem_map, knows.keys]
  rw [← same, knows_keys knows]

theorem knows_isEmpty (knows : p.Knows calls) : p.isEmpty = true ↔ calls = [] := by
  have sizes := knows_size knows
  rw [isEmpty, List.isEmpty_iff_length_eq_zero, ← size, sizes, Finset.card_eq_zero, List.toFinset_eq_empty_iff,
    List.map_eq_nil_iff]

end

-- A call is answered with true exactly when it is the first with its key, and the texts of these calls are
-- what the preamble shows. It has one key for each text, and so as many texts as there are different keys.
theorem registerAll_firsts (calls : List Definition) :
    ∃ answers p, empty.registerAll calls = (answers, p) ∧
      answers = calls.mapIdx (fun i d => decide (∀ earlier ∈ calls.take i, earlier.key ≠ d.key)) ∧
      p.fragments = ((calls.zip answers).filter Prod.snd).map (fun told => told.1.text) ∧
      (∀ key, p.contains key = true ↔ ∃ d ∈ calls, d.key = key) ∧
      p.size = (calls.map Definition.key).toFinset.card ∧ p.keys.toFinset.card = p.size ∧
      (p.isEmpty = true ↔ calls = []) := by
  have knows : (empty.registerAll calls).2.Knows calls := registerAll_knows empty_knows
  refine ⟨_, _, rfl, registerAll_answers empty_knows, registerAll_fragments, fun key => ?_, knows_size knows,
    knows_keys knows, knows_isEmpty knows⟩
  rw [contains_iff, knows.keys]

-- The second definition of a key is not looked at.
example : (empty.registerAll [⟨"helper", "a"⟩, ⟨"helper", "b"⟩, ⟨"other", "c"⟩]).1 = [true, false, true] ∧
    (empty.registerAll [⟨"helper", "a"⟩, ⟨"helper", "b"⟩, ⟨"other", "c"⟩]).2.fragments = ["a", "c"] := by decide

end Preamble
end Solid
