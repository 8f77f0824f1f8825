import Solid.Toml.Reader
namespace Solid.Toml

-- A key and a written value, with the item that the value stands for.
structure Row where
  key : String
  value : List Char
  item : Item

def Row.text (row : Row) : List Char := row.key.toList ++ ' ' :: '=' :: ' ' :: (row.value ++ ['\n'])

structure Row.Proper (row : Row) : Prop where
  key : row.key.toList ≠ []
  bare : ∀ c ∈ row.key.toList, isBare c = true
  -- The value begins like one that stands alone.
  begins : ∃ c more, row.value = c :: more ∧ isBlank c = false ∧ c ≠ '[' ∧ c ≠ '\x7b'
  read : ∀ tail, scalar? (row.value ++ '\n' :: tail) = some (row.item, '\n' :: tail)
  clean : '\r' ∉ row.value

def Row.statement (row : Row) : Statement := .setting ⟨[], row.key⟩ row.item

theorem value_scalar {c : Char} {rest : List Char} (bracket : c ≠ '[') (brace : c ≠ '\x7b') (depth : Nat) :
    value? depth (c :: rest) = scalar? (c :: rest) := by
  cases depth with
  | zero => rfl
  | succ depth =>
    unfold value?
    split
    · next same => exact absurd (List.cons.inj same).1 bracket
    · next same => exact absurd (List.cons.inj same).1 brace
    · rfl

theorem blank_cases {c : Char} (blank : isBlank c = true) : c = ' ' ∨ c = '\t' :=
  (Bool.or_eq_true_iff.mp blank).imp of_decide_eq_true of_decide_eq_true

theorem bare_visible {c : Char} (bare : isBare c = true) : isBlank c = false ∧ c ≠ '[' ∧ c ≠ '\n' ∧ c ≠ '#' := by
  refine ⟨Bool.eq_false_iff.mpr fun blank => ?_, ?_, ?_, ?_⟩
  · rcases blank_cases blank with rfl | rfl
    · exact absurd bare (by decide)
    · exact absurd bare (by decide)
  all_goals
    rintro rfl
    exact absurd bare (by decide)

theorem skipBlanks_none {c : Char} {rest : List Char} (visible : isBlank c = false) :
    skipBlanks (c :: rest) = c :: rest := by
  unfold skipBlanks
  rw [List.dropWhile_cons_of_neg (by simp [visible])]

section
variable {row : Row} (proper : row.Proper) (tail : List Char)
include proper

theorem key_begins : ∃ c more, row.key.toList = c :: more ∧ isBare c = true := by
  obtain ⟨c, more, shape⟩ := List.exists_cons_of_ne_nil proper.key
  exact ⟨c, more, shape, proper.bare c (shape ▸ .head _)⟩

theorem text_begins : ∃ c more, row.text ++ tail = c :: more ∧ isBare c = true := by
  obtain ⟨c, more, shape, bare⟩ := key_begins proper
  exact ⟨c, _, by rw [Row.text, shape]; rfl, bare⟩

theorem key_read {rest : List Char} : key? (row.key.toList ++ ' ' :: rest) = some (row.key.toList, ' ' :: rest) := by
  have filled : row.key.toList.isEmpty = false := List.isEmpty_eq_false_iff.mpr proper.key
  unfold key?
  rw [List.takeWhile_append_of_pos proper.bare, List.dropWhile_append_of_pos proper.bare,
    List.takeWhile_cons_of_neg (by decide), List.dropWhile_cons_of_neg (by decide), List.append_nil]
  exact if_neg (by simp [filled])

theorem path_read {rest : List Char} (more : Nat) :
    path? (more + 1) (row.key.toList ++ ' ' :: '=' :: rest) = some (⟨[], row.key⟩, '=' :: rest) := by
  obtain ⟨c, behind, shape, bare⟩ := key_begins proper
  have front : skipBlanks (row.key.toList ++ ' ' :: '=' :: rest) = row.key.toList ++ ' ' :: '=' :: rest := by
    rw [shape]
    exact skipBlanks_none (bare_visible bare).1
  have equals : skipBlanks (' ' :: '=' :: rest) = '=' :: rest := rfl
  unfold path?
  rw [front, key_read proper]
  simp only [Option.bind_eq_bind, Option.bind_some, equals, String.ofList_toList]
  rfl

theorem setting_read :
    setting? (value? mostNested) (row.text ++ tail) = some ((⟨[], row.key⟩, row.item), '\n' :: tail) := by
  obtain ⟨c, more, shape, visible, bracket, brace⟩ := proper.begins
  have text : row.text ++ tail = row.key.toList ++ ' ' :: '=' :: (' ' :: (row.value ++ '\n' :: tail)) := by
    simp [Row.text]
  have blank : skipBlanks (' ' :: (row.value ++ '\n' :: tail)) = row.value ++ '\n' :: tail := by
    change skipBlanks (row.value ++ '\n' :: tail) = _
    rw [shape]
    exact skipBlanks_none visible
  have item : value? mostNested (row.value ++ '\n' :: tail) = some (row.item, '\n' :: tail) := by
    rw [← proper.read tail, shape]
    exact value_scalar bracket brace _
  unfold setting?
  rw [text, show mostKeys = 78 + 1 from rfl, path_read proper]
  change (value? mostNested (skipBlanks _) >>= _) = _
  rw [blank, item]
  rfl

theorem statement_read : statement? (row.text ++ tail) = some (row.statement, tail) := by
  obtain ⟨c, more, shape, bare⟩ := text_begins proper tail
  have read := setting_read proper tail
  rw [shape] at read ⊢
  unfold statement?
  split
  · next same => exact absurd (List.cons.inj same).1 (bare_visible bare).2.1
  · next same => exact absurd (List.cons.inj same).1 (bare_visible bare).2.1
  · rw [read]
    rfl

end

theorem statements_read {rows : List Row} (proper : ∀ row ∈ rows, row.Proper) {fuel : Nat}
    (enough : rows.length < fuel) : statements? fuel (rows.flatMap Row.text) = some (rows.map Row.statement) := by
  induction rows generalizing fuel with
  | nil =>
    obtain ⟨fuel, rfl⟩ := Nat.exists_eq_succ_of_ne_zero (Nat.ne_of_gt enough)
    rfl
  | cons row rows ih =>
    obtain ⟨fuel, rfl⟩ := Nat.exists_eq_succ_of_ne_zero (Nat.ne_of_gt (Nat.zero_lt_of_lt enough))
    have first := proper row (.head _)
    obtain ⟨c, more, shape, bare⟩ := text_begins first (rows.flatMap Row.text)
    obtain ⟨visible, -, newline, hash⟩ := bare_visible bare
    have read := statement_read first (rows.flatMap Row.text)
    rw [shape] at read
    rw [List.flatMap_cons, shape, statements?, skipBlanks_none visible]
    split
    · next same => cases same
    · next same => exact absurd (List.cons.inj same).1 newline
    · next same => exact absurd (List.cons.inj same).1 hash
    · rw [read]
      change (statements? fuel (rows.flatMap Row.text) >>= _) = _
      rw [ih (fun row member => proper row (.tail _ member)) (Nat.lt_of_succ_lt_succ enough)]
      rfl

-- Each setting is put behind those before it.
theorem assembly_settings {rows : List Row} {root : Entries} (distinct : (rows.map Row.key).Nodup)
    (fresh : ∀ row ∈ rows, root.get? row.key = none) : (rows.map Row.statement).foldlM Assembly.step ⟨root, []⟩ =
      some ⟨root ++ rows.map fun row => (row.key, row.item), []⟩ := by
  induction rows generalizing root with
  | nil =>
    rw [List.map_nil, List.map_nil, List.append_nil]
    rfl
  | cons row rows ih =>
    have step : Assembly.step ⟨root, []⟩ row.statement = some ⟨root ++ [(row.key, row.item)], []⟩ := by
      have free : (Entries.get? root row.key).isSome = false := congrArg Option.isSome (fresh row (.head _))
      change (setKey false row.key row.item .headed root).map _ = _
      rw [setKey, if_neg (by simp), if_neg (by simp [free])]
      rfl
    rw [List.map_cons, List.foldlM_cons, step]
    change (rows.map Row.statement).foldlM Assembly.step ⟨root ++ [(row.key, row.item)], []⟩ = _
    obtain ⟨apart, distinct⟩ := List.nodup_cons.mp distinct
    rw [ih distinct, List.append_assoc]
    · rfl
    · intro row' member
      have other : row.key ≠ row'.key := fun same => apart (same ▸ List.mem_map_of_mem member)
      have absent := fresh row' (.tail _ member)
      simp only [Entries.get?, Option.map_eq_none_iff, List.find?_append, List.find?_cons, List.find?_nil,
        beq_eq_false_iff_ne.mpr other] at absent ⊢
      simp [absent]

theorem assemble_settings {rows : List Row} (distinct : (rows.map Row.key).Nodup) :
    assemble (rows.map Row.statement) = some (rows.map fun row => (row.key, row.item)) := by
  unfold assemble
  rw [Assembly.start, assembly_settings distinct fun _ _ => rfl]
  rfl

theorem uniformLines_clean {text : List Char} (clean : '\r' ∉ text) : uniformLines text = text := by
  induction text with
  | nil => rfl
  | cons c text ih =>
    have back : c ≠ '\r' := fun same => clean (same ▸ .head _)
    unfold uniformLines
    split
    · next same => exact absurd (List.cons.inj same).1 back
    · next same =>
      cases same
      rw [ih fun member => clean (.tail _ member)]
    · next same => cases same

theorem row_clean {row : Row} (proper : row.Proper) : '\r' ∉ row.text := by
  have key : '\r' ∉ row.key.toList := fun member => absurd (proper.bare _ member) (by decide)
  simp [Row.text, key, proper.clean]

theorem unmarked {rows : List Row} (proper : ∀ row ∈ rows, row.Proper) :
    skipByteOrderMark (rows.flatMap Row.text) = rows.flatMap Row.text := by
  cases rows with
  | nil => rfl
  | cons row rows =>
    obtain ⟨c, more, shape, bare⟩ := text_begins (proper row (.head _)) (rows.flatMap Row.text)
    rw [List.flatMap_cons, shape]
    unfold skipByteOrderMark
    split
    · next same =>
      rw [(List.cons.inj same).1] at bare
      exact absurd bare (by decide)
    · rfl

theorem rows_long (rows : List Row) : rows.length ≤ (rows.flatMap Row.text).length := by
  induction rows with
  | nil => exact Nat.le_refl _
  | cons row rows ih =>
    simp only [List.flatMap_cons, List.length_append, List.length_cons, Row.text]
    omega

theorem read_settings {rows : List Row} (proper : ∀ row ∈ rows, row.Proper) (distinct : (rows.map Row.key).Nodup)
    {text : String} (written : text.toList = rows.flatMap Row.text) :
    read? text = some (rows.map fun row => (row.key, row.item)) := by
  have clean : '\r' ∉ rows.flatMap Row.text := by
    intro member
    obtain ⟨row, known, inside⟩ := List.mem_flatMap.mp member
    exact row_clean (proper row known) inside
  unfold read?
  rw [written, unmarked proper, uniformLines_clean clean]
  dsimp only
  rw [statements_read proper (Nat.lt_succ_of_le (rows_long rows))]
  exact assemble_settings distinct

end Solid.Toml
