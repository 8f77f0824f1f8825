import Solid.Proofs.Listing
import Solid.Proofs.Measures
namespace Solid.OpenScad

def isDelimiter (c : Char) : Bool := c = ',' || c = ')' || c = ']'

-- Behind a part stands what ends it.
def Delimited (rest : List Char) : Prop := ∃ c more, rest = c :: more ∧ isDelimiter c = true

-- Wherever it stands, a written value with this property ends at its delimiter and is the text of
-- no other such value. It is not taken for the end of an empty list.
structure Readable {α : Type} (P : α → Prop) (write : α → String) : Prop where
  begins : ∀ a, P a → ∃ c rest, (write a).toList = c :: rest ∧ c ≠ ']'
  apart : ∀ a b s t, P a → P b → Delimited s → Delimited t →
    (write a).toList ++ s = (write b).toList ++ t → a = b ∧ s = t

theorem delimited_comma (rest : List Char) : Delimited (',' :: rest) := ⟨',', rest, rfl, rfl⟩

theorem delimited_paren (rest : List Char) : Delimited (')' :: rest) := ⟨')', rest, rfl, rfl⟩

theorem delimited_bracket (rest : List Char) : Delimited (']' :: rest) := ⟨']', rest, rfl, rfl⟩

-- A text without delimiters is what stands before the first one.
theorem front_text {text : String} {rest : List Char} (plain : ∀ c ∈ text.toList, isDelimiter c = false)
    (ends : Delimited rest) : (text.toList ++ rest).takeWhile (fun c => !isDelimiter c) = text.toList := by
  obtain ⟨c, more, rfl, delimiter⟩ := ends
  have inside : ∀ c ∈ text.toList, (!isDelimiter c) = true := by
    intro c member
    rw [plain c member]
    rfl
  rw [List.takeWhile_append_of_pos inside, List.takeWhile_cons_of_neg (by simp [delimiter]), List.append_nil]

section
variable {α β : Type} {P : α → Prop} {Q : β → Prop} {write : α → String} {write' : β → String}

theorem readable_plain (filled : ∀ a, P a → write a ≠ "")
    (plain : ∀ a, P a → ∀ c ∈ (write a).toList, isDelimiter c = false)
    (distinct : ∀ a b, P a → P b → write a = write b → a = b) : Readable P write := by
  constructor
  · intro a proper
    obtain ⟨c, rest, same⟩ := List.exists_cons_of_ne_nil (mt String.toList_eq_nil_iff.mp (filled a proper))
    refine ⟨c, rest, same, ?_⟩
    rintro rfl
    have inside := plain a proper ']' (by rw [same]; exact .head rest)
    exact absurd inside (by decide)
  · intro a b s t proper proper' ends ends' same
    have text := congrArg (List.takeWhile fun c => !isDelimiter c) same
    rw [front_text (plain a proper) ends, front_text (plain b proper') ends'] at text
    have value := distinct a b proper proper' (String.toList_inj.mp text)
    subst value
    exact ⟨rfl, List.append_cancel_left same⟩

theorem readable_through {view : β → α} (readable : Readable P write)
    (distinct : ∀ a b, view a = view b → a = b) : Readable (fun b => P (view b)) fun b => write (view b) := by
  constructor
  · intro b proper
    exact readable.begins (view b) proper
  · intro b b' s t proper proper' ends ends' same
    obtain ⟨value, rest⟩ := readable.apart (view b) (view b') s t proper proper' ends ends' same
    exact ⟨distinct b b' value, rest⟩

-- The elements of a list behind the first, up to its closing bracket.
def following (write : α → String) (xs : List α) (s : List Char) : List Char :=
  match xs with
  | [] => ']' :: s
  | x :: rest => ',' :: ' ' :: (write x).toList ++ following write rest s

theorem following_delimited (xs : List α) (s : List Char) : Delimited (following write xs s) := by
  cases xs with
  | nil => exact delimited_bracket s
  | cons x rest => exact delimited_comma _

theorem listed_cons (x : α) (rest : List α) (s : List Char) :
    (", ".intercalate ((x :: rest).map write)).toList ++ ']' :: s = (write x).toList ++ following write rest s := by
  induction rest generalizing x with
  | nil => simp [following]
  | cons y more ih =>
    have comma : ", ".toList = [',', ' '] := rfl
    have step := ih y
    simp only [List.map_cons] at step ⊢
    rw [String.intercalate_cons_cons, String.toList_append, String.toList_append, List.append_assoc,
      List.append_assoc, step, comma]
    rfl

theorem bracketed_cons (x : α) (rest : List α) (s : List Char) :
    (bracketed ((x :: rest).map write)).toList ++ s = '[' :: (write x).toList ++ following write rest s := by
  rw [List.cons_append, ← listed_cons, bracketed, String.toList_append, String.toList_append]
  simp

theorem following_apart (readable : Readable P write) {xs ys : List α} {s t : List Char}
    (proper : ∀ x ∈ xs, P x) (proper' : ∀ y ∈ ys, P y) (same : following write xs s = following write ys t) :
    xs = ys ∧ s = t := by
  induction xs generalizing ys with
  | nil =>
    cases ys with
    | nil => exact ⟨rfl, List.tail_eq_of_cons_eq same⟩
    | cons y more => cases same
  | cons x rest ih =>
    cases ys with
    | nil => cases same
    | cons y more =>
      rw [List.forall_mem_cons] at proper proper'
      have inner : (write x).toList ++ following write rest s = (write y).toList ++ following write more t :=
        List.tail_eq_of_cons_eq (List.tail_eq_of_cons_eq same)
      obtain ⟨first, others⟩ := readable.apart x y _ _ proper.1 proper'.1 (following_delimited rest s)
        (following_delimited more t) inner
      obtain ⟨rests, ends⟩ := ih proper.2 proper'.2 others
      exact ⟨by rw [first, rests], ends⟩

theorem bracketed_nil (s : List Char) : (bracketed []).toList ++ s = '[' :: ']' :: s := by
  simp [bracketed]

theorem readable_bracketed (readable : Readable P write) :
    Readable (fun xs : List α => ∀ x ∈ xs, P x) fun xs => bracketed (xs.map write) := by
  have filled (x : α) (rest : List α) (s t : List Char) (proper : P x) :
      (bracketed ((x :: rest).map write)).toList ++ s ≠ (bracketed []).toList ++ t := by
    obtain ⟨c, more, first, other⟩ := readable.begins x proper
    rw [bracketed_cons, bracketed_nil, first]
    intro same
    exact other (List.head_eq_of_cons_eq (List.tail_eq_of_cons_eq same))
  constructor
  · intro xs proper
    refine ⟨'[', ((bracketed (xs.map write)).toList).tail, ?_, by decide⟩
    simp [bracketed]
  · intro xs ys s t proper proper' ends ends' same
    cases xs with
    | nil =>
      cases ys with
      | nil => exact ⟨rfl, List.append_cancel_left same⟩
      | cons y more => exact absurd same.symm (filled y more t s (proper' y (.head more)))
    | cons x rest =>
      cases ys with
      | nil => exact absurd same (filled x rest s t (proper x (.head rest)))
      | cons y more =>
        rw [bracketed_cons, bracketed_cons] at same
        rw [List.forall_mem_cons] at proper proper'
        obtain ⟨first, others⟩ := readable.apart x y _ _ proper.1 proper'.1 (following_delimited rest s)
          (following_delimited more t) (List.tail_eq_of_cons_eq same)
        obtain ⟨rests, ends⟩ := following_apart readable proper.2 proper'.2 others
        exact ⟨by rw [first, rests], ends⟩

theorem readable_labelled (readable : Readable P write) {label : String} {c : Char} {rest : List Char}
    (text : label.toList = c :: rest) (first : c ≠ ']') : Readable P fun a => label ++ write a := by
  constructor
  · intro a proper
    exact ⟨c, rest ++ (write a).toList, by rw [String.toList_append, text]; rfl, first⟩
  · intro a b s t proper proper' ends ends' same
    rw [String.toList_append, String.toList_append, List.append_assoc, List.append_assoc] at same
    exact readable.apart a b s t proper proper' ends ends' (List.append_cancel_left same)

end

def finite (x : Float) : Prop := x.isFinite = true

theorem digit_plain {c : Char} (digit : Decimal.isDigit c = true) : isDelimiter c = false := by
  unfold isDelimiter
  by_cases comma : c = ','
  · rw [comma] at digit
    exact absurd digit (by decide)
  · by_cases paren : c = ')'
    · rw [paren] at digit
      exact absurd digit (by decide)
    · by_cases bracket : c = ']'
      · rw [bracket] at digit
        exact absurd digit (by decide)
      · simp [comma, paren, bracket]

theorem readable_measure : Readable finite Decimal.measure := by
  refine readable_plain ?_ ?_ fun x y hx hy same => Decimal.measure_injective hx hy same
  · intro x proper empty
    have characters := Decimal.measure_characters proper
    rw [empty] at characters
    have nothing := (List.append_eq_nil_iff.mp characters.symm).2
    by_cases zero : (Decimal.Binary.ofFloat x).significand = 0
    · rw [Decimal.magnitude_zero zero] at nothing
      cases nothing
    · have amount := Decimal.plain_amount (Decimal.shortest_nonzero .up _ zero)
      have positive := Decimal.amount_positive (Decimal.shortest_nonzero .up _ zero)
      rw [← amount, ← Decimal.magnitude_nonzero zero, nothing] at positive
      norm_num [Decimal.numeralAmount, Decimal.value] at positive
  · intro x proper c member
    rw [Decimal.measure_characters proper, List.mem_append] at member
    rcases member with sign | inside
    · split at sign
      · rw [List.mem_singleton.mp sign]
        rfl
      · cases sign
    · rcases Decimal.magnitude_characters _ c inside with digit | point
      · exact digit_plain digit
      · rw [point]
        rfl

theorem readable_text : Readable (fun _ => True) Decimal.text := by
  refine readable_plain ?_ ?_ ?_
  · intro n _ empty
    exact Decimal.digits_ne_nil n (by simpa [Decimal.text] using empty)
  · intro n _ c member
    exact digit_plain (Decimal.digits_isDigit n c (by simpa [Decimal.text] using member))
  · intro m n _ _ same
    have run : Decimal.digits m = Decimal.digits n := String.ofList_injective same
    rw [← Decimal.value_digits m, run, Decimal.value_digits]

theorem readable_vector : Readable (fun xs => ∀ x ∈ xs, finite x) vector := readable_bracketed readable_measure

theorem readable_point2 : Readable (fun p : Point2 => ∀ x ∈ [p.x, p.y], finite x) point2 :=
  readable_through readable_vector fun p q same => by
    cases p
    cases q
    simpa using same

theorem readable_point3 : Readable (fun p : Point3 => ∀ x ∈ [p.x, p.y, p.z], finite x) point3 :=
  readable_through readable_vector fun p q same => by
    cases p
    cases q
    simpa using same

theorem readable_triangle : Readable (fun t : Triangle => ∀ i ∈ t.corners, True) triangle :=
  readable_through (readable_bracketed readable_text) fun t u same => by
    cases t
    cases u
    simpa [Triangle.corners] using same

-- The name of a call is what stands before the first parenthesis.
theorem name_apart {name name' : String} (plain : '(' ∉ name.toList) (plain' : '(' ∉ name'.toList)
    {s t : List Char} (same : name.toList ++ '(' :: s = name'.toList ++ '(' :: t) : name = name' ∧ s = t := by
  have front (text : String) (plain : '(' ∉ text.toList) (rest : List Char) :
      (text.toList ++ '(' :: rest).takeWhile (· ≠ '(') = text.toList := by
    have inside : ∀ c ∈ text.toList, decide (c ≠ '(') = true := by
      intro c member
      refine decide_eq_true ?_
      rintro rfl
      exact plain member
    rw [List.takeWhile_append_of_pos inside, List.takeWhile_cons_of_neg (by decide), List.append_nil]
  have names := congrArg (List.takeWhile (· ≠ '(')) same
  rw [front name plain, front name' plain'] at names
  rw [names] at same
  exact ⟨String.toList_inj.mp names, List.tail_eq_of_cons_eq (List.append_cancel_left same)⟩

theorem call_characters (name : String) (arguments : List String) :
    (call name arguments).toList = name.toList ++ '(' :: ((", ".intercalate arguments).toList ++ [')']) := by
  simp [call]

section
variable {α β γ : Type} {P : α → Prop} {Q : β → Prop} {R : γ → Prop}
variable {write : α → String} {write' : β → String} {write'' : γ → String} {name : String}

theorem call_arguments {arguments arguments' : List String} (same : call name arguments = call name arguments') :
    (", ".intercalate arguments).toList ++ [')'] = (", ".intercalate arguments').toList ++ [')'] := by
  have characters := congrArg String.toList same
  rw [call_characters, call_characters] at characters
  exact List.tail_eq_of_cons_eq (List.append_cancel_left characters)

theorem call_one (readable : Readable P write) {a b : α} (proper : P a) (proper' : P b)
    (same : call name [write a] = call name [write b]) : a = b := by
  have arguments := call_arguments same
  rw [String.intercalate_singleton, String.intercalate_singleton] at arguments
  exact (readable.apart a b _ _ proper proper' (delimited_paren []) (delimited_paren []) arguments).1

-- The first of several arguments, and the call without it.
theorem call_first (readable : Readable P write) {a b : α} (proper : P a) (proper' : P b)
    {second second' : String} {others others' : List String}
    (same : call name (write a :: second :: others) = call name (write b :: second' :: others')) :
    a = b ∧ call name (second :: others) = call name (second' :: others') := by
  have comma : ", ".toList = [',', ' '] := rfl
  have arguments := call_arguments same
  rw [String.intercalate_cons_cons, String.intercalate_cons_cons] at arguments
  simp only [String.toList_append, List.append_assoc, comma, List.cons_append, List.nil_append] at arguments
  obtain ⟨first, rest⟩ := readable.apart a b _ _ proper proper' (delimited_comma _) (delimited_comma _) arguments
  refine ⟨first, String.toList_inj.mp ?_⟩
  rw [call_characters, call_characters, List.tail_eq_of_cons_eq (List.tail_eq_of_cons_eq rest)]

theorem call_two (readable : Readable P write) (readable' : Readable Q write') {a b : α} {a' b' : β}
    (proper : P a ∧ Q a') (proper' : P b ∧ Q b')
    (same : call name [write a, write' a'] = call name [write b, write' b']) : a = b ∧ a' = b' := by
  obtain ⟨first, rest⟩ := call_first readable proper.1 proper'.1 same
  exact ⟨first, call_one readable' proper.2 proper'.2 rest⟩

theorem call_three (readable : Readable P write) (readable' : Readable Q write') (readable'' : Readable R write'')
    {a b : α} {a' b' : β} {a'' b'' : γ} (proper : P a ∧ Q a' ∧ R a'') (proper' : P b ∧ Q b' ∧ R b'')
    (same : call name [write a, write' a', write'' a''] = call name [write b, write' b', write'' b'']) :
    a = b ∧ a' = b' ∧ a'' = b'' := by
  obtain ⟨first, rest⟩ := call_first readable proper.1 proper'.1 same
  exact ⟨first, call_two readable' readable'' proper.2 proper'.2 rest⟩

end

end Solid.OpenScad
