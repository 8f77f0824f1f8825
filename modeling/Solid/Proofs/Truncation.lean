import Solid.Proofs.Written
import Solid.Proofs.Documents
import Solid.Node.Json
namespace Solid.Json

section
variable {limit : Nat} {s : State} {stack : List Frame} {text rest : List Char}

-- The text may end nowhere, its own end included.
def Unfinished (limit : Nat) (s : State) (text : List Char) : Prop :=
  ∀ cut, cut <+: text → ∃ e, s.run limit cut = .error e

theorem unfinished_nil : Unfinished limit s [] ↔ ∃ e, s.finish = .error e := by
  constructor
  · intro unfinished
    exact unfinished [] List.nil_prefix
  · intro ended cut begins
    cases List.prefix_nil.mp begins
    exact ended

theorem unfinished_cons {c : Char} : Unfinished limit s (c :: rest) ↔
    (∃ e, s.finish = .error e) ∧ ∀ t, s.step limit c = some t → Unfinished limit t rest := by
  constructor
  · intro unfinished
    refine ⟨unfinished [] List.nil_prefix, fun t step cut begins => ?_⟩
    rw [← run_step step cut]
    exact unfinished (c :: cut) (List.cons_prefix_cons.mpr ⟨rfl, begins⟩)
  · intro known cut begins
    obtain ⟨ended, onward⟩ := known
    rcases List.prefix_cons_iff.mp begins with rfl | ⟨cut, rfl, inner⟩
    · exact ended
    · cases step : s.step limit c with
      | none => exact ⟨_, run_stop step cut⟩
      | some t =>
        rw [run_step step]
        exact onward t step cut inner

-- One character is read, and then the rest.
theorem unfinished_step {t : State} {c : Char} (ended : ∃ e, s.finish = .error e)
    (step : s.step limit c = some t) (unfinished : Unfinished limit t rest) :
    Unfinished limit s (c :: rest) := by
  refine unfinished_cons.mpr ⟨ended, fun t' step' => ?_⟩
  cases step.symm.trans step'
  exact unfinished

theorem unfinished_gap (patient : s.mode.Patient) (gap : Gap) :
    Unfinished limit s (gap.1 ++ rest) ↔ Unfinished limit s rest := by
  obtain ⟨run, blank⟩ := gap
  induction run with
  | nil => exact Iff.rfl
  | cons c more ih =>
    obtain ⟨first, others⟩ := List.forall_mem_cons.mp blank
    have step : s.step limit c = some s := step_blank patient first
    have inner := ih others
    constructor
    · intro unfinished
      exact inner.mp ((unfinished_cons.mp unfinished).2 s step)
    · intro unfinished
      exact unfinished_step (unfinished [] List.nil_prefix) step (inner.mpr unfinished)

theorem unfinished_blanks (patient : s.mode.Patient) (ended : ∃ e, s.finish = .error e) (gap : Gap) :
    Unfinished limit s gap.1 := by
  rw [← List.append_nil gap.1, unfinished_gap patient]
  exact unfinished_nil.mpr ended

-- Inside a container a complete value is no end.
theorem settle_inside (inside : stack ≠ []) (v : Json) : ∃ e, (settle stack v).finish = .error e := by
  cases stack with
  | nil => exact absurd rfl inside
  | cons frame rest => cases frame <;> exact ⟨_, rfl⟩

theorem numeral_inside (inside : stack ≠ []) (n : Numeral) :
    ∃ e, State.finish ⟨stack, .numeral n⟩ = .error e := by
  cases stack with
  | nil => exact absurd rfl inside
  | cons frame rest =>
    simp only [State.finish]
    cases n.complete with
    | false => exact ⟨_, rfl⟩
    | true => cases n.value <;> exact ⟨_, rfl⟩

theorem unfinished_word {word : List Char} (inside : stack ≠ []) (some : word ≠ []) (v : Json) :
    Unfinished limit ⟨stack, .word word v⟩ word := by
  induction word with
  | nil => exact absurd rfl some
  | cons c more ih =>
    cases more with
    | nil => exact unfinished_step ⟨_, rfl⟩ (if_pos rfl) (unfinished_nil.mpr (settle_inside inside v))
    | cons next more => exact unfinished_step ⟨_, rfl⟩ (if_pos rfl) (ih (by simp))

theorem unfinished_pushAll {n n' : Numeral} {run : List Char} (inside : stack ≠ [])
    (pushed : n.pushAll run = some n') : Unfinished limit ⟨stack, .numeral n⟩ run := by
  induction run generalizing n with
  | nil => exact unfinished_nil.mpr (numeral_inside inside n)
  | cons c more ih =>
    rw [Numeral.pushAll] at pushed
    cases next : n.push c with
    | more n'' =>
      simp only [next] at pushed
      have step : State.step limit ⟨stack, .numeral n⟩ c = some ⟨stack, .numeral n''⟩ := by
        simp only [State.step, next]
      exact unfinished_step (numeral_inside inside n) step (ih pushed)
    | past | wrong => simp [next] at pushed

theorem unfinished_scan {purpose : Purpose} {before meaning : List Char} {scan scan' : Scan}
    {run : List Char} (scanned : scanAll before scan run = some (meaning, scan'))
    (behind : Unfinished limit ⟨stack, .string purpose meaning scan'⟩ rest) :
    Unfinished limit ⟨stack, .string purpose before scan⟩ (run ++ rest) := by
  induction run generalizing before scan with
  | nil =>
    cases scanned
    exact behind
  | cons c more ih =>
    rw [scanAll] at scanned
    cases next : spell before scan c with
    | more before' scan'' =>
      simp only [next] at scanned
      have step : State.step limit ⟨stack, .string purpose before scan⟩ c =
          some ⟨stack, .string purpose before' scan''⟩ := by
        simp only [State.step, next]
      exact unfinished_step ⟨_, rfl⟩ step (ih scanned)
    | close | wrong => simp [next] at scanned

theorem unfinished_quoted (purpose : Purpose) (q : Quoted)
    (behind : Unfinished limit (settleString stack purpose q.meaning) rest) :
    Unfinished limit ⟨stack, .string purpose [] .plain⟩ (q.text ++ '"' :: rest) := by
  apply unfinished_scan q.read
  have close : State.step limit ⟨stack, .string purpose q.meaning .plain⟩ '"' =
      some (settleString stack purpose q.meaning) := rfl
  exact unfinished_step ⟨_, rfl⟩ close behind

theorem unfinished_key (before : List (String × Json)) (l : Label)
    (behind : Unfinished limit ⟨.member before l.name.value :: stack, .value⟩ rest) :
    Unfinished limit ⟨stack, .key before⟩ (l.written ++ rest) := by
  have opened : State.step limit ⟨stack, .key before⟩ '"' = some ⟨stack, .string (.key before) [] .plain⟩ := rfl
  have colon : State.step limit ⟨stack, .colon before l.name.value⟩ ':' =
      some ⟨.member before l.name.value :: stack, .value⟩ := rfl
  simp only [Label.written, Quoted.written, List.append_assoc, List.cons_append, List.nil_append]
  rw [unfinished_gap (s := ⟨stack, .key before⟩) trivial]
  apply unfinished_step ⟨_, rfl⟩ opened
  apply unfinished_quoted
  change Unfinished limit ⟨stack, .colon before l.name.value⟩ _
  rw [unfinished_gap (s := ⟨stack, .colon before l.name.value⟩) trivial]
  exact unfinished_step ⟨_, rfl⟩ colon behind

-- A cut falls into the value or behind it.
theorem unfinished_value {d : Doc} (own : Unfinished limit ⟨stack, .value⟩ d.text) (bounded : Bounded rest)
    (behind : ∀ v, Unfinished limit (settle stack v) rest) :
    Unfinished limit ⟨stack, .value⟩ (d.text ++ rest) := by
  intro cut begins
  rcases List.prefix_or_prefix_of_prefix begins (List.prefix_append d.text rest) with within | beyond
  · exact own cut within
  · obtain ⟨more, rfl⟩ := beyond
    have begins := (List.prefix_append_right_inj d.text).mp begins
    have bounded : Bounded more := by
      intro c tail same
      obtain ⟨back, rfl⟩ := begins
      exact bounded c (tail ++ back) (by rw [same]; rfl)
    rw [run_doc d stack bounded]
    cases d.read (limit - stack.length) with
    | none => exact ⟨_, rfl⟩
    | some v => exact behind v more begins

-- An opening bracket counts only where there is room for a container more.
theorem unfinished_opened {bracket : Char} {mode : Mode}
    (opens : State.step limit ⟨stack, .value⟩ bracket = if stack.length < limit then some ⟨stack, mode⟩ else none)
    (unfinished : Unfinished limit ⟨stack, mode⟩ text) : Unfinished limit ⟨stack, .value⟩ (bracket :: text) := by
  refine unfinished_cons.mpr ⟨⟨_, rfl⟩, fun t step => ?_⟩
  rw [opens] at step
  split at step
  · cases step
    exact unfinished
  · cases step

-- A container up to its closing bracket.
theorem array_front (gap : Gap) {items : List (Gap × Doc × Gap)}
    (inner : items ≠ [] → Unfinished limit ⟨.item [] :: stack, .value⟩ (Doc.itemsText items)) :
    ∃ front, (Doc.array gap items).text = front ++ [']'] ∧ Unfinished limit ⟨stack, .value⟩ front := by
  cases items with
  | nil =>
    have blanks : Unfinished limit ⟨stack, .firstItem⟩ gap.1 :=
      unfinished_blanks (s := ⟨stack, .firstItem⟩) trivial ⟨_, rfl⟩ gap
    exact ⟨'[' :: gap.1, rfl, unfinished_opened rfl blanks⟩
  | cons item rest =>
    have filled := List.cons_ne_nil item rest
    have inner := inner filled
    refine ⟨'[' :: Doc.itemsText (item :: rest), rfl, unfinished_opened rfl ?_⟩
    obtain ⟨gap, c, back, shape, visible, other⟩ := itemsText_begins filled
    rw [shape, unfinished_gap (s := ⟨_, .value⟩) trivial] at inner
    rw [shape, unfinished_gap (s := ⟨_, .firstItem⟩) trivial]
    refine unfinished_cons.mpr ⟨⟨_, rfl⟩, fun t step => (unfinished_cons.mp inner).2 t ?_⟩
    rw [← step]
    simp [State.step, visible, other]

theorem object_front (gap : Gap) {members : List (Label × Gap × Doc × Gap)}
    (inner : members ≠ [] → Unfinished limit ⟨stack, .key []⟩ (Doc.membersText members)) :
    ∃ front, (Doc.object gap members).text = front ++ ['\x7d'] ∧ Unfinished limit ⟨stack, .value⟩ front := by
  cases members with
  | nil =>
    have blanks : Unfinished limit ⟨stack, .firstMember⟩ gap.1 :=
      unfinished_blanks (s := ⟨stack, .firstMember⟩) trivial ⟨_, rfl⟩ gap
    exact ⟨'\x7b' :: gap.1, rfl, unfinished_opened rfl blanks⟩
  | cons member rest =>
    have filled := List.cons_ne_nil member rest
    have inner := inner filled
    refine ⟨'\x7b' :: Doc.membersText (member :: rest), rfl, unfinished_opened rfl ?_⟩
    obtain ⟨l, back, shape⟩ := membersText_begins filled
    simp only [shape, Label.written, Quoted.written, List.append_assoc, List.cons_append] at inner ⊢
    rw [unfinished_gap (s := ⟨_, .key []⟩) trivial] at inner
    rw [unfinished_gap (s := ⟨_, .firstMember⟩) trivial]
    exact unfinished_cons.mpr ⟨⟨_, rfl⟩, fun t step => (unfinished_cons.mp inner).2 t step⟩

-- Inside a container even the whole value is no end.
theorem unfinished_closed {d : Doc} {front : List Char} {c : Char} (inside : stack ≠ [])
    (written : d.text = front ++ [c]) (unfinished : Unfinished limit ⟨stack, .value⟩ front) :
    Unfinished limit ⟨stack, .value⟩ d.text := by
  intro cut begins
  rw [written] at begins
  rcases List.prefix_concat_iff.mp begins with whole | within
  · have nothing : Bounded [] := nofun
    have read : State.run limit ⟨stack, .value⟩ (d.text ++ []) = _ := run_doc d stack nothing
    rw [List.append_nil] at read
    rw [whole, ← written, read]
    cases d.read (limit - stack.length) with
    | none => exact ⟨_, rfl⟩
    | some v => exact settle_inside inside v
  · exact unfinished cut within

-- By induction on the document. Its parts stand inside it, whatever is open around the whole.
mutual

theorem doc_unfinished (d : Doc) {stack : List Frame} (inside : stack ≠ []) :
    Unfinished limit ⟨stack, .value⟩ d.text := by
  match d with
  | .null => exact unfinished_step ⟨_, rfl⟩ rfl (unfinished_word inside (by simp) .null)
  | .bool true => exact unfinished_step ⟨_, rfl⟩ rfl (unfinished_word inside (by simp) (.bool true))
  | .bool false => exact unfinished_step ⟨_, rfl⟩ rfl (unfinished_word inside (by simp) (.bool false))
  | .number t =>
    obtain ⟨c, more, n, written, step, pushed⟩ := @token_begun limit stack t
    rw [Doc.text, written]
    exact unfinished_step ⟨_, rfl⟩ step (unfinished_pushAll inside pushed)
  | .string q =>
    have settled : Unfinished limit (settle stack (.string q.value)) [] :=
      unfinished_nil.mpr (settle_inside inside _)
    exact unfinished_step ⟨_, rfl⟩ rfl (unfinished_quoted .value q settled)
  | .array gap items =>
    obtain ⟨front, written, unfinished⟩ := array_front gap fun filled => items_unfinished items filled [] stack
    exact unfinished_closed inside written unfinished
  | .object gap members =>
    obtain ⟨front, written, unfinished⟩ :=
      object_front gap fun filled => members_unfinished members filled [] stack
    exact unfinished_closed inside written unfinished

theorem items_unfinished (items : List (Gap × Doc × Gap)) (filled : items ≠ []) (before : List Json)
    (stack : List Frame) : Unfinished limit ⟨.item before :: stack, .value⟩ (Doc.itemsText items) := by
  match items with
  | [] => exact absurd rfl filled
  | (gap, d, gap') :: more =>
    have own : Unfinished limit ⟨.item before :: stack, .value⟩ d.text := doc_unfinished d (by simp)
    cases more with
    | nil =>
      rw [Doc.itemsText, List.append_assoc, unfinished_gap (s := ⟨_, .value⟩) trivial]
      apply unfinished_value own (blank_bounded gap')
      intro v
      exact unfinished_blanks (s := ⟨stack, .afterItem (v :: before)⟩) trivial ⟨_, rfl⟩ gap'
    | cons next more =>
      rw [itemsText_cons (by simp), List.append_assoc, List.append_assoc, unfinished_gap (s := ⟨_, .value⟩) trivial]
      apply unfinished_value own (gap_bounded gap' closing_ends.1 _)
      intro v
      have others := items_unfinished (next :: more) (by simp) (v :: before) stack
      exact (unfinished_gap (s := ⟨stack, .afterItem (v :: before)⟩) trivial gap').mpr
        (unfinished_step ⟨_, rfl⟩ rfl others)

theorem members_unfinished (members : List (Label × Gap × Doc × Gap)) (filled : members ≠ [])
    (before : List (String × Json)) (stack : List Frame) :
    Unfinished limit ⟨stack, .key before⟩ (Doc.membersText members) := by
  match members with
  | [] => exact absurd rfl filled
  | (l, gap, d, gap') :: more =>
    have own : Unfinished limit ⟨.member before l.name.value :: stack, .value⟩ d.text := doc_unfinished d (by simp)
    cases more with
    | nil =>
      rw [Doc.membersText, List.append_assoc, List.append_assoc]
      apply unfinished_key
      rw [unfinished_gap (s := ⟨_, .value⟩) trivial]
      apply unfinished_value own (blank_bounded gap')
      intro v
      exact unfinished_blanks (s := ⟨stack, .afterMember ((l.name.value, v) :: before)⟩) trivial ⟨_, rfl⟩ gap'
    | cons next more =>
      rw [membersText_cons (by simp), List.append_assoc, List.append_assoc, List.append_assoc]
      apply unfinished_key
      rw [unfinished_gap (s := ⟨_, .value⟩) trivial]
      apply unfinished_value own (gap_bounded gap' closing_ends.1 _)
      intro v
      have others := members_unfinished (next :: more) (by simp) ((l.name.value, v) :: before) stack
      exact (unfinished_gap (s := ⟨stack, .afterMember ((l.name.value, v) :: before)⟩) trivial gap').mpr
        (unfinished_step ⟨_, rfl⟩ rfl others)

end

-- No text of an array or an object can be read when it is cut off.
theorem container_cut {d : Doc} (container : d.depth ≠ 0) {cut : List Char} (begins : cut <+: d.text)
    (proper : cut ≠ d.text) : ∃ e, State.run limit ⟨stack, .value⟩ cut = .error e := by
  have known : ∃ front c, d.text = front ++ [c] ∧ Unfinished limit ⟨stack, .value⟩ front := by
    cases d with
    | null | bool _ | number _ | string _ => exact absurd rfl container
    | array gap items =>
      obtain ⟨front, written, unfinished⟩ := array_front gap fun filled => items_unfinished items filled [] stack
      exact ⟨front, _, written, unfinished⟩
    | object gap members =>
      obtain ⟨front, written, unfinished⟩ :=
        object_front gap fun filled => members_unfinished members filled [] stack
      exact ⟨front, _, written, unfinished⟩
  obtain ⟨front, c, written, unfinished⟩ := known
  rw [written] at begins
  rcases List.prefix_concat_iff.mp begins with whole | within
  · exact absurd (whole.trans written.symm) proper
  · exact unfinished cut within

end

end Solid.Json

namespace Solid

-- A saved tree that is cut off anywhere fails before any node is looked at.
theorem load_cut {node : Node} {text cut : String} (written : text = node.compact ∨ text = node.pretty)
    (begins : cut.toList <+: text.toList) (proper : cut ≠ text) :
    ∃ e, Node.load cut = .error (.json e) := by
  have known : ∃ s : Json.Spacing, (node.toJson.doc s 0).text = text.toList := by
    rcases written with rfl | rfl
    · exact ⟨.compact, by simp [Node.compact, Json.compact, Json.doc_compact]⟩
    · exact ⟨.pretty, by simp [Node.pretty, Json.pretty, Json.doc_pretty]⟩
  obtain ⟨s, same⟩ := known
  have container : (node.toJson.doc s 0).depth ≠ 0 := by
    cases node <;> simp [Node.toJson, Node.tagged, Json.doc, Json.Doc.depth]
  have proper : cut.toList ≠ text.toList := fun whole => proper (String.toList_inj.mp whole)
  rw [← same] at begins proper
  have unread : ∃ e, Json.read cut = .error e := Json.container_cut container begins proper
  obtain ⟨e, unread⟩ := unread
  exact ⟨e, by rw [Node.load, unread]; rfl⟩

-- The cut falls into a numeral, and what is left of it is one as well.
def cutCircle : String := "\x7b\"type\":\"circle\",\"radius\":1"

theorem load_cut_circle : cutCircle.toList <+: (Node.shape (.circle 12.0)).compact.toList ∧
    cutCircle ≠ (Node.shape (.circle 12.0)).compact ∧ ∃ e, Node.load cutCircle = .error (.json e) := by
  have written : (Node.shape (.circle 12.0)).compact = "\x7b\"type\":\"circle\",\"radius\":12.0\x7d" := by
    decide +kernel
  have begins : cutCircle.toList <+: (Node.shape (.circle 12.0)).compact.toList := by
    rw [written]
    exact ⟨"2.0\x7d".toList, rfl⟩
  have proper : cutCircle ≠ (Node.shape (.circle 12.0)).compact := by
    rw [written]
    decide
  exact ⟨begins, proper, load_cut (.inl rfl) begins proper⟩

end Solid
