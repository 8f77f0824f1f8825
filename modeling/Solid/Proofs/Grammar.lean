import Solid.Json
import Solid.Proofs.Numerals
namespace Solid.Json
open Decimal (isDigit)

-- Blanks between the parts of a text.
abbrev Gap := {run : List Char // ∀ c ∈ run, isBlank c = true}

structure Token where
  text : List Char
  numeral : Numeral
  read : Numeral.lex text = some numeral
  complete : numeral.complete = true

-- The characters inside a string, read one by one.
def scanAll (before : List Char) (scan : Scan) : List Char → Option (List Char × Scan)
  | [] => some (before, scan)
  | c :: rest =>
    match spell before scan c with
    | .more before' scan' => scanAll before' scan' rest
    | .close | .wrong => none

-- What stands between two quotes. What it means has the last character first.
structure Quoted where
  text : List Char
  meaning : List Char
  read : scanAll [] .plain text = some (meaning, .plain)

def Quoted.value (q : Quoted) : String := String.ofList q.meaning.reverse

def Quoted.written (q : Quoted) : List Char := '"' :: q.text ++ ['"']

-- A key and the blanks around it.
structure Label where
  before : Gap
  name : Quoted
  after : Gap

def Label.written (l : Label) : List Char := l.before.1 ++ l.name.written ++ l.after.1 ++ [':']

-- The gap of an array or an object counts when there is nothing else in it. Items have a gap on
-- either side.
inductive Doc where
  | null
  | bool (b : Bool)
  | number (t : Token)
  | string (q : Quoted)
  | array (gap : Gap) (items : List (Gap × Doc × Gap))
  | object (gap : Gap) (members : List (Label × Gap × Doc × Gap))

namespace Doc

abbrev Item := Gap × Doc × Gap

abbrev Member := Label × Gap × Doc × Gap

mutual

def text : Doc → List Char
  | null => "null".toList
  | bool b => writeBool b
  | number t => t.text
  | string q => q.written
  | array gap [] => '[' :: gap.1 ++ [']']
  | array _ (item :: rest) => '[' :: itemsText (item :: rest) ++ [']']
  | object gap [] => '\x7b' :: gap.1 ++ ['\x7d']
  | object _ (m :: rest) => '\x7b' :: membersText (m :: rest) ++ ['\x7d']

def itemsText : List (Gap × Doc × Gap) → List Char
  | [] => []
  | [(before, d, after)] => before.1 ++ d.text ++ after.1
  | (before, d, after) :: rest => before.1 ++ d.text ++ after.1 ++ ',' :: itemsText rest

def membersText : List (Label × Gap × Doc × Gap) → List Char
  | [] => []
  | [(l, before, d, after)] => l.written ++ before.1 ++ d.text ++ after.1
  | (l, before, d, after) :: rest =>
    l.written ++ before.1 ++ d.text ++ after.1 ++ ',' :: membersText rest

end

mutual

-- The value, when at most `room` containers are nested and every numeral is in range.
def read (room : Nat) : Doc → Option Json
  | null => some .null
  | bool b => some (.bool b)
  | number t => t.numeral.value
  | string q => some (.string q.value)
  | array _ items => if room = 0 then none else (readItems (room - 1) items).map .array
  | object _ members => if room = 0 then none else (readMembers (room - 1) members).map ofMembers

def readItems (room : Nat) : List (Gap × Doc × Gap) → Option (List Json)
  | [] => some []
  | (_, d, _) :: rest => do
    let v ← d.read room
    let vs ← readItems room rest
    return v :: vs

def readMembers (room : Nat) : List (Label × Gap × Doc × Gap) → Option (List (String × Json))
  | [] => some []
  | (l, _, d, _) :: rest => do
    let v ← d.read room
    let vs ← readMembers room rest
    return (l.name.value, v) :: vs

end

end Doc

section
variable {limit : Nat} {stack : List Frame}

theorem run_step {s t : State} {c : Char} (step : s.step limit c = some t) (rest : List Char) :
    s.run limit (c :: rest) = t.run limit rest := by
  simp only [State.run, step]

theorem run_stop {s : State} {c : Char} (step : s.step limit c = none) (rest : List Char) :
    s.run limit (c :: rest) = .error .syntaxError := by
  simp only [State.run, step]

-- The places where blanks may stand.
def Mode.Patient : Mode → Prop
  | .word .. | .numeral _ | .string .. => False
  | _ => True

theorem step_blank {s : State} (patient : s.mode.Patient) {c : Char} (blank : isBlank c = true) :
    s.step limit c = some s := by
  have other : c ≠ ',' ∧ c ≠ ']' ∧ c ≠ '\x7d' := by
    refine ⟨?_, ?_, ?_⟩ <;> rintro rfl <;> exact absurd blank (by decide)
  obtain ⟨stack, mode⟩ := s
  cases mode <;> simp_all [State.step, State.follow, Mode.Patient]

theorem run_gap {s : State} (patient : s.mode.Patient) (gap : Gap) (rest : List Char) :
    s.run limit (gap.1 ++ rest) = s.run limit rest := by
  obtain ⟨run, blank⟩ := gap
  induction run with
  | nil => rfl
  | cons c more ih =>
    obtain ⟨first, others⟩ := List.forall_mem_cons.mp blank
    exact (run_step (step_blank patient first) _).trans (ih others)

theorem settle_step (v : Json) (c : Char) :
    (settle stack v).step limit c = (settle stack v).follow c := by
  cases stack with
  | nil => rfl
  | cons frame rest => cases frame <;> rfl

-- Nothing that would go on with a numeral.
def Bounded (rest : List Char) : Prop := ∀ c more, rest = c :: more → Numeral.Ends c

-- How the text goes on behind a value.
def continued (limit : Nat) (stack : List Frame) (v : Option Json) (rest : List Char) :
    Except ReadError Json :=
  match v with
  | some v => (settle stack v).run limit rest
  | none => .error .syntaxError

theorem run_pushAll {n n' : Numeral} {run : List Char} (pushed : n.pushAll run = some n')
    (rest : List Char) :
    State.run limit ⟨stack, .numeral n⟩ (run ++ rest) = State.run limit ⟨stack, .numeral n'⟩ rest := by
  induction run generalizing n with
  | nil =>
    cases pushed
    rfl
  | cons c more ih =>
    rw [Numeral.pushAll] at pushed
    cases next : n.push c with
    | more n'' =>
      simp only [next] at pushed
      have step : State.step limit ⟨stack, .numeral n⟩ c = some ⟨stack, .numeral n''⟩ := by
        simp only [State.step, next]
      rw [List.cons_append, run_step step]
      exact ih pushed
    | past | wrong => simp [next] at pushed

theorem run_numeral {n : Numeral} (complete : n.complete = true) {rest : List Char} (bounded : Bounded rest) :
    State.run limit ⟨stack, .numeral n⟩ rest = continued limit stack n.value rest := by
  unfold continued
  cases rest with
  | nil =>
    simp only [State.run, State.finish, complete, if_true]
    cases n.value with
    | none => rfl
    | some v =>
      cases stack with
      | nil => rfl
      | cons frame rest => cases frame <;> rfl
  | cons c more =>
    have past := Numeral.push_ends complete (bounded c more rfl)
    have step : State.step limit ⟨stack, .numeral n⟩ c = n.value.bind fun v => (settle stack v).follow c := by
      simp only [State.step, past]
    cases value : n.value with
    | none => exact run_stop (by rw [step, value]; rfl) more
    | some v => simp only [State.run, step, value, settle_step, Option.bind_some]

-- A numeral begins with a sign or a digit, and no other value does.
theorem begin_numeral {c : Char} {n : Numeral} (pushed : Numeral.start.push c = .more n) :
    isBlank c = false ∧ begin? limit stack c = some ⟨stack, .numeral n⟩ := by
  have digit : isDigit c = true := by
    simp only [Numeral.push, Numeral.start] at pushed
    split at pushed
    · next zero => exact zero ▸ rfl
    · split at pushed
      · assumption
      · cases pushed
  have other (d : Char) (known : isDigit d = false) : c ≠ d := by
    rintro rfl
    exact absurd digit (by rw [known]; decide)
  constructor
  · simp [isBlank, other ' ' rfl, other '\n' rfl, other '\t' rfl, other '\r' rfl]
  · unfold begin?
    rw [if_neg (other _ rfl), if_neg (other _ rfl), if_neg (other _ rfl), if_neg (other _ rfl),
      if_neg (other _ rfl), if_neg (other _ rfl), if_neg (other _ rfl)]
    simp only [pushed]

-- The first character of a numeral decides that the rest is read as one.
theorem token_begun (t : Token) : ∃ c more n, t.text = c :: more ∧
    State.step limit ⟨stack, .value⟩ c = some ⟨stack, .numeral n⟩ ∧ n.pushAll more = some t.numeral := by
  obtain ⟨text, n, read, complete⟩ := t
  cases text with
  | nil =>
    cases read
    cases complete
  | cons c more =>
    by_cases sign : c = '-'
    · subst sign
      exact ⟨_, _, _, rfl, rfl, read⟩
    · rw [Numeral.lex_unsigned sign, Numeral.pushAll] at read
      cases next : Numeral.start.push c with
      | more n' =>
        simp only [next] at read
        obtain ⟨filled, begun⟩ := @begin_numeral limit stack c n' next
        exact ⟨c, more, n', rfl, by simp [State.step, filled, begun], read⟩
      | past | wrong => simp [next] at read

theorem run_token (t : Token) {rest : List Char} (bounded : Bounded rest) :
    State.run limit ⟨stack, .value⟩ (t.text ++ rest) = continued limit stack t.numeral.value rest := by
  obtain ⟨c, more, n, written, step, pushed⟩ := @token_begun limit stack t
  rw [← run_numeral t.complete bounded, written, List.cons_append, run_step step]
  exact run_pushAll pushed rest

theorem run_scan {purpose : Purpose} {before meaning : List Char} {scan scan' : Scan} {run : List Char}
    (scanned : scanAll before scan run = some (meaning, scan')) (rest : List Char) :
    State.run limit ⟨stack, .string purpose before scan⟩ (run ++ rest) =
      State.run limit ⟨stack, .string purpose meaning scan'⟩ rest := by
  induction run generalizing before scan with
  | nil =>
    cases scanned
    rfl
  | cons c more ih =>
    rw [scanAll] at scanned
    cases next : spell before scan c with
    | more before' scan'' =>
      simp only [next] at scanned
      have step : State.step limit ⟨stack, .string purpose before scan⟩ c =
          some ⟨stack, .string purpose before' scan''⟩ := by
        simp only [State.step, next]
      rw [List.cons_append, run_step step]
      exact ih scanned
    | close | wrong => simp [next] at scanned

theorem run_quoted (purpose : Purpose) (q : Quoted) (rest : List Char) :
    State.run limit ⟨stack, .string purpose [] .plain⟩ (q.text ++ '"' :: rest) =
      State.run limit (settleString stack purpose q.meaning) rest := by
  have close : State.step limit ⟨stack, .string purpose q.meaning .plain⟩ '"' =
      some (settleString stack purpose q.meaning) := rfl
  rw [run_scan q.read, run_step close]

-- The words.
theorem run_word {word : List Char} {v : Json} (some : word ≠ []) (rest : List Char) :
    State.run limit ⟨stack, .word word v⟩ (word ++ rest) = (settle stack v).run limit rest := by
  induction word with
  | nil => exact absurd rfl some
  | cons c more ih =>
    cases more with
    | nil =>
      have step : State.step limit ⟨stack, .word [c] v⟩ c = Option.some (settle stack v) := if_pos rfl
      exact run_step step rest
    | cons next more =>
      have step : State.step limit ⟨stack, .word (c :: next :: more) v⟩ c =
          Option.some ⟨stack, .word (next :: more) v⟩ := if_pos rfl
      rw [List.cons_append, run_step step]
      exact ih (by simp)

-- The places where the first item or the first member of a container is read like any other.
theorem run_first {c : Char} (filled : isBlank c = false) (other : c ≠ ']') (gap : Gap) (rest : List Char) :
    State.run limit ⟨stack, .firstItem⟩ (gap.1 ++ c :: rest) =
      State.run limit ⟨.item [] :: stack, .value⟩ (gap.1 ++ c :: rest) := by
  have same : State.step limit ⟨stack, .firstItem⟩ c = State.step limit ⟨.item [] :: stack, .value⟩ c := by
    simp [State.step, filled, other]
  rw [run_gap (s := ⟨stack, .firstItem⟩) trivial, run_gap (s := ⟨.item [] :: stack, .value⟩) trivial]
  simp only [State.run, same]

theorem run_key (before : List (String × Json)) (l : Label) (rest : List Char) :
    State.run limit ⟨stack, .key before⟩ (l.written ++ rest) =
      State.run limit ⟨.member before l.name.value :: stack, .value⟩ rest := by
  have opened : State.step limit ⟨stack, .key before⟩ '"' = some ⟨stack, .string (.key before) [] .plain⟩ := rfl
  have named : settleString stack (.key before) l.name.meaning = ⟨stack, .colon before l.name.value⟩ := rfl
  have colon : State.step limit ⟨stack, .colon before l.name.value⟩ ':' =
      some ⟨.member before l.name.value :: stack, .value⟩ := rfl
  simp only [Label.written, Quoted.written, List.append_assoc, List.cons_append, List.nil_append]
  rw [run_gap (s := ⟨stack, .key before⟩) trivial, run_step opened, run_quoted, named,
    run_gap (s := ⟨stack, .colon before l.name.value⟩) trivial, run_step colon]

theorem run_firstKey (l : Label) (rest : List Char) :
    State.run limit ⟨stack, .firstMember⟩ (l.written ++ rest) =
      State.run limit ⟨stack, .key []⟩ (l.written ++ rest) := by
  simp only [Label.written, Quoted.written, List.append_assoc, List.cons_append]
  rw [run_gap (s := ⟨stack, .firstMember⟩) trivial, run_gap (s := ⟨stack, .key []⟩) trivial]
  rfl

theorem blank_ends {c : Char} (blank : isBlank c = true) : Numeral.Ends c := by
  simp only [isBlank, Bool.or_eq_true, decide_eq_true_eq] at blank
  rcases blank with ((rfl | rfl) | rfl) | rfl <;> exact ⟨rfl, by decide, rfl⟩

theorem blank_bounded (gap : Gap) : Bounded gap.1 :=
  fun c _ same => blank_ends (gap.2 c (by simp [same]))

theorem gap_bounded (gap : Gap) {c : Char} (ends : Numeral.Ends c) (rest : List Char) :
    Bounded (gap.1 ++ c :: rest) := by
  obtain ⟨run, blank⟩ := gap
  cases run with
  | nil =>
    rintro _ _ ⟨⟩
    exact ends
  | cons d more =>
    rintro _ _ ⟨⟩
    exact blank_ends (blank d List.mem_cons_self)

theorem closing_ends : Numeral.Ends ',' ∧ Numeral.Ends ']' ∧ Numeral.Ends '\x7d' :=
  ⟨⟨rfl, by decide, rfl⟩, ⟨rfl, by decide, rfl⟩, ⟨rfl, by decide, rfl⟩⟩

-- A value begins with a character that neither waits nor closes an array.
theorem text_begins (d : Doc) : ∃ c rest, d.text = c :: rest ∧ isBlank c = false ∧ c ≠ ']' := by
  cases d with
  | null => exact ⟨_, _, rfl, by decide, by decide⟩
  | bool b => cases b <;> exact ⟨_, _, rfl, by decide, by decide⟩
  | number t =>
    obtain ⟨c, more, n, written, begun, _⟩ := @token_begun 0 [] t
    refine ⟨c, more, written, Bool.eq_false_iff.mpr fun blank => ?_, ?_⟩
    · have patient : (State.mode ⟨[], .value⟩).Patient := trivial
      have waits : State.step 0 ⟨[], .value⟩ c = some ⟨[], .value⟩ := step_blank patient blank
      cases waits.symm.trans begun
    · rintro rfl
      cases begun
  | string q => exact ⟨_, _, rfl, by decide, by decide⟩
  | array gap items => cases items <;> exact ⟨_, _, rfl, by decide, by decide⟩
  | object gap members => cases members <;> exact ⟨_, _, rfl, by decide, by decide⟩

theorem itemsText_begins {items : List (Gap × Doc × Gap)} (filled : items ≠ []) :
    ∃ (gap : Gap) (c : Char) (back : List Char), Doc.itemsText items = gap.1 ++ c :: back ∧
      isBlank c = false ∧ c ≠ ']' := by
  match items with
  | [] => exact absurd rfl filled
  | (gap, d, gap') :: more =>
    obtain ⟨c, tail, begins, visible, other⟩ := text_begins d
    refine ⟨gap, c, ?_⟩
    cases more <;>
      exact ⟨_, by simp only [Doc.itemsText, begins, List.append_assoc, List.cons_append]; rfl, visible, other⟩

theorem membersText_begins {members : List (Label × Gap × Doc × Gap)} (filled : members ≠ []) :
    ∃ (l : Label) (back : List Char), Doc.membersText members = l.written ++ back := by
  match members with
  | [] => exact absurd rfl filled
  | (l, gap, d, gap') :: more =>
    cases more <;> exact ⟨l, _, by simp only [Doc.membersText, List.append_assoc]; rfl⟩

theorem run_firstItems {items : List (Gap × Doc × Gap)} (filled : items ≠ []) (rest : List Char) :
    State.run limit ⟨stack, .firstItem⟩ (Doc.itemsText items ++ rest) =
      State.run limit ⟨.item [] :: stack, .value⟩ (Doc.itemsText items ++ rest) := by
  obtain ⟨gap, c, back, shape, visible, other⟩ := itemsText_begins filled
  rw [shape, List.append_assoc, List.cons_append, run_first visible other]

theorem run_firstMembers {members : List (Label × Gap × Doc × Gap)} (filled : members ≠ [])
    (rest : List Char) : State.run limit ⟨stack, .firstMember⟩ (Doc.membersText members ++ rest) =
      State.run limit ⟨stack, .key []⟩ (Doc.membersText members ++ rest) := by
  obtain ⟨l, back, shape⟩ := membersText_begins filled
  rw [shape, List.append_assoc, run_firstKey]

mutual

-- Reading a value in the middle of a text.
theorem run_doc (d : Doc) (stack : List Frame) {rest : List Char} (bounded : Bounded rest) :
    State.run limit ⟨stack, .value⟩ (d.text ++ rest) =
      continued limit stack (d.read (limit - stack.length)) rest := by
  match d with
  | .null => exact run_step (t := ⟨stack, .word ['u', 'l', 'l'] .null⟩) rfl _ |>.trans (run_word (by simp) rest)
  | .bool true =>
    exact run_step (t := ⟨stack, .word ['r', 'u', 'e'] (.bool true)⟩) rfl _ |>.trans (run_word (by simp) rest)
  | .bool false =>
    exact run_step (t := ⟨stack, .word ['a', 'l', 's', 'e'] (.bool false)⟩) rfl _ |>.trans
      (run_word (by simp) rest)
  | .number t => exact run_token t bounded
  | .string q =>
    have shape : q.written ++ rest = '"' :: (q.text ++ '"' :: rest) := by simp [Quoted.written]
    rw [Doc.text, shape]
    exact run_step (t := ⟨stack, .string .value [] .plain⟩) rfl _ |>.trans (run_quoted .value q rest)
  | .array gap items =>
    by_cases room : stack.length < limit
    · have step : State.step limit ⟨stack, .value⟩ '[' = some ⟨stack, .firstItem⟩ := if_pos room
      have some : ¬limit - stack.length = 0 := by omega
      simp only [Doc.read, some, if_false]
      cases items with
      | nil =>
        have close : State.step limit ⟨stack, .firstItem⟩ ']' = Option.some (settle stack (.array [])) := rfl
        simp only [Doc.text, List.cons_append, List.append_assoc, List.nil_append]
        rw [run_step step, run_gap (s := ⟨stack, .firstItem⟩) trivial, run_step close]
        rfl
      | cons item more =>
        have filled := List.cons_ne_nil item more
        simp only [Doc.text, List.cons_append, List.append_assoc, List.nil_append]
        rw [run_step step, run_firstItems filled, run_items (item :: more) filled [] stack rest]
        simp
    · have step : State.step limit ⟨stack, .value⟩ '[' = none := if_neg room
      have none : limit - stack.length = 0 := by omega
      simp only [Doc.read, none, if_true]
      cases items <;> exact run_stop step _
  | .object gap members =>
    by_cases room : stack.length < limit
    · have step : State.step limit ⟨stack, .value⟩ '\x7b' = some ⟨stack, .firstMember⟩ := if_pos room
      have some : ¬limit - stack.length = 0 := by omega
      simp only [Doc.read, some, if_false]
      cases members with
      | nil =>
        have close : State.step limit ⟨stack, .firstMember⟩ '\x7d' = Option.some (settle stack (.object [])) := rfl
        simp only [Doc.text, List.cons_append, List.append_assoc, List.nil_append]
        rw [run_step step, run_gap (s := ⟨stack, .firstMember⟩) trivial, run_step close]
        rfl
      | cons member more =>
        have filled := List.cons_ne_nil member more
        simp only [Doc.text, List.cons_append, List.append_assoc, List.nil_append]
        rw [run_step step, run_firstMembers filled, run_members (member :: more) filled [] stack rest]
        simp
    · have step : State.step limit ⟨stack, .value⟩ '\x7b' = none := if_neg room
      have none : limit - stack.length = 0 := by omega
      simp only [Doc.read, none, if_true]
      cases members <;> exact run_stop step _

theorem run_items (items : List (Gap × Doc × Gap)) (filled : items ≠ []) (before : List Json)
    (stack : List Frame) (rest : List Char) :
    State.run limit ⟨.item before :: stack, .value⟩ (Doc.itemsText items ++ ']' :: rest) =
      continued limit stack ((Doc.readItems (limit - stack.length - 1) items).map fun vs =>
        .array (before.reverse ++ vs)) rest := by
  match items with
  | [] => exact absurd rfl filled
  | (gap, d, gap') :: more =>
    have value (tail : List Char) (bounded : Bounded (gap'.1 ++ tail)) :
        State.run limit ⟨.item before :: stack, .value⟩ (gap.1 ++ (d.text ++ (gap'.1 ++ tail))) =
          match d.read (limit - stack.length - 1) with
          | some v => State.run limit ⟨stack, .afterItem (v :: before)⟩ tail
          | none => .error .syntaxError := by
      rw [run_gap (s := ⟨.item before :: stack, .value⟩) trivial, run_doc d _ bounded]
      simp only [List.length_cons, Nat.sub_sub, continued, settle]
      cases d.read (limit - (stack.length + 1)) with
      | none => rfl
      | some v => exact run_gap (s := ⟨stack, .afterItem (v :: before)⟩) trivial gap' tail
    cases more with
    | nil =>
      have step (v : Json) : State.step limit ⟨stack, .afterItem (v :: before)⟩ ']' =
          some (settle stack (.array (v :: before).reverse)) := rfl
      simp only [Doc.itemsText, Doc.readItems, List.append_assoc]
      rw [value _ (gap_bounded gap' closing_ends.2.1 rest)]
      cases d.read (limit - stack.length - 1) with
      | none => rfl
      | some v => simp [run_step (step v), continued]
    | cons next more =>
      have step (v : Json) : State.step limit ⟨stack, .afterItem (v :: before)⟩ ',' =
          some ⟨.item (v :: before) :: stack, .value⟩ := rfl
      have shape : Doc.itemsText ((gap, d, gap') :: next :: more) ++ ']' :: rest =
          gap.1 ++ (d.text ++ (gap'.1 ++ ',' :: (Doc.itemsText (next :: more) ++ ']' :: rest))) := by
        simp [Doc.itemsText]
      rw [shape, value _ (gap_bounded gap' closing_ends.1 _), Doc.readItems]
      cases d.read (limit - stack.length - 1) with
      | none => rfl
      | some v =>
        simp only [run_step (step v)]
        rw [run_items (next :: more) (by simp) (v :: before) stack rest]
        cases Doc.readItems (limit - stack.length - 1) (next :: more) <;> simp

theorem run_members (members : List (Label × Gap × Doc × Gap)) (filled : members ≠ [])
    (before : List (String × Json)) (stack : List Frame) (rest : List Char) :
    State.run limit ⟨stack, .key before⟩ (Doc.membersText members ++ '\x7d' :: rest) =
      continued limit stack ((Doc.readMembers (limit - stack.length - 1) members).map fun ms =>
        ofMembers (before.reverse ++ ms)) rest := by
  match members with
  | [] => exact absurd rfl filled
  | (l, gap, d, gap') :: more =>
    have value (tail : List Char) (bounded : Bounded (gap'.1 ++ tail)) :
        State.run limit ⟨stack, .key before⟩ (l.written ++ (gap.1 ++ (d.text ++ (gap'.1 ++ tail)))) =
          match d.read (limit - stack.length - 1) with
          | some v => State.run limit ⟨stack, .afterMember ((l.name.value, v) :: before)⟩ tail
          | none => .error .syntaxError := by
      rw [run_key, run_gap (s := ⟨.member before l.name.value :: stack, .value⟩) trivial, run_doc d _ bounded]
      simp only [List.length_cons, Nat.sub_sub, continued, settle]
      cases d.read (limit - (stack.length + 1)) with
      | none => rfl
      | some v =>
        exact run_gap (s := ⟨stack, .afterMember ((l.name.value, v) :: before)⟩) trivial gap' tail
    cases more with
    | nil =>
      have step (v : Json) : State.step limit ⟨stack, .afterMember ((l.name.value, v) :: before)⟩ '\x7d' =
          some (settle stack (ofMembers ((l.name.value, v) :: before).reverse)) := rfl
      simp only [Doc.membersText, Doc.readMembers, List.append_assoc]
      rw [value _ (gap_bounded gap' closing_ends.2.2 rest)]
      cases d.read (limit - stack.length - 1) with
      | none => rfl
      | some v => simp [run_step (step v), continued]
    | cons next more =>
      have step (v : Json) : State.step limit ⟨stack, .afterMember ((l.name.value, v) :: before)⟩ ',' =
          some ⟨stack, .key ((l.name.value, v) :: before)⟩ := rfl
      have shape : Doc.membersText ((l, gap, d, gap') :: next :: more) ++ '\x7d' :: rest = l.written ++
          (gap.1 ++ (d.text ++ (gap'.1 ++ ',' :: (Doc.membersText (next :: more) ++ '\x7d' :: rest)))) := by
        simp [Doc.membersText]
      rw [shape, value _ (gap_bounded gap' closing_ends.1 _), Doc.readMembers]
      cases d.read (limit - stack.length - 1) with
      | none => rfl
      | some v =>
        simp only [run_step (step v)]
        rw [run_members (next :: more) (by simp) ((l.name.value, v) :: before) stack rest]
        cases Doc.readMembers (limit - stack.length - 1) (next :: more) <;> simp

end

end

-- Reading a whole text.
theorem read_doc (before : Gap) (d : Doc) (after : Gap) {text : String}
    (written : text.toList = before.1 ++ d.text ++ after.1) :
    Json.read text = match d.read depthLimit with
      | some v => .ok v
      | none => .error .syntaxError := by
  rw [Json.read, readWithin, written, List.append_assoc, run_gap (s := ⟨[], .value⟩) trivial,
    run_doc d [] (blank_bounded after)]
  change continued depthLimit [] (d.read depthLimit) after.1 = _
  cases d.read depthLimit with
  | none => rfl
  | some v => simpa [continued, settle, State.run, State.finish] using run_gap (s := ⟨[], .done v⟩) trivial after []

end Solid.Json
