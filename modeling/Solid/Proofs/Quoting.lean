import Solid.Toml.Text
namespace Solid.Toml
open Text (hexValue?)

theorem upperHexDigit_value : ∀ d < 16, hexValue? (upperHexDigit d) = some d := by decide

theorem control_small {c : Char} (control : isText c = false) : c.toNat < 128 := by
  refine Nat.lt_of_not_le fun large => ?_
  have above : ' ' ≤ c := by
    rw [Char.le_def, UInt32.le_iff_toNat_le]
    exact Nat.le_trans (by decide) large
  have other : c ≠ '\x7f' := by
    rintro rfl
    exact absurd large (by decide)
  simp [isText, above, other] at control

-- What can stand for a character between double quotes: an escape with a letter, the character, its number.
inductive Escaped (lines : Bool) (c : Char) : List Char → Prop
  | letter {d : Char} : escaped? d = some c → Escaped lines c ['\\', d]
  | plain : c ≠ '\\' → isText c = true ∨ lines = true ∧ c = '\n' → Escaped lines c [c]
  | code : c.toNat < 128 →
      Escaped lines c ['\\', 'u', '0', '0', upperHexDigit (c.toNat / 16), upperHexDigit (c.toNat % 16)]

section
variable {lines : Bool} {c : Char} {text tail rest : List Char}

theorem plain_read (unquoted : c ≠ '"') (unslashed : c ≠ '\\') (plain : isText c = true ∨ lines = true ∧ c = '\n') :
    basic lines .plain (c :: tail) = Body.cons c (basic lines .plain tail) := by
  rw [basic]
  simp [unquoted, unslashed, plain]

theorem letter_read {d : Char} (letter : escaped? d = some c) :
    basic lines .plain ('\\' :: d :: tail) = Body.cons c (basic lines .plain tail) := by
  have unicode : d ≠ 'u' := by
    rintro rfl
    cases letter
  have unicode' : d ≠ 'U' := by
    rintro rfl
    cases letter
  simp [basic, unicode, unicode', letter]

theorem code_read (small : c.toNat < 256) : basic lines .plain
      ('\\' :: 'u' :: '0' :: '0' :: upperHexDigit (c.toNat / 16) :: upperHexDigit (c.toNat % 16) :: tail) =
    Body.cons c (basic lines .plain tail) := by
  have high := upperHexDigit_value (c.toNat / 16) (by omega)
  have low := upperHexDigit_value (c.toNat % 16) (by omega)
  have zero : hexValue? '0' = some 0 := by decide
  have whole : 16 * (c.toNat / 16) + c.toNat % 16 = c.toNat := Nat.div_add_mod _ _
  have number : character? c.toNat = some c := by
    rw [character?, if_pos (.inl (by omega)), Char.ofNat_toNat]
  simp [basic, zero, high, low, whole, number]

theorem escape_escaped (lines : Bool) (c : Char) : Escaped lines c (escape lines c) := by
  unfold escape
  by_cases slash : c = '\\'
  · rw [if_pos slash, slash]
    exact .letter rfl
  rw [if_neg slash]
  by_cases backspace : c = '\x08'
  · rw [if_pos backspace, backspace]
    exact .letter rfl
  rw [if_neg backspace]
  by_cases tab : c = '\t'
  · rw [if_pos tab, tab]
    exact .letter rfl
  rw [if_neg tab]
  by_cases newline : c = '\n'
  · rw [if_pos newline, newline]
    cases lines with
    | true => exact .plain (by decide) (.inr ⟨rfl, rfl⟩)
    | false => exact .letter rfl
  rw [if_neg newline]
  by_cases feed : c = '\x0c'
  · rw [if_pos feed, feed]
    exact .letter rfl
  rw [if_neg feed]
  by_cases back : c = '\r'
  · rw [if_pos back, back]
    exact .letter rfl
  rw [if_neg back]
  by_cases plain : isText c = true
  · rw [if_pos plain]
    exact .plain slash (.inl plain)
  · rw [if_neg plain]
    exact .code (control_small (Bool.eq_false_iff.mpr plain))

theorem escape_read (unquoted : c ≠ '"') :
    basic lines .plain (escape lines c ++ tail) = Body.cons c (basic lines .plain tail) := by
  have escaped := escape_escaped lines c
  generalize escape lines c = written at *
  cases escaped with
  | letter letter => exact letter_read letter
  | plain unslashed plain => exact plain_read unquoted unslashed plain
  | code small => exact code_read (by omega)

theorem quote_escaped : basic lines .plain ('\\' :: '"' :: tail) = Body.cons '"' (basic lines .plain tail) :=
  letter_read rfl

-- On one line the first quote that is not escaped is the end.
theorem basicLine_read (run : Nat) :
    basic false .plain (escapeAll false run text ++ '"' :: rest) = some (text, rest) := by
  induction text generalizing run with
  | nil => rfl
  | cons c text ih =>
    rw [escapeAll]
    by_cases quote : c = '"'
    · rw [if_pos quote, if_neg (by simp), quote, List.cons_append, List.cons_append, quote_escaped, ih]
      rfl
    · rw [if_neg quote, List.append_assoc, escape_read quote, ih]
      rfl

theorem literalLine_read (plain : ∀ c ∈ text, isText c = true ∧ c ≠ '\'') :
    literal false (text ++ '\'' :: rest) = some (text, rest) := by
  induction text with
  | nil => rfl
  | cons c text ih =>
    obtain ⟨shown, unquoted⟩ := plain c (.head _)
    rw [List.cons_append, literal, if_neg unquoted, if_pos (.inl shown), ih fun d member => plain d (.tail _ member)]
    rfl

end

-- Quotes in a text of several lines. Three in a row are the end, with up to two more in front of them.
section
variable {mark : Char} {k : Nat} {text rest : List Char}

def marks (mark : Char) (k : Nat) : List Char := List.replicate k mark

theorem close_end (few : k ≤ 2) (behind : rest.head? ≠ some mark) :
    close? mark (marks mark (k + 3) ++ rest) = some (marks mark k, rest) := by
  have clear : rest.takeWhile (· = mark) = [] := by
    cases rest with
    | nil => rfl
    | cons d rest => exact List.takeWhile_cons_of_neg (by simpa using behind)
  match k, few with
  | 0, _ => cases rest <;> simp_all [close?, marks, List.replicate]
  | 1, _ => cases rest <;> simp_all [close?, marks, List.replicate]
  | 2, _ => simp_all [close?, marks, List.replicate]

theorem close_inside (short : ¬ marks mark 3 <+: text) : close? mark text = none := by
  refine if_neg fun three => short ?_
  rw [marks, show List.replicate 3 mark = [mark, mark, mark] from rfl, ← three]
  exact List.take_prefix 3 text

theorem marks_succ : marks mark (k + 1) = mark :: marks mark k := List.replicate_succ

theorem marks_left {run : Nat} (few : run ≤ 2) : marks mark (3 - run) = mark :: marks mark (3 - (run + 1)) := by
  rw [← marks_succ, show 3 - (run + 1) + 1 = 3 - run by omega]

theorem escape_head {lines : Bool} {c : Char} (unquoted : c ≠ '"') :
    ∃ d more, escape lines c = d :: more ∧ d ≠ '"' ∧ (c ≠ '\n' → d ≠ '\n') := by
  have escaped := escape_escaped lines c
  generalize escape lines c = written at *
  cases escaped with
  | letter letter => exact ⟨_, _, rfl, by decide, fun _ => by decide⟩
  | plain unslashed plain => exact ⟨_, _, rfl, unquoted, id⟩
  | code small => exact ⟨_, _, rfl, by decide, fun _ => by decide⟩

-- After some raw quotes either nothing but quotes is left, and then not too many, or something else comes
-- before the third quote.
theorem escapeAll_ahead {run : Nat} (text rest : List Char) (few : run ≤ 2) :
    (∃ k, k + run ≤ 2 ∧ text = marks '"' k) ∨ ¬ marks '"' (3 - run) <+: escapeAll true run text ++ rest := by
  induction text generalizing run with
  | nil => exact .inl ⟨0, by omega, rfl⟩
  | cons c text ih =>
    rw [escapeAll, marks_left few]
    by_cases quote : c = '"'
    · rw [if_pos quote, quote]
      by_cases third : run = 2
      · rw [if_neg (by omega), List.cons_append, List.cons_prefix_cons]
        exact .inr fun ahead => absurd ahead.1 (by decide)
      · rw [if_pos ⟨rfl, by omega⟩, List.cons_append, List.cons_prefix_cons]
        rcases ih (by omega : run + 1 ≤ 2) with ⟨k, most, only⟩ | other
        · exact .inl ⟨k + 1, by omega, by rw [only, marks_succ]⟩
        · exact .inr fun ahead => other ahead.2
    · obtain ⟨d, more, shape, unquoted, -⟩ := @escape_head true _ quote
      rw [if_neg quote, shape, List.cons_append, List.cons_append, List.cons_prefix_cons]
      exact .inr fun ahead => unquoted ahead.1.symm

theorem le_longest (mark : Char) (run : Nat) (text : List Char) : run ≤ longestRunFrom mark run text := by
  induction text generalizing run with
  | nil => exact Nat.le_refl run
  | cons c text ih =>
    rw [longestRunFrom]
    split
    · exact Nat.le_trans (Nat.le_succ run) (ih _)
    · exact Nat.le_max_left _ _

theorem longest_ahead {run : Nat} (rest : List Char) (held : longestRunFrom mark run text ≤ 2) :
    (∃ k, k + run ≤ 2 ∧ text = marks mark k) ∨ ¬ marks mark (3 - run) <+: text ++ rest := by
  induction text generalizing run with
  | nil => exact .inl ⟨0, by rwa [Nat.zero_add], rfl⟩
  | cons c text ih =>
    rw [longestRunFrom] at held
    by_cases quote : c = mark
    · rw [if_pos quote] at held
      rcases ih held with ⟨k, most, only⟩ | other
      · exact .inl ⟨k + 1, by omega, by rw [only, quote, marks_succ]⟩
      · right
        have := le_longest mark (run + 1) text
        rw [marks_left (by omega), List.cons_append, List.cons_prefix_cons]
        exact fun ahead => other ahead.2
    · rw [if_neg quote] at held
      rw [marks_left (by omega), List.cons_append, List.cons_prefix_cons]
      exact .inr fun ahead => quote ahead.1.symm

theorem marks_short {run : Nat} (short : ¬ marks mark (3 - run) <+: text) : ¬ marks mark 3 <+: text := by
  have part : marks mark (3 - run) <+: marks mark 3 := by
    rw [marks, marks, List.prefix_replicate_iff, List.length_replicate]
    exact ⟨Nat.sub_le 3 run, rfl⟩
  exact fun ahead => short (part.trans ahead)

theorem escapeAll_marks {run : Nat} (few : k + run ≤ 2) : escapeAll true run (marks '"' k) = marks '"' k := by
  induction k generalizing run with
  | zero => rfl
  | succ k ih => rw [marks_succ, escapeAll, if_pos rfl, if_pos ⟨rfl, by omega⟩, ih (by omega)]

-- Where a text of several lines is closed, and where not.
theorem basic_closed (few : k ≤ 2) (behind : rest.head? ≠ some '"') :
    basic true .plain (marks '"' (k + 3) ++ rest) = some (marks '"' k, rest) := by
  have closed := close_end few behind
  rw [show k + 3 = (k + 2) + 1 from rfl, marks_succ, List.cons_append] at closed ⊢
  simp [basic, closed]

theorem basic_open {tail : List Char} (short : ¬ marks '"' 3 <+: '"' :: tail) :
    basic true .plain ('"' :: tail) = Body.cons '"' (basic true .plain tail) := by
  simp [basic, close_inside short]

theorem basicLines_read {run : Nat} (few : run ≤ 2) (behind : rest.head? ≠ some '"') :
    basic true .plain (escapeAll true run text ++ (marks '"' 3 ++ rest)) = some (text, rest) := by
  induction text generalizing run with
  | nil => exact basic_closed (Nat.zero_le _) behind
  | cons c text ih =>
    rcases escapeAll_ahead (c :: text) (marks '"' 3 ++ rest) few with ⟨k, most, only⟩ | short
    · rw [only, escapeAll_marks most, ← List.append_assoc, marks, marks, List.replicate_append_replicate]
      exact basic_closed (by omega) behind
    · rw [escapeAll] at short ⊢
      by_cases quote : c = '"'
      · rw [if_pos quote] at short ⊢
        by_cases third : run = 2
        · rw [if_neg (by omega), List.cons_append, List.cons_append, quote_escaped, ih (Nat.zero_le _), quote]
          rfl
        · rw [if_pos ⟨rfl, by omega⟩] at short ⊢
          have further := marks_short short
          rw [List.cons_append] at further ⊢
          rw [basic_open further, ih (by omega), quote]
          rfl
      · rw [if_neg quote, List.append_assoc, escape_read quote, ih (Nat.zero_le _)]
        rfl

theorem literal_closed (few : k ≤ 2) (behind : rest.head? ≠ some '\'') :
    literal true (marks '\'' (k + 3) ++ rest) = some (marks '\'' k, rest) := by
  have closed := close_end few behind
  rw [show k + 3 = (k + 2) + 1 from rfl, marks_succ, List.cons_append] at closed ⊢
  simp [literal, closed]

theorem literal_open {tail : List Char} (short : ¬ marks '\'' 3 <+: '\'' :: tail) :
    literal true ('\'' :: tail) = Body.cons '\'' (literal true tail) := by
  simp [literal, close_inside short]

theorem literalLines_read {run : Nat} (held : longestRunFrom '\'' run text ≤ 2)
    (plain : ∀ c ∈ text, isText c = true ∨ c = '\n') (behind : rest.head? ≠ some '\'') :
    literal true (text ++ (marks '\'' 3 ++ rest)) = some (text, rest) := by
  induction text generalizing run with
  | nil => exact literal_closed (Nat.zero_le _) behind
  | cons c text ih =>
    rcases longest_ahead (marks '\'' 3 ++ rest) held with ⟨k, most, only⟩ | short
    · rw [only, ← List.append_assoc, marks, marks, List.replicate_append_replicate]
      exact literal_closed (by omega) behind
    · have later := fun d member => plain d (.tail _ member)
      rw [longestRunFrom] at held
      by_cases quote : c = '\''
      · rw [if_pos quote] at held
        rw [List.cons_append, quote] at short ⊢
        rw [literal_open (marks_short short), ih held later]
        rfl
      · rw [if_neg quote] at held
        have shown : isText c = true ∨ true = true ∧ c = '\n' :=
          (plain c (.head _)).imp_right fun newline => ⟨rfl, newline⟩
        rw [List.cons_append, literal, if_neg quote, if_pos shown, ih (by omega : longestRunFrom _ 0 text ≤ 2) later]
        rfl

end

section
variable {text rest : List Char}

-- What is known of the quotes that are chosen. Those with escapes can hold any text.
theorem best_cases (text : List Char) : Quotes.best text = .basicLine ∨ Quotes.best text = .basicLines ∨
    Quotes.best text = .literalLine ∧ Quotes.literalLine.hold text = true ∧ text ≠ [] ∨
    Quotes.best text = .literalLines ∧ Quotes.literalLines.hold text = true := by
  unfold Quotes.best
  cases found : Quotes.all.find? fun q => q.hold text with
  | none =>
    dsimp only
    split
    · exact .inr (.inl rfl)
    · exact .inl rfl
  | some q =>
    have held := List.find?_some found
    have member := List.mem_of_find?_eq_some found
    simp only [Quotes.all, List.mem_cons, List.not_mem_nil, or_false] at member
    rcases member with rfl | rfl | rfl | rfl
    · exact .inl rfl
    · refine .inr (.inr (.inl ⟨rfl, held, ?_⟩))
      rintro rfl
      cases found
    · exact .inr (.inl rfl)
    · exact .inr (.inr (.inr ⟨rfl, held⟩))

theorem hold_plain {q : Quotes} (held : q.hold text = true) : ∀ c ∈ text, isText c = true ∨ c = '\n' := by
  simp only [Quotes.hold, Bool.and_eq_true, List.all_eq_true, Bool.or_eq_true, decide_eq_true_eq] at held
  exact held.1.1

theorem hold_line {mark : Char} (held : Quotes.hold ⟨mark, false⟩ text = true) :
    ∀ c ∈ text, isText c = true ∧ c ≠ mark := by
  intro c member
  have plain := hold_plain held c member
  simp only [Quotes.hold, Bool.and_eq_true, Bool.false_eq_true, if_false, Bool.not_eq_true',
    List.contains_eq_mem, decide_eq_false_iff_not] at held
  obtain ⟨-, unmarked, single⟩ := held
  refine ⟨plain.resolve_right ?_, ?_⟩
  · rintro rfl
    exact single member
  · rintro rfl
    exact unmarked member

theorem hold_lines {mark : Char} (held : Quotes.hold ⟨mark, true⟩ text = true) :
    longestRunFrom mark 0 text ≤ 2 := by
  simp only [Quotes.hold, Bool.and_eq_true, if_true, decide_eq_true_eq] at held
  exact held.2

theorem quoted_basicLine (single : ¬ marks '"' 2 <+: text) : quoted? ('"' :: text) = basic false .plain text := by
  unfold quoted?
  split
  · next same =>
    cases same
    exact absurd (List.prefix_append (marks '"' 2) _) single
  · next same => cases same
  · rfl

theorem quoted_literalLine (single : ¬ marks '\'' 2 <+: text) : quoted? ('\'' :: text) = literal false text := by
  unfold quoted?
  split
  · next same => cases same
  · next same =>
    cases same
    exact absurd (List.prefix_append (marks '\'' 2) _) single
  · rfl

theorem skipNewline_none (filled : text.head? ≠ some '\n') : skipNewline text = text := by
  unfold skipNewline
  split
  · exact absurd rfl filled
  · rfl

-- The newline in front is skipped if and only if it was put there.
theorem newline_skipped {written : List Char} (clear : '\n' ∉ text → written.head? ≠ some '\n') :
    skipNewline ((if text.contains '\n' then ['\n'] else []) ++ written) = written := by
  by_cases newline : text.contains '\n' = true
  · rw [if_pos newline]
    rfl
  · rw [if_neg newline]
    exact skipNewline_none (clear (by simpa using newline))

theorem escapeAll_head {lines : Bool} {c : Char} (run : Nat) : ∃ d more, escapeAll lines run (c :: text) = d :: more ∧
    (lines = false → d ≠ '"') ∧ (c ≠ '\n' → d ≠ '\n') := by
  rw [escapeAll]
  by_cases quote : c = '"'
  · rw [if_pos quote]
    split
    · next raw => exact ⟨_, _, rfl, fun single => absurd raw.1 (by simp [single]), fun _ => by decide⟩
    · exact ⟨_, _, rfl, fun _ => by decide, fun _ => by decide⟩
  · obtain ⟨d, more, shape, unquoted, newline⟩ := @escape_head lines _ quote
    rw [if_neg quote, shape]
    exact ⟨_, _, rfl, fun _ => unquoted, newline⟩

theorem basicLine_written (behind : rest.head? ≠ some '"') :
    quoted? (Quotes.basicLine.write text ++ rest) = some (text, rest) := by
  change quoted? ('"' :: (escapeAll false 0 text ++ ['"'] ++ rest)) = _
  rw [List.append_assoc, quoted_basicLine]
  · exact basicLine_read 0
  · cases text with
    | nil =>
      rintro ⟨more, same⟩
      cases same
      exact behind rfl
    | cons c text =>
      obtain ⟨d, more, shape, unquoted, -⟩ := @escapeAll_head text false c 0
      rw [shape]
      rintro ⟨_, same⟩
      exact unquoted rfl (List.cons.inj same).1.symm

theorem basicLines_written (behind : rest.head? ≠ some '"') :
    quoted? (Quotes.basicLines.write text ++ rest) = some (text, rest) := by
  change quoted? (marks '"' 3 ++ (if true = true ∧ text.contains '\n' = true then ['\n'] else []) ++
    escapeAll true 0 text ++ marks '"' 3 ++ rest) = _
  simp only [true_and, List.append_assoc]
  change basic true .plain (skipNewline ((if text.contains '\n' then ['\n'] else []) ++
    (escapeAll true 0 text ++ (marks '"' 3 ++ rest)))) = _
  rw [newline_skipped, basicLines_read (Nat.zero_le _) behind]
  intro single
  cases text with
  | nil => exact fun same => absurd (Option.some.inj same) (by decide)
  | cons c text =>
    obtain ⟨d, more, shape, -, newline⟩ := @escapeAll_head text true c 0
    rw [shape]
    exact fun same => newline (fun first => single (first ▸ .head _)) (Option.some.inj same)

theorem literalLine_written (held : Quotes.literalLine.hold text = true) (filled : text ≠ []) :
    quoted? (Quotes.literalLine.write text ++ rest) = some (text, rest) := by
  change quoted? ('\'' :: (text ++ ['\''] ++ rest)) = _
  have plain := hold_line held
  rw [List.append_assoc, quoted_literalLine]
  · exact literalLine_read plain
  · obtain ⟨c, more, rfl⟩ := List.exists_cons_of_ne_nil filled
    rintro ⟨_, same⟩
    exact (plain c (.head _)).2 (List.cons.inj same).1.symm

theorem literalLines_written (held : Quotes.literalLines.hold text = true) (behind : rest.head? ≠ some '\'') :
    quoted? (Quotes.literalLines.write text ++ rest) = some (text, rest) := by
  change quoted? (marks '\'' 3 ++ (if true = true ∧ text.contains '\n' = true then ['\n'] else []) ++
    text ++ marks '\'' 3 ++ rest) = _
  simp only [true_and, List.append_assoc]
  change literal true (skipNewline ((if text.contains '\n' then ['\n'] else []) ++
    (text ++ (marks '\'' 3 ++ rest)))) = _
  rw [newline_skipped, literalLines_read (hold_lines held) (hold_plain held) behind]
  intro single
  cases text with
  | nil => exact fun same => absurd (Option.some.inj same) (by decide)
  | cons c text => exact fun same => single (Option.some.inj same ▸ .head _)

theorem quoted_written (behind : rest.head? ≠ some '"') (behind' : rest.head? ≠ some '\'') :
    quoted? ((Quotes.best text).write text ++ rest) = some (text, rest) := by
  rcases best_cases text with best | best | ⟨best, held, filled⟩ | ⟨best, held⟩
  · exact best ▸ basicLine_written behind
  · exact best ▸ basicLines_written behind
  · exact best ▸ literalLine_written held filled
  · exact best ▸ literalLines_written held behind'

theorem upperHexDigit_clean : ∀ d < 16, upperHexDigit d ≠ '\r' := by decide

-- Carriage returns are always escaped, so that no line end is changed on the way back.
theorem escape_clean (lines : Bool) (c : Char) : '\r' ∉ escape lines c := by
  have escaped := escape_escaped lines c
  generalize escape lines c = written at *
  intro member
  cases escaped with
  | letter letter =>
    rcases List.mem_cons.mp member with slash | member
    · exact absurd slash (by decide)
    · cases List.mem_singleton.mp member
      cases letter
  | plain unslashed plain =>
    cases List.mem_singleton.mp member
    exact absurd plain (by simp [isText])
  | code small =>
    have high := (upperHexDigit_clean (c.toNat / 16) (by omega)).symm
    have low := (upperHexDigit_clean (c.toNat % 16) (by omega)).symm
    simp [high, low] at member

theorem escapeAll_clean (lines : Bool) (run : Nat) : '\r' ∉ escapeAll lines run text := by
  induction text generalizing run with
  | nil => exact List.not_mem_nil
  | cons c text ih =>
    rw [escapeAll]
    split
    · split <;> simp [ih]
    · simp [escape_clean, ih]

theorem hold_clean {q : Quotes} (held : q.hold text = true) : '\r' ∉ text := by
  intro member
  rcases hold_plain held _ member with plain | newline
  · exact absurd plain (by decide)
  · exact absurd newline (by decide)

theorem write_clean (q : Quotes) (mark : '\r' ≠ q.mark) (raw : q.isLiteral = true → '\r' ∉ text) :
    '\r' ∉ q.write text := by
  have delimited : '\r' ∉ q.delimiter := fun member => mark (List.eq_of_mem_replicate member)
  unfold Quotes.write
  simp only [List.mem_append, delimited, false_or, or_false]
  rintro (newline | inside)
  · split at newline
    · exact absurd newline (by decide)
    · exact List.not_mem_nil newline
  · split at inside
    · next literal => exact raw literal inside
    · exact escapeAll_clean _ _ inside

theorem written_clean : '\r' ∉ (Quotes.best text).write text := by
  rcases best_cases text with best | best | ⟨best, held, -⟩ | ⟨best, held⟩
  · exact best ▸ write_clean _ (by decide) nofun
  · exact best ▸ write_clean _ (by decide) nofun
  · exact best ▸ write_clean _ (by decide) fun _ => hold_clean held
  · exact best ▸ write_clean _ (by decide) fun _ => hold_clean held

-- Either kind of quotes begins with its mark.
theorem written_begins (q : Quotes) (text : List Char) : ∃ more, q.write text = q.mark :: more := by
  obtain ⟨mark, _ | _⟩ := q <;> exact ⟨_, rfl⟩

end

end Solid.Toml
