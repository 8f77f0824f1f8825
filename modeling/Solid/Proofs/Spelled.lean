import Solid.Proofs.Documents
import Solid.Proofs.Members
namespace Solid.Json

def Gap.push (gap : Gap) {c : Char} (blank : isBlank c = true) : Gap :=
  ⟨gap.1 ++ [c], List.forall_mem_append.mpr ⟨gap.2, List.forall_mem_singleton.mpr blank⟩⟩

namespace Doc

def Item.text (i : Item) : List Char := i.1.1 ++ i.2.1.text ++ i.2.2.1

def Member.text (m : Member) : List Char := m.1.written ++ m.2.1.1 ++ m.2.2.1.text ++ m.2.2.2.1

def Item.push (i : Item) {c : Char} (blank : isBlank c = true) : Item := (i.1, i.2.1, i.2.2.push blank)

def Member.push (m : Member) {c : Char} (blank : isBlank c = true) : Member :=
  (m.1, m.2.1, m.2.2.1, m.2.2.2.push blank)

-- Parts that another part follows.
def leadingItems (items : List Item) : List Char := items.flatMap fun i => i.text ++ [',']

def leadingMembers (members : List Member) : List Char := members.flatMap fun m => m.text ++ [',']

theorem itemsText_last (items : List Item) (last : Item) :
    itemsText (items ++ [last]) = leadingItems items ++ last.text := by
  induction items with
  | nil => rfl
  | cons i rest ih =>
    have filled : rest ++ [last] ≠ [] := by simp
    rw [List.cons_append, itemsText_cons filled, ih]
    simp [leadingItems, Item.text]

theorem membersText_last (members : List Member) (last : Member) :
    membersText (members ++ [last]) = leadingMembers members ++ last.text := by
  induction members with
  | nil => rfl
  | cons m rest ih =>
    have filled : rest ++ [last] ≠ [] := by simp
    rw [List.cons_append, membersText_cons filled, ih]
    simp [leadingMembers, Member.text]

theorem array_last (items : List Item) (last : Item) :
    (array .none (items ++ [last])).text = '[' :: leadingItems items ++ last.text ++ [']'] := by
  have filled : (array .none (items ++ [last])).text = '[' :: itemsText (items ++ [last]) ++ [']'] := by
    cases items <;> rfl
  rw [filled, itemsText_last]
  simp

theorem object_last (members : List Member) (last : Member) :
    (object .none (members ++ [last])).text = '\x7b' :: leadingMembers members ++ last.text ++ ['\x7d'] := by
  have filled : (object .none (members ++ [last])).text =
      '\x7b' :: membersText (members ++ [last]) ++ ['\x7d'] := by
    cases members <;> rfl
  rw [filled, membersText_last]
  simp

end Doc

-- The characters that precede a value, gaps included, when these containers are open around it.
inductive Ready : List Frame → List Char → Prop
  | outside (gap : Gap) : Ready [] gap.1
  | item {stack : List Frame} {front : List Char} (around : Ready stack front) (items : List Doc.Item)
      (gap : Gap) (before : List Json) :
      Ready (.item before :: stack) (front ++ '[' :: Doc.leadingItems items ++ gap.1)
  | member {stack : List Frame} {front : List Char} (around : Ready stack front) (members : List Doc.Member)
      (l : Label) (gap : Gap) (before : List (String × Json)) (key : String) :
      Ready (.member before key :: stack) (front ++ '\x7b' :: Doc.leadingMembers members ++ l.written ++ gap.1)

-- The characters in front of a string.
inductive Quoting : List Frame → Purpose → List Char → Prop
  | value {stack front} (around : Ready stack front) : Quoting stack .value front
  | key {stack front} (around : Ready stack front) (members : List Doc.Member) (gap : Gap)
      (before : List (String × Json)) :
      Quoting stack (.key before) (front ++ '\x7b' :: Doc.leadingMembers members ++ gap.1)

-- The characters that lead to a state: the beginning of a document. What they mean is not looked at, since
-- the value follows from the document.
inductive Reading : State → List Char → Prop
  | value {stack front} (around : Ready stack front) : Reading ⟨stack, .value⟩ front
  | firstItem {stack front} (around : Ready stack front) (gap : Gap) :
      Reading ⟨stack, .firstItem⟩ (front ++ '[' :: gap.1)
  | afterItem {stack front} (around : Ready stack front) (items : List Doc.Item) (last : Doc.Item)
      (before : List Json) :
      Reading ⟨stack, .afterItem before⟩ (front ++ '[' :: Doc.leadingItems items ++ last.text)
  | firstMember {stack front} (around : Ready stack front) (gap : Gap) :
      Reading ⟨stack, .firstMember⟩ (front ++ '\x7b' :: gap.1)
  | key {stack front} (around : Ready stack front) (members : List Doc.Member) (gap : Gap)
      (before : List (String × Json)) :
      Reading ⟨stack, .key before⟩ (front ++ '\x7b' :: Doc.leadingMembers members ++ gap.1)
  | colon {stack front} (around : Ready stack front) (members : List Doc.Member) (gap : Gap) (q : Quoted)
      (after : Gap) (before : List (String × Json)) (key : String) :
      Reading ⟨stack, .colon before key⟩
        (front ++ '\x7b' :: Doc.leadingMembers members ++ gap.1 ++ q.written ++ after.1)
  | afterMember {stack front} (around : Ready stack front) (members : List Doc.Member) (last : Doc.Member)
      (before : List (String × Json)) :
      Reading ⟨stack, .afterMember before⟩ (front ++ '\x7b' :: Doc.leadingMembers members ++ last.text)
  | word {stack front} (around : Ready stack front) (d : Doc) {seen rest : List Char}
      (whole : d.text = seen ++ rest) (v : Json) : Reading ⟨stack, .word rest v⟩ (front ++ seen)
  | numeral {stack front} (around : Ready stack front) {seen : List Char} {n : Numeral}
      (lexed : Numeral.lex seen = some n) : Reading ⟨stack, .numeral n⟩ (front ++ seen)
  | string {stack purpose front} (around : Quoting stack purpose front) {seen meaning : List Char} {scan : Scan}
      (scanned : scanAll [] .plain seen = some (meaning, scan)) :
      Reading ⟨stack, .string purpose meaning scan⟩ (front ++ '"' :: seen)
  | done (before : Gap) (d : Doc) (after : Gap) (v : Json) :
      Reading ⟨[], .done v⟩ (before.1 ++ d.text ++ after.1)

section
variable {limit : Nat} {stack : List Frame} {front text : List Char} {s t : State} {c : Char}

theorem Reading.of {text' : List Char} (reading : Reading s text) (same : text' = text) : Reading s text' :=
  same ▸ reading

theorem ready_blank (around : Ready stack front) (blank : isBlank c = true) : Ready stack (front ++ [c]) := by
  cases around with
  | outside gap => exact .outside (gap.push blank)
  | item around items gap before => simpa [Gap.push] using Ready.item around items (gap.push blank) before
  | member around members l gap before key =>
    simpa [Gap.push] using Ready.member around members l (gap.push blank) before key

-- A value that is complete ends an item, a member or the document.
theorem settle_reading (around : Ready stack front) (d : Doc) (v : Json) :
    Reading (settle stack v) (front ++ d.text) := by
  cases around with
  | outside gap => exact .of (.done gap d .none v) (by simp [Gap.none])
  | item around items gap before =>
    exact .of (.afterItem around items (gap, d, .none) (v :: before)) (by simp [Doc.Item.text, Gap.none])
  | member around members l gap before key =>
    exact .of (.afterMember around members (l, gap, d, .none) ((key, v) :: before))
      (by simp [Doc.Member.text, Gap.none])

theorem settleString_reading {purpose : Purpose} (around : Quoting stack purpose front) (q : Quoted) :
    Reading (settleString stack purpose q.meaning) (front ++ q.written) := by
  cases around with
  | value around => exact settle_reading around (.string q) _
  | key around members gap before =>
    exact .of (.colon around members gap q .none before q.value) (by simp [Gap.none])

theorem scan_push {seen meaning meaning' : List Char} {scan scan' : Scan}
    (scanned : scanAll [] .plain seen = some (meaning, scan))
    (spelled : spell meaning scan c = .more meaning' scan') :
    scanAll [] .plain (seen ++ [c]) = some (meaning', scan') :=
  scan_append scanned (by simp [scanAll, spelled])

theorem spellUnit_open (before : List Char) (high : Option Nat) (unit : Nat) :
    spellUnit before high unit ≠ .close := by
  unfold spellUnit
  cases high <;> dsimp only <;> split_ifs <;> nofun

-- A string is closed between its characters, and by a quote.
theorem close_plain {meaning : List Char} {scan : Scan} (closed : spell meaning scan c = .close) :
    scan = .plain ∧ c = '"' := by
  unfold spell at closed
  cases scan with
  | plain =>
    dsimp only at closed
    split at closed
    · next quote => exact ⟨rfl, quote⟩
    · split_ifs at closed
  | escape =>
    dsimp only at closed
    split at closed
    · cases closed
    · split at closed <;> cases closed
  | unit seen high =>
    dsimp only at closed
    split at closed
    · cases closed
    · split at closed
      · exact absurd closed (spellUnit_open _ _ _)
      · cases closed
  | pair high | pairEscape high =>
    dsimp only at closed
    split at closed <;> cases closed

theorem begin_reading (around : Ready stack front) (begun : begin? limit stack c = some t) :
    Reading t (front ++ [c]) := by
  unfold begin? at begun
  split at begun
  · next bracket =>
    split at begun
    · cases begun
      exact bracket ▸ .firstItem around .none
    · cases begun
  split at begun
  · next brace =>
    split at begun
    · cases begun
      exact brace ▸ .firstMember around .none
    · cases begun
  split at begun
  · next quote =>
    cases begun
    exact quote ▸ .string (.value around) rfl
  split at begun
  · next sign =>
    cases begun
    exact sign ▸ .numeral around rfl
  split at begun
  · next letter =>
    cases begun
    exact letter ▸ .word around .null rfl _
  split at begun
  · next letter =>
    cases begun
    exact letter ▸ .word around (.bool true) rfl _
  split at begun
  · next letter =>
    cases begun
    exact letter ▸ .word around (.bool false) rfl _
  split at begun
  · next n pushed =>
    cases begun
    have empty : Numeral.lex [] = some .start := rfl
    exact .numeral around (Numeral.lex_push empty pushed)
  · cases begun

theorem follow_reading (reading : Reading s text) (followed : s.follow c = some t) :
    Reading t (text ++ [c]) := by
  unfold State.follow at followed
  cases reading with
  | @afterItem _ front around items last before =>
    dsimp only at followed
    split at followed
    · next comma =>
      cases followed
      subst comma
      exact .of (.value (.item around (items ++ [last]) .none before)) (by simp [Doc.leadingItems, Gap.none])
    · split at followed
      · next bracket =>
        cases followed
        subst bracket
        exact .of (settle_reading around (.array .none (items ++ [last])) _) (by simp [Doc.array_last])
      · split at followed
        · next blank =>
          cases followed
          exact .of (.afterItem around items (last.push blank) before)
            (by simp [Doc.Item.text, Doc.Item.push, Gap.push])
        · cases followed
  | @afterMember _ front around members last before =>
    dsimp only at followed
    split at followed
    · next comma =>
      cases followed
      subst comma
      exact .of (.key around (members ++ [last]) .none before) (by simp [Doc.leadingMembers, Gap.none])
    · split at followed
      · next brace =>
        cases followed
        subst brace
        exact .of (settle_reading around (.object .none (members ++ [last])) _) (by simp [Doc.object_last])
      · split at followed
        · next blank =>
          cases followed
          exact .of (.afterMember around members (last.push blank) before)
            (by simp [Doc.Member.text, Doc.Member.push, Gap.push])
        · cases followed
  | done before d after v =>
    dsimp only at followed
    split at followed
    · next blank =>
      cases followed
      exact .of (.done before d (after.push blank) v) (by simp [Gap.push])
    · cases followed
  | _ => cases followed

theorem step_reading (reading : Reading s text) (step : s.step limit c = some t) : Reading t (text ++ [c]) := by
  have follow (same : s.follow c = some t) : Reading t (text ++ [c]) := follow_reading reading same
  have opened : scanAll [] .plain [] = some ([], .plain) := rfl
  unfold State.step at step
  cases reading with
  | value around =>
    dsimp only at step
    split at step
    · next blank =>
      cases step
      exact .value (ready_blank around blank)
    · exact begin_reading around step
  | @firstItem _ front around gap =>
    dsimp only at step
    split at step
    · next blank =>
      cases step
      exact .of (.firstItem around (gap.push blank)) (by simp [Gap.push])
    · split at step
      · next bracket =>
        cases step
        subst bracket
        exact .of (settle_reading around (.array gap []) _) (by simp [Doc.text])
      · exact .of (begin_reading (.item around [] gap []) step) (by simp [Doc.leadingItems])
  | @firstMember _ front around gap =>
    dsimp only at step
    split at step
    · next blank =>
      cases step
      exact .of (.firstMember around (gap.push blank)) (by simp [Gap.push])
    · split at step
      · next brace =>
        cases step
        subst brace
        exact .of (settle_reading around (.object gap []) _) (by simp [Doc.text])
      · split at step
        · next quote =>
          cases step
          subst quote
          exact .of (.string (.key around [] gap []) opened) (by simp [Doc.leadingMembers])
        · cases step
  | key around members gap before =>
    dsimp only at step
    split at step
    · next blank =>
      cases step
      exact .of (.key around members (gap.push blank) before) (by simp [Gap.push])
    · split at step
      · next quote =>
        cases step
        subst quote
        exact .string (.key around members gap before) opened
      · cases step
  | colon around members gap q after before key =>
    dsimp only at step
    split at step
    · next blank =>
      cases step
      exact .of (.colon around members gap q (after.push blank) before key) (by simp [Gap.push])
    · split at step
      · next colon =>
        cases step
        subst colon
        let l : Label := ⟨gap, q, after⟩
        exact .of (.value (.member around members l .none before key)) (by simp [l, Label.written, Gap.none])
      · cases step
  | @word _ front around d seen rest whole v =>
    match rest with
    | [] => cases step
    | [last] =>
      dsimp only at step
      split at step
      · next same =>
        cases step
        exact .of (settle_reading around d v) (by rw [same, whole, List.append_assoc])
      · cases step
    | next :: later :: more =>
      dsimp only at step
      split at step
      · next same =>
        cases step
        have whole' : d.text = (seen ++ [c]) ++ (later :: more) := by rw [same, whole]; simp
        exact .of (.word around d whole' v) (by simp)
      · cases step
  | @numeral _ front around seen n lexed =>
    dsimp only at step
    split at step
    · next pushed =>
      cases step
      exact .of (.numeral around (Numeral.lex_push lexed pushed)) (by simp)
    · cases step
    · next past =>
      obtain ⟨v, _, followed⟩ := Option.bind_eq_some_iff.mp step
      have complete := Numeral.past_complete past
      exact follow_reading (settle_reading around (.number ⟨seen, n, lexed, complete⟩) v) followed
  | @string _ purpose front around seen meaning scan scanned =>
    dsimp only at step
    split at step
    · next spelled =>
      cases step
      exact .of (.string around (scan_push scanned spelled)) (by simp)
    · next closed =>
      cases step
      obtain ⟨rfl, rfl⟩ := close_plain closed
      exact .of (settleString_reading around ⟨seen, meaning, scanned⟩) (by simp [Quoted.written])
    · cases step
  | afterItem | afterMember | done => exact follow step

-- What has been read to the end is a document between gaps.
theorem run_reading {v : Json} {rest : List Char} (reading : Reading s text) (run : s.run limit rest = .ok v) :
    ∃ (before after : Gap) (d : Doc), text ++ rest = before.1 ++ d.text ++ after.1 := by
  induction rest generalizing s text with
  | nil =>
    rw [List.append_nil]
    unfold State.run State.finish at run
    cases reading with
    | done before d after => exact ⟨before, after, d, rfl⟩
    | @numeral stack front around seen n lexed =>
      dsimp only at run
      split at run
      · next complete =>
        split at run
        · cases run
        · cases around with
          | outside gap =>
            exact ⟨gap, .none, .number ⟨seen, n, lexed, complete⟩, by simp [Doc.text, Gap.none]⟩
        · cases run
      · cases run
    | _ => cases run
  | cons c rest ih =>
    unfold State.run at run
    split at run
    · next t step =>
      obtain ⟨before, after, d, written⟩ := ih (step_reading reading step) run
      exact ⟨before, after, d, by rw [← written, List.append_assoc, List.singleton_append]⟩
    · cases run

end

-- The reader accepts the documents of the grammar that nest within its limit and keep their numbers in
-- range, and no other text. It reads the value that the document has.
theorem read_ok {text : String} {v : Json} :
    Json.read text = .ok v ↔ ∃ d : Doc, d.Spells text ∧ d.depth ≤ 127 ∧ d.Ranged ∧ v = d.value := by
  constructor
  · intro read
    obtain ⟨before, after, d, written⟩ := run_reading (.value (.outside .none)) read
    rw [read_doc before d after written] at read
    cases known : d.read depthLimit with
    | none =>
      rw [known] at read
      cases read
    | some w =>
      rw [known] at read
      cases read
      exact ⟨d, ⟨before, after, written⟩, (read_iff d).mp known⟩
  · rintro ⟨d, spelled, shallow, ranged, rfl⟩
    exact spelled_read spelled shallow ranged

def Leaf : Json → Prop
  | array _ | object _ => False
  | null | bool _ | int _ | float _ | string _ => True

-- The property of a container follows from that of the values in it, which have less room.
structure Composed (P : Nat → Json → Prop) : Prop where
  leaf : ∀ room v, v.Leaf → P room v
  array : ∀ room items, (∀ v ∈ items, P room v) → P (room + 1) (.array items)
  object : ∀ room members, (∀ m ∈ members, P room m.2) → P (room + 1) (ofMembers members)

section
variable {P : Nat → Json → Prop} {v : Json}

theorem value_leaf {n : Numeral} (known : n.value = some v) : v.Leaf := by
  unfold Numeral.value at known
  dsimp only at known
  split at known
  · cases known
    trivial
  · split at known
    · cases known
      trivial
    · obtain ⟨x, _, rfl⟩ := Option.map_eq_some_iff.mp known
      trivial

theorem token_leaf (t : Token) : t.value.Leaf := by
  unfold Token.value
  cases known : t.numeral.value with
  | none => trivial
  | some v => exact value_leaf known

mutual

theorem value_composed (composed : Composed P) (d : Doc) {room : Nat} (shallow : d.depth ≤ room) :
    P room d.value := by
  cases d with
  | null | bool | string => exact composed.leaf room _ trivial
  | number t => exact composed.leaf room _ (token_leaf t)
  | array gap items =>
    obtain ⟨less, rfl, inside⟩ := Load.room_inside shallow
    exact composed.array less _ (items_composed composed items inside)
  | object gap members =>
    obtain ⟨less, rfl, inside⟩ := Load.room_inside shallow
    exact composed.object less _ (members_composed composed members inside)

theorem items_composed (composed : Composed P) (items : List Doc.Item) {room : Nat}
    (shallow : Doc.depthItems items ≤ room) : ∀ v ∈ Doc.valueItems items, P room v := by
  match items with
  | [] => nofun
  | (before, d, after) :: rest =>
    obtain ⟨first, others⟩ := Nat.max_le.mp shallow
    exact List.forall_mem_cons.mpr ⟨value_composed composed d first, items_composed composed rest others⟩

theorem members_composed (composed : Composed P) (members : List Doc.Member) {room : Nat}
    (shallow : Doc.depthMembers members ≤ room) : ∀ m ∈ Doc.valueMembers members, P room m.2 := by
  match members with
  | [] => nofun
  | (l, before, d, after) :: rest =>
    obtain ⟨first, others⟩ := Nat.max_le.mp shallow
    exact List.forall_mem_cons.mpr ⟨value_composed composed d first, members_composed composed rest others⟩

end

theorem read_composed (composed : Composed P) {text : String} (read : Json.read text = .ok v) :
    P depthLimit v := by
  obtain ⟨d, _, shallow, _, rfl⟩ := read_ok.mp read
  exact value_composed composed d shallow

end

-- A value that is read nests no deeper than the limit.
theorem read_depth {text : String} {v : Json} (read : Json.read text = .ok v) : v.depth ≤ 127 := by
  refine read_composed (P := fun room v => v.depth ≤ room) ⟨?_, ?_, ?_⟩ read
  · intro room v leaf
    cases v <;> first | exact Nat.zero_le room | cases leaf
  · intro room items each
    rw [depth, Nat.add_comm 1]
    exact Nat.succ_le_succ (depthAll_le.mpr each)
  · intro room members each
    rw [ofMembers, depth, Nat.add_comm 1]
    exact Nat.succ_le_succ (depthMembers_le.mpr fun m member => each m (mem_gathered member))

-- No object, however deep inside, has two members of one key.
mutual

def Distinct : Json → Prop
  | array items => DistinctAll items
  | object members => (keys members).Nodup ∧ DistinctMembers members
  | null | bool _ | int _ | float _ | string _ => True

def DistinctAll : List Json → Prop
  | [] => True
  | v :: rest => v.Distinct ∧ DistinctAll rest

def DistinctMembers : List (String × Json) → Prop
  | [] => True
  | (_, v) :: rest => v.Distinct ∧ DistinctMembers rest

end

theorem distinctAll_iff {items : List Json} : DistinctAll items ↔ ∀ v ∈ items, v.Distinct := by
  induction items with
  | nil => simp [DistinctAll]
  | cons v rest ih => rw [DistinctAll, ih, List.forall_mem_cons]

theorem distinctMembers_iff {members : List (String × Json)} :
    DistinctMembers members ↔ ∀ m ∈ members, m.2.Distinct := by
  induction members with
  | nil => simp [DistinctMembers]
  | cons m rest ih => rw [DistinctMembers, ih, List.forall_mem_cons]

theorem read_distinct {text : String} {v : Json} (read : Json.read text = .ok v) : v.Distinct := by
  refine read_composed (P := fun _ v => v.Distinct) ⟨?_, ?_, ?_⟩ read
  · intro room v leaf
    cases v <;> trivial
  · exact fun room items each => distinctAll_iff.mpr each
  · intro room members each
    exact ⟨gathered_nodup members, distinctMembers_iff.mpr fun m member => each m (mem_gathered member)⟩

end Solid.Json
