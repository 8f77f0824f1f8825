import Solid.Proofs.Grammar
namespace Solid.Json
open Decimal

-- How deep arrays and objects are nested.
mutual

def depth : Json → Nat
  | array items => 1 + depthAll items
  | object members => 1 + depthMembers members
  | null | bool _ | int _ | float _ | string _ => 0

def depthAll : List Json → Nat
  | [] => 0
  | v :: rest => max v.depth (depthAll rest)

def depthMembers : List (String × Json) → Nat
  | [] => 0
  | (_, v) :: rest => max v.depth (depthMembers rest)

end

theorem depthAll_le {items : List Json} {k : Nat} : depthAll items ≤ k ↔ ∀ v ∈ items, v.depth ≤ k := by
  induction items with
  | nil => simp [depthAll]
  | cons v rest ih => rw [depthAll, Nat.max_le, ih, List.forall_mem_cons]

theorem depthMembers_le {members : List (String × Json)} {k : Nat} :
    depthMembers members ≤ k ↔ ∀ m ∈ members, m.2.depth ≤ k := by
  induction members with
  | nil => simp [depthMembers]
  | cons m rest ih => rw [depthMembers, Nat.max_le, ih, List.forall_mem_cons]

-- What is neither an array nor an object, in order.
mutual

def leaves : Json → List Json
  | array items => leavesAll items
  | object members => leavesMembers members
  | v => [v]

def leavesAll : List Json → List Json
  | [] => []
  | v :: rest => v.leaves ++ leavesAll rest

def leavesMembers : List (String × Json) → List Json
  | [] => []
  | (_, v) :: rest => v.leaves ++ leavesMembers rest

end

-- The value as the reader holds it, every object sorted by its keys.
mutual

def sorted : Json → Json
  | array items => array (sortedAll items)
  | object members => ofMembers (sortedMembers members)
  | v => v

def sortedAll : List Json → List Json
  | [] => []
  | v :: rest => v.sorted :: sortedAll rest

def sortedMembers : List (String × Json) → List (String × Json)
  | [] => []
  | (key, v) :: rest => (key, v.sorted) :: sortedMembers rest

end

-- A double whose own text is read as the same double.
def Survives (x : Float) : Prop := Json.read (Layout.json.text x) = .ok (.float x)

def floatToken (x : Float) (finite : x.isFinite) : Token :=
  have proper := spelling_proper (Binary.ofFloat x)
  ⟨Layout.json.characters x, (spelling (Binary.ofFloat x)).numeral,
    by rw [json_characters finite, Spelling.text_read proper.1],
    Spelling.numeral_complete _⟩

def intSpelling (n : Int) : Spelling := wholeSpelling (decide (n < 0)) n.natAbs []

theorem int_proper (n : Int) : (intSpelling n).Proper :=
  whole_proper _ _ (List.forall_mem_nil _)

theorem int_text (n : Int) : writeInt n = (intSpelling n).text := by
  simp [writeInt, intSpelling, wholeSpelling, Spelling.text, Spelling.magnitude, Spelling.tail]

def intToken (n : Int) : Token :=
  ⟨writeInt n, (intSpelling n).numeral, by rw [int_text, Spelling.text_read (int_proper n)],
    Spelling.numeral_complete _⟩

theorem scan_append {before middle meaning : List Char} {scan scan' scan'' : Scan} {front back : List Char}
    (first : scanAll before scan front = some (middle, scan'))
    (second : scanAll middle scan' back = some (meaning, scan'')) :
    scanAll before scan (front ++ back) = some (meaning, scan'') := by
  induction front generalizing before scan with
  | nil =>
    cases first
    exact second
  | cons c rest ih =>
    rw [scanAll] at first
    rw [List.cons_append, scanAll]
    cases next : spell before scan c with
    | more before' scan' =>
      simp only [next] at first ⊢
      exact ih first
    | close | wrong => simp [next] at first

theorem hex_digit : ∀ k < 16, Text.hexValue? (Text.hexDigit k) = some k ∧ (Text.hexDigit k).utf8Size = 1 := by
  decide

theorem scan_escape (before : List Char) (c : Char) :
    scanAll before .plain (escape c) = some (c :: before, .plain) := by
  unfold escape
  iterate 7
    split
    · next same =>
      rw [same]
      rfl
  split
  · next control =>
    obtain ⟨high, one⟩ := hex_digit (c.toNat / 16) (by omega)
    obtain ⟨low, one'⟩ := hex_digit (c.toNat % 16) (by omega)
    have unit : unitValue? [Text.hexDigit (c.toNat % 16), Text.hexDigit (c.toNat / 16), '0', '0'] =
        some c.toNat := by
      have zero : Text.hexValue? '0' = some 0 := rfl
      simp [unitValue?, high, low, zero]
      omega
    have size : '0'.utf8Size = 1 := rfl
    have narrow : bytes [Text.hexDigit (c.toNat / 16), '0', '0'] < 4 := by simp [bytes, one, size]
    have wide : ¬bytes [Text.hexDigit (c.toNat % 16), Text.hexDigit (c.toNat / 16), '0', '0'] < 4 := by
      simp [bytes, one, one', size]
    have alone : ¬(0xDC00 ≤ c.toNat ∧ c.toNat ≤ 0xDFFF) ∧ ¬(0xD800 ≤ c.toNat ∧ c.toNat ≤ 0xDBFF) := by
      omega
    have third : spell before (.unit ['0', '0'] none) (Text.hexDigit (c.toNat / 16)) =
        .more before (.unit [Text.hexDigit (c.toNat / 16), '0', '0'] none) := if_pos narrow
    have fourth : spell before (.unit [Text.hexDigit (c.toNat / 16), '0', '0'] none)
        (Text.hexDigit (c.toNat % 16)) = .more (c :: before) .plain := by
      simp only [spell, if_neg wide, unit, spellUnit, alone.1, alone.2, if_false, Char.ofNat_toNat]
    change scanAll before (.unit ['0', '0'] none)
      [Text.hexDigit (c.toNat / 16), Text.hexDigit (c.toNat % 16)] = _
    simp only [scanAll, third, fourth]
  · next quote backslash _ _ _ _ _ printable =>
    simp [scanAll, spell, quote, backslash, printable]

theorem scan_string (before text : List Char) :
    scanAll before .plain (text.flatMap escape) = some (text.reverse ++ before, .plain) := by
  induction text generalizing before with
  | nil => rfl
  | cons c rest ih =>
    rw [List.flatMap_cons, scan_append (scan_escape before c) (ih _)]
    simp

def quoted (s : String) : Quoted :=
  ⟨s.toList.flatMap escape, s.toList.reverse, by simpa using scan_string [] s.toList⟩

theorem quoted_value (s : String) : (quoted s).value = s := by
  simp [quoted, Quoted.value]

-- The blanks of one layout: in front of every part and of the closing bracket, depending on the
-- level, and behind the colon.
structure Spacing where
  line : Nat → Gap
  colon : Gap

def Gap.none : Gap := ⟨[], nofun⟩

def Spacing.compact : Spacing := ⟨fun _ => .none, .none⟩

theorem newline_blank (level : Nat) : ∀ c ∈ newline level, isBlank c = true := by
  intro c member
  rcases List.mem_cons.mp member with rfl | blank
  · rfl
  · rw [List.eq_of_mem_replicate blank]
    rfl

def Spacing.pretty : Spacing :=
  ⟨fun level => ⟨newline level, newline_blank level⟩, ⟨[' '], List.forall_mem_singleton.mpr rfl⟩⟩

-- The last part of a container has the closing bracket's blanks behind it.
mutual

def doc (s : Spacing) (level : Nat) : Json → Doc
  | null => .null
  | bool b => .bool b
  | int n => .number (intToken n)
  | float x => if finite : x.isFinite then .number (floatToken x finite) else .null
  | string text => .string (quoted text)
  | array items => .array .none (docItems s level items)
  | object members => .object .none (docMembers s level members)

def docItems (s : Spacing) (level : Nat) : List Json → List (Gap × Doc × Gap)
  | [] => []
  | [v] => [(s.line (level + 1), v.doc s (level + 1), s.line level)]
  | v :: rest => (s.line (level + 1), v.doc s (level + 1), .none) :: docItems s level rest

def docMembers (s : Spacing) (level : Nat) : List (String × Json) → List (Label × Gap × Doc × Gap)
  | [] => []
  | [(key, v)] =>
    [(⟨s.line (level + 1), quoted key, .none⟩, s.colon, v.doc s (level + 1), s.line level)]
  | (key, v) :: rest =>
    (⟨s.line (level + 1), quoted key, .none⟩, s.colon, v.doc s (level + 1), .none)
      :: docMembers s level rest

end

theorem quoted_written (text : String) : (quoted text).written = writeString text := rfl

theorem float_text (s : Spacing) (level : Nat) (x : Float) :
    ((float x).doc s level).text = Layout.json.characters x := by
  rw [doc]
  split
  · rfl
  · next infinite => exact (json_null (by simpa using infinite)).symm

theorem itemsText_cons {items : List (Gap × Doc × Gap)} (filled : items ≠ []) (before : Gap) (d : Doc)
    (after : Gap) : Doc.itemsText ((before, d, after) :: items) =
      before.1 ++ d.text ++ after.1 ++ ',' :: Doc.itemsText items := by
  cases items with
  | nil => exact absurd rfl filled
  | cons next rest => rfl

theorem membersText_cons {members : List (Label × Gap × Doc × Gap)} (filled : members ≠ []) (l : Label)
    (before : Gap) (d : Doc) (after : Gap) : Doc.membersText ((l, before, d, after) :: members) =
      l.written ++ before.1 ++ d.text ++ after.1 ++ ',' :: Doc.membersText members := by
  cases members with
  | nil => exact absurd rfl filled
  | cons next rest => rfl

theorem docItems_filled (s : Spacing) (level : Nat) (v : Json) (rest : List Json) :
    docItems s level (v :: rest) ≠ [] := by
  cases rest <;> exact nofun

theorem docMembers_filled (s : Spacing) (level : Nat) (m : String × Json) (rest : List (String × Json)) :
    docMembers s level (m :: rest) ≠ [] := by
  cases rest <;> exact nofun

theorem array_text (s : Spacing) (level : Nat) (v : Json) (rest : List Json) :
    ((array (v :: rest)).doc s level).text = '[' :: Doc.itemsText (docItems s level (v :: rest)) ++ [']'] := by
  cases rest <;> rfl

theorem object_text (s : Spacing) (level : Nat) (m : String × Json) (rest : List (String × Json)) :
    ((object (m :: rest)).doc s level).text =
      '\x7b' :: Doc.membersText (docMembers s level (m :: rest)) ++ ['\x7d'] := by
  cases rest <;> rfl

theorem none_gap : Gap.none.1 = [] := rfl

theorem compact_line (level : Nat) : (Spacing.compact.line level).1 = [] := rfl

theorem compact_colon : Spacing.compact.colon.1 = [] := rfl

theorem pretty_line (level : Nat) : (Spacing.pretty.line level).1 = newline level := rfl

theorem pretty_colon : Spacing.pretty.colon.1 = [' '] := rfl

mutual

theorem doc_compact (v : Json) (level : Nat) : (v.doc .compact level).text = v.compactList := by
  match v with
  | null | bool _ | int _ | string _ | array [] | object [] => rfl
  | float x => exact float_text _ _ _
  | array (item :: rest) => rw [array_text, docItems_compact, compactList]
  | object (m :: rest) => rw [object_text, docMembers_compact, compactList]

theorem docItems_compact (items : List Json) (level : Nat) :
    Doc.itemsText (docItems .compact level items) = compactItems items := by
  match items with
  | [] => rfl
  | [v] =>
    simp only [docItems, Doc.itemsText, compactItems, doc_compact v, compact_line, List.nil_append,
      List.append_nil]
  | v :: next :: rest =>
    rw [docItems, itemsText_cons (docItems_filled _ _ _ _), docItems_compact (next :: rest) level,
      doc_compact v (level + 1), compact_line, none_gap, List.nil_append, List.append_nil]
    · rfl
    · nofun

theorem docMembers_compact (members : List (String × Json)) (level : Nat) :
    Doc.membersText (docMembers .compact level members) = compactMembers members := by
  match members with
  | [] => rfl
  | [(key, v)] =>
    simp only [docMembers, Doc.membersText, compactMembers, doc_compact v, compact_line, compact_colon,
      none_gap, Label.written, quoted_written, List.nil_append, List.append_nil, List.append_assoc,
      List.singleton_append]
  | (key, v) :: next :: rest =>
    rw [docMembers, membersText_cons (docMembers_filled _ _ _ _), docMembers_compact (next :: rest) level,
      doc_compact v (level + 1)]
    · change _ = writeString key ++ ':' :: v.compactList ++ ',' :: compactMembers (next :: rest)
      simp only [compact_line, compact_colon, none_gap, Label.written, quoted_written, List.nil_append,
        List.append_nil, List.append_assoc, List.cons_append]
    · nofun

end

mutual

theorem doc_pretty (v : Json) (level : Nat) : (v.doc .pretty level).text = prettyList level v := by
  match v with
  | null | bool _ | int _ | string _ | array [] | object [] => rfl
  | float x => exact float_text _ _ _
  | array (item :: rest) =>
    rw [array_text, docItems_pretty (List.cons_ne_nil item rest), prettyList]
    rfl
  | object (m :: rest) =>
    rw [object_text, docMembers_pretty (List.cons_ne_nil m rest), prettyList]
    rfl

theorem docItems_pretty {items : List Json} (filled : items ≠ []) (level : Nat) :
    Doc.itemsText (docItems .pretty level items) = prettyItems (level + 1) items ++ newline level := by
  match items with
  | [] => exact absurd rfl filled
  | [v] => simp only [docItems, Doc.itemsText, prettyItems, doc_pretty v, pretty_line]
  | v :: next :: rest =>
    rw [docItems, itemsText_cons (docItems_filled _ _ _ _), docItems_pretty (List.cons_ne_nil next rest) level,
      doc_pretty v (level + 1)]
    · change _ = newline (level + 1) ++ prettyList (level + 1) v ++ ',' :: prettyItems (level + 1) (next :: rest)
        ++ newline level
      simp only [pretty_line, none_gap, List.append_nil, List.append_assoc, List.cons_append]
    · nofun

theorem docMembers_pretty {members : List (String × Json)} (filled : members ≠ []) (level : Nat) :
    Doc.membersText (docMembers .pretty level members) = prettyMembers (level + 1) members ++ newline level := by
  match members with
  | [] => exact absurd rfl filled
  | [(key, v)] =>
    simp only [docMembers, Doc.membersText, prettyMembers, doc_pretty v, pretty_line, pretty_colon, none_gap,
      Label.written, quoted_written, List.append_nil, List.nil_append, List.append_assoc, List.cons_append]
  | (key, v) :: next :: rest =>
    rw [docMembers, membersText_cons (docMembers_filled _ _ _ _),
      docMembers_pretty (List.cons_ne_nil next rest) level, doc_pretty v (level + 1)]
    · change _ = newline (level + 1) ++ writeString key ++ ':' :: ' ' :: prettyList (level + 1) v
        ++ ',' :: prettyMembers (level + 1) (next :: rest) ++ newline level
      simp only [pretty_line, pretty_colon, none_gap, Label.written, quoted_written, List.append_nil,
        List.nil_append, List.append_assoc, List.cons_append]
    · nofun

end

-- A number that is read as it was written; everything else is.
def Faithful : Json → Prop
  | int n => 0 ≤ n ∧ n < 2 ^ 64
  | float x => Survives x
  | _ => True

theorem survives_finite {x : Float} (survives : Survives x) : x.isFinite = true := by
  cases finite : x.isFinite with
  | true => rfl
  | false =>
    have text : Layout.json.text x = "null" := by
      rw [Layout.text, json_null finite]
      rfl
    rw [Survives, text] at survives
    have read : Json.read "null" = .ok .null := rfl
    rw [read] at survives
    cases survives

theorem float_read {x : Float} (finite : x.isFinite) : Json.read (Layout.json.text x) =
    match (spelling (Binary.ofFloat x)).numeral.value with
    | some v => .ok v
    | none => .error .syntaxError :=
  read_doc .none (.number (floatToken x finite)) .none (by simp [Layout.text, none_gap, Doc.text, floatToken])

theorem survives_iff {x : Float} (finite : x.isFinite) :
    Survives x ↔ (spelling (Binary.ofFloat x)).numeral.value = some (.float x) := by
  rw [Survives, float_read finite]
  cases (spelling (Binary.ofFloat x)).numeral.value <;> simp

theorem smallWhole_survives {x : Float} (small : SmallWhole x) : Survives x :=
  (survives_iff small.1).mpr (smallWhole_value small)

theorem readItems_cons (s : Spacing) (level room : Nat) (v : Json) (rest : List Json) :
    Doc.readItems room (docItems s level (v :: rest)) = do
      let x ← (v.doc s (level + 1)).read room
      let xs ← Doc.readItems room (docItems s level rest)
      return x :: xs := by
  cases rest <;> rfl

theorem readMembers_cons (s : Spacing) (level room : Nat) (key : String) (v : Json)
    (rest : List (String × Json)) :
    Doc.readMembers room (docMembers s level ((key, v) :: rest)) = do
      let x ← (v.doc s (level + 1)).read room
      let xs ← Doc.readMembers room (docMembers s level rest)
      return ((quoted key).value, x) :: xs := by
  cases rest <;> rfl

section
variable (s : Spacing)

mutual

theorem read_shallow (v : Json) (level : Nat) {room : Nat} (faithful : ∀ leaf ∈ v.leaves, leaf.Faithful)
    (shallow : v.depth ≤ room) : (v.doc s level).read room = some v.sorted := by
  match v with
  | null | bool _ => rfl
  | int n =>
    obtain ⟨least, most⟩ := List.forall_mem_singleton.mp faithful
    obtain ⟨k, rfl⟩ := Int.eq_ofNat_of_zero_le least
    have positive : ¬(k : Int) < 0 := by omega
    have value := int_value (n := k) (by omega)
    simpa [doc, Doc.read, intToken, intSpelling, sorted, positive] using value
  | float x =>
    have survives := List.forall_mem_singleton.mp faithful
    have finite := survives_finite survives
    have value := (survives_iff finite).mp survives
    simpa [doc, finite, Doc.read, floatToken, sorted] using value
  | string text => simp [doc, Doc.read, quoted_value, sorted]
  | array items =>
    rw [depth] at shallow
    have some : ¬room = 0 := by omega
    have inner := readItems_shallow items level faithful (show depthAll items ≤ room - 1 by omega)
    simp only [doc, Doc.read, some, if_false, inner, Option.map_some, sorted]
  | object members =>
    rw [depth] at shallow
    have some : ¬room = 0 := by omega
    have inner := readMembers_shallow members level faithful
      (show depthMembers members ≤ room - 1 by omega)
    simp only [doc, Doc.read, some, if_false, inner, Option.map_some, sorted]

theorem readItems_shallow (items : List Json) (level : Nat) {room : Nat}
    (faithful : ∀ leaf ∈ leavesAll items, leaf.Faithful) (shallow : depthAll items ≤ room) :
    Doc.readItems room (docItems s level items) = some (sortedAll items) := by
  match items with
  | [] => rfl
  | v :: rest =>
    rw [depthAll] at shallow
    rw [leavesAll, List.forall_mem_append] at faithful
    rw [readItems_cons, read_shallow v (level + 1) faithful.1 (by omega),
      readItems_shallow rest level faithful.2 (by omega)]
    rfl

theorem readMembers_shallow (members : List (String × Json)) (level : Nat) {room : Nat}
    (faithful : ∀ leaf ∈ leavesMembers members, leaf.Faithful) (shallow : depthMembers members ≤ room) :
    Doc.readMembers room (docMembers s level members) = some (sortedMembers members) := by
  match members with
  | [] => rfl
  | (key, v) :: rest =>
    rw [depthMembers] at shallow
    rw [leavesMembers, List.forall_mem_append] at faithful
    rw [readMembers_cons, read_shallow v (level + 1) faithful.1 (by omega),
      readMembers_shallow rest level faithful.2 (by omega), quoted_value]
    rfl

end

-- Whatever stands in it, a text that nests too deep is refused.
mutual

theorem read_deep (v : Json) (level : Nat) {room : Nat} (deep : room < v.depth) :
    (v.doc s level).read room = none := by
  match v with
  | null | bool _ | int _ | float _ | string _ => exact absurd deep (Nat.not_lt_zero room)
  | array items =>
    rw [depth] at deep
    by_cases some : room = 0
    · simp only [doc, Doc.read, some, if_true]
    · have inner := readItems_deep items level (show room - 1 < depthAll items by omega)
      simp only [doc, Doc.read, some, if_false, inner, Option.map_none]
  | object members =>
    rw [depth] at deep
    by_cases some : room = 0
    · simp only [doc, Doc.read, some, if_true]
    · have inner := readMembers_deep members level (show room - 1 < depthMembers members by omega)
      simp only [doc, Doc.read, some, if_false, inner, Option.map_none]

theorem readItems_deep (items : List Json) (level : Nat) {room : Nat} (deep : room < depthAll items) :
    Doc.readItems room (docItems s level items) = none := by
  match items with
  | [] => exact absurd deep (Nat.not_lt_zero room)
  | v :: rest =>
    rw [depthAll] at deep
    rw [readItems_cons]
    by_cases first : room < v.depth
    · rw [read_deep v (level + 1) first]
      rfl
    · rw [readItems_deep rest level (by omega)]
      cases (v.doc s (level + 1)).read room <;> rfl

theorem readMembers_deep (members : List (String × Json)) (level : Nat) {room : Nat}
    (deep : room < depthMembers members) :
    Doc.readMembers room (docMembers s level members) = none := by
  match members with
  | [] => exact absurd deep (Nat.not_lt_zero room)
  | (key, v) :: rest =>
    rw [depthMembers] at deep
    rw [readMembers_cons]
    by_cases first : room < v.depth
    · rw [read_deep v (level + 1) first]
      rfl
    · rw [readMembers_deep rest level (by omega)]
      cases (v.doc s (level + 1)).read room <;> rfl

end

end

-- The texts of one value, in either layout.
def Written (v : Json) (text : String) : Prop := text = v.compact ∨ text = v.pretty

theorem read_written {v : Json} {text : String} (written : v.Written text) :
    ∃ s, Json.read text = match (v.doc s 0).read depthLimit with
      | some v => .ok v
      | none => .error .syntaxError := by
  rcases written with rfl | rfl
  · exact ⟨.compact, read_doc .none _ .none (by simp [compact, doc_compact, none_gap])⟩
  · exact ⟨.pretty, read_doc .none _ .none (by simp [pretty, doc_pretty, none_gap])⟩

theorem read_faithful {v : Json} {text : String} (written : v.Written text)
    (faithful : ∀ leaf ∈ v.leaves, leaf.Faithful) (shallow : v.depth ≤ depthLimit) :
    Json.read text = .ok v.sorted := by
  obtain ⟨s, read⟩ := read_written written
  rw [read, read_shallow s v 0 faithful shallow]

theorem read_tooDeep {v : Json} {text : String} (written : v.Written text) (deep : depthLimit < v.depth) :
    Json.read text = .error .syntaxError := by
  obtain ⟨s, read⟩ := read_written written
  rw [read, read_deep s v 0 deep]

end Solid.Json
